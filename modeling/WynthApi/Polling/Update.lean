import WynthApi.Polling.Billing

/-!
# What each handler makes of its copy and the row

The video poller (`updateVideoSingleTask`), the Suno poller (the loop body of `updateSunoTasks`), the timeout sweeper
(the loop body of `sweepTimedOutTasks`) and the user's realtime fetch (`tryRealtimeFetch`).  Each gets the row as it
is now, the handler's own copy, and what the upstream and the clock answer.
-/

namespace WynthApi.Polling

open Store

structure TaskInfo where
  (status reason url progress : String)
  totalTokens : Int
  deriving DecidableEq

def failTaskInfo (reason : String) : TaskInfo := ⟨"FAILURE", reason, "", "", 0⟩

inductive Bill where
  | refund
  | settle (info : TaskInfo)
  deriving DecidableEq

/-- What a handler leaves: its copy, the row, whether its guarded update matched the row, and the
billing function it goes on to call. -/
structure Outcome where
  (copy row : Task)
  won : Bool
  bill : Option Bill

def Outcome.skip (row copy : Task) : Outcome := ⟨copy, row, false, none⟩

/-! ### Video poller -/

/-- How a body without a status reads as an error: not JSON at all, an OpenAI error with code `429`,
another OpenAI error, or neither. -/
inductive ErrorBody where
  | notJSON
  | tooManyRequests
  | openAIError
  | unrecognized
  deriving DecidableEq

/-- What the fetch of one task gives.  `parsed` covers both body formats; `data` is the redacted
body that is stored. -/
inductive VideoAnswer where
  | fetchFailed
  | readFailed
  | parseFailed
  | parsed (info : TaskInfo) (data : String) (errorBody : ErrorBody)
  deriving DecidableEq

/-- The treatment of an empty status; `none` leaves the task for the next pass. -/
def resolveStatus (info : TaskInfo) (errorBody : ErrorBody) : Option TaskInfo :=
  if info.status ≠ "" then some info
  else match errorBody with
    | .notJSON => some info
    | .tooManyRequests => none
    | .openAIError => some (failTaskInfo "upstream returned error")
    | .unrecognized => some (failTaskInfo "upstream returned unrecognized message")

def stamp (time now : Int) : Int := if time = 0 then now else time

variable (buildProxyURL : String → String) (t : Task)

/-- The result URL of a finished task: `data:` bodies and absent URLs go through the proxy. -/
def finishedURL (url : String) : String :=
  if GoText.startsWith url "data:" then buildProxyURL t.taskID
  else if url ≠ "" then url
  else buildProxyURL t.taskID

def withProgress (progress : String) : Task :=
  if progress ≠ "" then { t with progress } else t

/-- The `switch` of `updateVideoSingleTask`: the new copy with the billing call it asks for, or the
copy that an unknown status leaves behind. -/
def applyVideo (now : Int) (t : Task) (info : TaskInfo) :
    Except Task (Task × Option Bill) :=
  let t := { t with status := TaskStatus.ofText info.status }
  match t.status with
  | .submitted => .ok (withProgress { t with progress := "10%" } info.progress, none)
  | .queued => .ok (withProgress { t with progress := "20%" } info.progress, none)
  | .inProgress =>
    .ok (withProgress { t with progress := "30%", startTime := stamp t.startTime now }
      info.progress, none)
  | .success =>
    .ok (withProgress { t with
        progress := "100%"
        finishTime := stamp t.finishTime now
        privateData := { t.privateData with
          resultURL := finishedURL buildProxyURL t info.url } } info.progress,
      some (.settle info))
  | .failure =>
    .ok ({ t with
        progress := "100%"
        finishTime := stamp t.finishTime now
        failReason := info.reason },
      if t.quota ≠ 0 then some .refund else none)
  | _ => .error t

def updateVideoSingleTask (row copy : Task) (answer : VideoAnswer)
    (now : Int) (fault : Fault) : Outcome :=
  match answer with
  | .fetchFailed => .skip row copy
  | .readFailed => .skip row copy
  | .parseFailed => .skip row copy
  | .parsed info data errorBody =>
    let t := { copy with data }
    match resolveStatus info errorBody with
    | none => .skip row t
    | some info =>
      match applyVideo buildProxyURL now t info with
      | .error t' => .skip row t'
      | .ok (t', bill) =>
        let (won, row') := row.updateWithStatus t' copy.status fault
        if t'.status.IsTerminal ∧ copy.status ≠ t'.status then
          ⟨t', row', won, if won then bill else none⟩
        -- here a lost update does not stop the billing call
        else if ¬ copy.SnapshotEq t' then ⟨t', row', won, bill⟩
        else ⟨t', row, false, bill⟩

/-! ### Suno poller -/

structure SunoItem where
  (status failReason : String)
  (submitTime startTime finishTime : Int)
  data : String
  deriving DecidableEq

/-- Two texts have the same sorted bytes iff their bytes are permutations. -/
def taskNeedsUpdate (old : Task) (item : SunoItem) : Bool :=
  old.submitTime ≠ item.submitTime || old.startTime ≠ item.startTime ||
  old.finishTime ≠ item.finishTime || old.status.text ≠ item.status ||
  old.failReason ≠ item.failReason ||
  (decide old.status.IsTerminal && old.progress ≠ "100%") ||
  !(old.data.toUTF8.data.toList.isPerm item.data.toUTF8.data.toList)

def orOld (new old : Int) : Int := if new ≠ 0 then new else old

def mergeSuno (item : SunoItem) : Task :=
  { t with
    status := if item.status ≠ "" then TaskStatus.ofText item.status else t.status
    failReason := if item.failReason ≠ "" then item.failReason else t.failReason
    submitTime := orOld item.submitTime t.submitTime
    startTime := orOld item.startTime t.startTime
    finishTime := orOld item.finishTime t.finishTime }

/-- `isFailure`: a reason alone is enough. -/
def sunoFailed (item : SunoItem) : Bool :=
  item.failReason ≠ "" || decide ((mergeSuno t item).status = .failure)

def applySuno (item : SunoItem) : Task :=
  let m := mergeSuno t item
  let m := if sunoFailed t item then { m with status := .failure, progress := "100%" } else m
  let m := if item.status = "SUCCESS" then { m with progress := "100%" } else m
  { m with data := item.data }

def updateSunoTask (row copy : Task) (item : SunoItem) (fault : Fault) : Outcome :=
  if taskNeedsUpdate copy item then
    let t := applySuno copy item
    let (won, row') := row.updateWithStatus t copy.status fault
    ⟨t, row', won,
      if won ∧ sunoFailed copy item ∧ copy.status ≠ .failure ∧ t.quota ≠ 0 then some .refund
      else none⟩
  else .skip row copy

/-! ### Timeout sweeper -/

def legacyReason : String := "任务超时（旧系统遗留任务，不进行退款，请联系管理员）"

/-- The copy of a timed-out task: a legacy task loses its quota with the same update. -/
def applySweep (now : Int) (reason : String) : Task :=
  let failed := { t with status := .failure, progress := "100%", finishTime := now }
  if t.IsLegacy then { failed with failReason := legacyReason, quota := 0 }
  else { failed with failReason := reason }

def sweepTask (row copy : Task) (now : Int) (reason : String) (fault : Fault) : Outcome :=
  let t := applySweep copy now reason
  let (won, row') := row.updateWithStatus t copy.status fault
  ⟨t, row', won, if won ∧ ¬ copy.IsLegacy ∧ t.quota ≠ 0 then some .refund else none⟩

/-! ### Realtime fetch -/

def withStatus (status : String) : Task :=
  if status ≠ "" then { t with status := TaskStatus.ofText status } else t

/-- The result URL after a fetch: `data:` bodies are not stored, and a finished task without an URL
goes through the proxy. -/
def withResultURL (url : String) : Task :=
  if GoText.startsWith url "data:" then t
  else if url ≠ "" then { t with privateData := { t.privateData with resultURL := url } }
  else if t.status = .success then
    { t with privateData := { t.privateData with resultURL := buildProxyURL t.taskID } }
  else t

def applyRealtime (info : TaskInfo) : Task :=
  withResultURL buildProxyURL (withProgress (withStatus t info.status) info.progress) info.url

/-- `tryRealtimeFetch`, with `none` for every early return; it never calls a billing function. -/
def tryRealtimeFetch (row copy : Task) (answer : Option TaskInfo)
    (fault : Fault) : Outcome :=
  match answer with
  | none => .skip row copy
  | some info =>
    let t := applyRealtime buildProxyURL copy info
    if ¬ copy.SnapshotEq t then
      let (won, row') := row.updateWithStatus t copy.status fault
      ⟨t, row', won, none⟩
    else .skip row t

/-! ### What an outcome can be -/

/-- A handler writes its whole copy or nothing, and only over the status it had read. -/
structure Outcome.Guarded (row copy : Task) (o : Outcome) : Prop where
  same : o.copy.SameBilling copy
  won : o.won = true → row.status = copy.status ∧ o.row = o.copy
  lost : o.won = false → o.row = row

variable {copy row t : Task} {fault : Fault} {url : String → String} {now : Int}

theorem Outcome.guarded_skip (h : t.SameBilling copy) :
    Outcome.Guarded row copy (.skip row t) := ⟨h, nofun, fun _ => rfl⟩

variable {bill : Option Bill}

theorem Outcome.guarded_update {row' : Task} {won : Bool}
    (hsame : t.SameBilling copy) (h : row.updateWithStatus t copy.status fault = (won, row')) :
    Outcome.Guarded row copy ⟨t, row', won, bill⟩ := by
  refine ⟨hsame, fun hw => ?_, fun hw => ?_⟩
  · rcases Cas.write_cases h with ⟨-, hst, rfl⟩ | ⟨rfl, -⟩
    · exact ⟨hst, rfl⟩
    · cases hw
  · rcases Cas.write_cases h with ⟨rfl, -, -⟩ | ⟨-, rfl⟩
    · cases hw
    · rfl

/-- The billing call of an outcome belongs to the terminal status the update wrote. -/
structure Outcome.Exclusive (o : Outcome) : Prop where
  lost : o.won = false → o.bill = none
  refund : o.bill = some .refund → o.copy.status = .failure
  settle : ∀ info, o.bill = some (.settle info) → o.copy.status = .success
  failed : o.won = true → o.copy.status = .failure → o.copy.quota ≠ 0 → o.bill = some .refund

theorem Outcome.exclusive_skip (row t : Task) : Outcome.Exclusive (.skip row t) :=
  ⟨fun _ => rfl, nofun, nofun, nofun⟩

@[simp] theorem withProgress_status (t : Task) (p : String) : (withProgress t p).status = t.status := by
  unfold withProgress
  split_ifs <;> rfl

theorem withProgress_same (t : Task) (p : String) : (withProgress t p).SameSubmission t := by
  unfold withProgress
  split_ifs <;> exact ⟨⟨rfl, rfl, rfl, rfl, rfl, rfl, rfl⟩, rfl, rfl⟩

variable {t' : Task} {info : TaskInfo}

theorem applyVideo_ok (h : applyVideo url now t info = .ok (t', bill)) : t'.SameSubmission t ∧
      ((¬ t'.status.IsTerminal ∧ bill = none) ∨ (t'.status = .success ∧ bill = some (.settle info)) ∨
        (t'.status = .failure ∧ bill = if t.quota ≠ 0 then some .refund else none)) := by
  unfold applyVideo at h
  cases hst : TaskStatus.ofText info.status with
  | submitted | queued | inProgress =>
    simp only [hst, Except.ok.injEq, Prod.mk.injEq] at h
    obtain ⟨rfl, rfl⟩ := h
    refine ⟨(withProgress_same _ _).trans ⟨⟨rfl, rfl, rfl, rfl, rfl, rfl, rfl⟩, rfl, rfl⟩, .inl ⟨?_, rfl⟩⟩
    simp [TaskStatus.IsTerminal]
  | success =>
    simp only [hst, Except.ok.injEq, Prod.mk.injEq] at h
    obtain ⟨rfl, rfl⟩ := h
    exact ⟨(withProgress_same _ _).trans ⟨⟨rfl, rfl, rfl, rfl, rfl, rfl, rfl⟩, rfl, rfl⟩, .inr (.inl ⟨by simp, rfl⟩)⟩
  | failure =>
    simp only [hst, Except.ok.injEq, Prod.mk.injEq] at h
    obtain ⟨rfl, rfl⟩ := h
    exact ⟨⟨⟨rfl, rfl, rfl, rfl, rfl, rfl, rfl⟩, rfl, rfl⟩, .inr (.inr ⟨rfl, rfl⟩)⟩
  | notStart | unknown | other => simp [hst] at h

theorem applyVideo_error (h : applyVideo url now t info = .error t') : t'.SameSubmission t := by
  unfold applyVideo at h
  cases hst : TaskStatus.ofText info.status <;> simp only [hst, reduceCtorEq, Except.error.injEq] at h
  all_goals
    subst h
    exact ⟨⟨rfl, rfl, rfl, rfl, rfl, rfl, rfl⟩, rfl, rfl⟩

theorem video_cases (url : String → String) (row copy : Task) (answer : VideoAnswer) (now : Int) (fault : Fault) :
    (∃ t, updateVideoSingleTask url row copy answer now fault = .skip row t ∧ t.SameSubmission copy) ∨
    ∃ t info bill data, applyVideo url now { copy with data } info = .ok (t, bill) ∧
      updateVideoSingleTask url row copy answer now fault =
        if t.status.IsTerminal ∧ copy.status ≠ t.status then
          ⟨t, (row.updateWithStatus t copy.status fault).2, (row.updateWithStatus t copy.status fault).1,
            if (row.updateWithStatus t copy.status fault).1 then bill else none⟩
        else if ¬ copy.SnapshotEq t then
          ⟨t, (row.updateWithStatus t copy.status fault).2,
            (row.updateWithStatus t copy.status fault).1, bill⟩
        else ⟨t, row, false, bill⟩ := by
  cases answer with
  | fetchFailed | readFailed | parseFailed => exact .inl ⟨copy, rfl, .refl _⟩
  | parsed info data errorBody =>
    cases hr : resolveStatus info errorBody with
    | none =>
      refine .inl ⟨{ copy with data }, ?_, ⟨⟨rfl, rfl, rfl, rfl, rfl, rfl, rfl⟩, rfl, rfl⟩⟩
      simp only [updateVideoSingleTask, hr]
    | some info' =>
      cases ha : applyVideo url now { copy with data } info' with
      | error t' =>
        refine .inl ⟨t', ?_, (applyVideo_error ha).trans ⟨⟨rfl, rfl, rfl, rfl, rfl, rfl, rfl⟩, rfl, rfl⟩⟩
        simp only [updateVideoSingleTask, hr, ha]
      | ok r =>
        obtain ⟨t', bill⟩ := r
        refine .inr ⟨t', info', bill, data, ha, ?_⟩
        simp only [updateVideoSingleTask, hr, ha]

theorem video_guarded (url : String → String) (row copy : Task) (answer : VideoAnswer) (now : Int)
    (fault : Fault) : (updateVideoSingleTask url row copy answer now fault).Guarded row copy ∧
      (updateVideoSingleTask url row copy answer now fault).copy.SameSubmission copy := by
  rcases video_cases url row copy answer now fault with ⟨t, h, hs⟩ | ⟨t, info, bill, data, ha, h⟩
  · rw [h]
    exact ⟨Outcome.guarded_skip hs.toSameBilling, hs⟩
  · have hs : t.SameSubmission copy :=
      (applyVideo_ok ha).1.trans ⟨⟨rfl, rfl, rfl, rfl, rfl, rfl, rfl⟩, rfl, rfl⟩
    rw [h]
    by_cases ht : t.status.IsTerminal ∧ copy.status ≠ t.status
    · rw [if_pos ht]
      exact ⟨Outcome.guarded_update hs.toSameBilling rfl, hs⟩
    rw [if_neg ht]
    by_cases he : copy.SnapshotEq t
    · rw [if_neg (not_not.mpr he)]
      exact ⟨⟨hs.toSameBilling, nofun, fun _ => rfl⟩, hs⟩
    · rw [if_pos he]
      exact ⟨Outcome.guarded_update hs.toSameBilling rfl, hs⟩

theorem video_exclusive {answer : VideoAnswer} (hcopy : ¬ copy.status.IsTerminal) :
    (updateVideoSingleTask url row copy answer now fault).Exclusive := by
  rcases video_cases url row copy answer now fault with ⟨t, h, -⟩ | ⟨t, info, bill, data, ha, h⟩
  · rw [h]
    exact Outcome.exclusive_skip _ _
  obtain ⟨hs, hcases⟩ := applyVideo_ok ha
  rw [h]
  rcases hcases with ⟨hnt, rfl⟩ | ⟨hst, rfl⟩ | ⟨hst, hbill⟩
  · rw [if_neg fun hc => hnt hc.1]
    have hne : ∀ {won : Bool} {row' : Task}, Outcome.Exclusive ⟨t, row', won, none⟩ :=
      ⟨fun _ => rfl, nofun, nofun, fun _ hf => absurd (.inl hf) hnt⟩
    split_ifs <;> exact hne
  · have hterm : t.status.IsTerminal ∧ copy.status ≠ t.status := ⟨.inr hst, fun he => hcopy (he ▸ .inr hst)⟩
    rw [if_pos hterm]
    refine ⟨fun hw => by simp only at hw; simp [hw], fun hb => ?_, fun _ _ => hst, fun _ hf => ?_⟩
    · simp only at hb
      split_ifs at hb
      simp at hb
    · rw [hst] at hf
      cases hf
  · have hterm : t.status.IsTerminal ∧ copy.status ≠ t.status := ⟨.inl hst, fun he => hcopy (he ▸ .inl hst)⟩
    rw [if_pos hterm]
    refine ⟨fun hw => by simp only at hw; simp [hw], fun _ => hst, fun i hb => ?_, fun hw _ hn => ?_⟩
    · simp only [hbill] at hb
      split_ifs at hb
      simp at hb
    · have hn' : copy.quota ≠ 0 := hs.quota ▸ hn
      simp only at hw
      simp [hw, hbill, hn']

theorem applySuno_same (t : Task) (item : SunoItem) :
    (applySuno t item).SameBilling t ∧ (applySuno t item).quota = t.quota := by
  unfold applySuno
  dsimp only
  split_ifs <;> exact ⟨⟨rfl, rfl, rfl, rfl, rfl, rfl, rfl⟩, rfl⟩

theorem applySuno_status (t : Task) (item : SunoItem) : (applySuno t item).status =
      if sunoFailed t item then .failure else (mergeSuno t item).status := by
  unfold applySuno
  dsimp only
  split_ifs <;> rfl

theorem applySuno_failure_iff (t : Task) (item : SunoItem) :
    (applySuno t item).status = .failure ↔ sunoFailed t item = true := by
  rw [applySuno_status]
  constructor
  · intro h
    split_ifs at h with hf
    · exact hf
    · simp [sunoFailed, h]
  · intro h
    rw [if_pos h]

theorem suno_guarded (row copy : Task) (item : SunoItem) (fault : Fault) :
    (updateSunoTask row copy item fault).Guarded row copy ∧
      (updateSunoTask row copy item fault).copy.quota = copy.quota := by
  unfold updateSunoTask
  split_ifs with hn
  · exact ⟨Outcome.guarded_update (applySuno_same copy item).1 rfl, (applySuno_same copy item).2⟩
  · exact ⟨Outcome.guarded_skip (Task.SameBilling.refl _), rfl⟩

theorem suno_submitTime (row copy : Task) (item : SunoItem) (fault : Fault) :
    (updateSunoTask row copy item fault).copy.submitTime = copy.submitTime ∨ (item.submitTime ≠ 0 ∧
        (updateSunoTask row copy item fault).copy.submitTime = item.submitTime) := by
  unfold updateSunoTask
  split_ifs with hn
  · have hs : (applySuno copy item).submitTime = orOld item.submitTime copy.submitTime := by
      unfold applySuno
      dsimp only
      split_ifs <;> rfl
    change (applySuno copy item).submitTime = _ ∨ _ ∧ (applySuno copy item).submitTime = _
    rw [hs]
    unfold orOld
    by_cases h0 : item.submitTime = 0 <;> simp [h0]
  · exact .inl rfl

theorem suno_exclusive {item : SunoItem} (hcopy : ¬ copy.status.IsTerminal) :
    (updateSunoTask row copy item fault).Exclusive := by
  have hnf : copy.status ≠ .failure := fun h => hcopy (.inl h)
  unfold updateSunoTask
  split_ifs with hn
  · refine ⟨fun hw => ?_, fun hb => ?_, fun i hb => ?_, fun hw hf hq => ?_⟩
    · dsimp only at hw ⊢
      simp [hw]
    · dsimp only at hb ⊢
      split_ifs at hb with hc
      exact (applySuno_failure_iff copy item).mpr hc.2.1
    · dsimp only at hb
      split_ifs at hb
      simp at hb
    · dsimp only at hw hf hq ⊢
      rw [if_pos ⟨hw, (applySuno_failure_iff copy item).mp hf, hnf, hq⟩]
  · exact Outcome.exclusive_skip _ _

theorem applySweep_same (t : Task) (now : Int) (reason : String) :
    (applySweep t now reason).SameBilling t ∧ (applySweep t now reason).status = .failure := by
  unfold applySweep
  dsimp only
  split_ifs <;> exact ⟨⟨rfl, rfl, rfl, rfl, rfl, rfl, rfl⟩, rfl⟩

theorem applySweep_quota {reason : String} (h : ¬ t.IsLegacy) : (applySweep t now reason).quota = t.quota := by
  unfold applySweep
  rw [if_neg h]

theorem sweep_guarded (row copy : Task) (now : Int) (reason : String) (fault : Fault) :
    (sweepTask row copy now reason fault).Guarded row copy :=
  Outcome.guarded_update (applySweep_same copy now reason).1 rfl

theorem sweep_exclusive (row copy : Task) (now : Int) (reason : String) (fault : Fault) :
    (sweepTask row copy now reason fault).Exclusive := by
  have hst := (applySweep_same copy now reason).2
  unfold sweepTask
  refine ⟨fun hw => ?_, fun _ => hst, fun i hb => ?_, fun hw _ hq => ?_⟩
  · dsimp only at hw ⊢
    simp [hw]
  · dsimp only at hb
    split_ifs at hb
    simp at hb
  · dsimp only at hw hq ⊢
    have hnl : ¬ copy.IsLegacy := by
      intro hl
      refine hq ?_
      unfold applySweep
      rw [if_pos hl]
    rw [if_pos ⟨hw, hnl, hq⟩]

theorem withStatus_same (t : Task) (status : String) : (withStatus t status).SameSubmission t := by
  unfold withStatus
  split_ifs <;> exact ⟨⟨rfl, rfl, rfl, rfl, rfl, rfl, rfl⟩, rfl, rfl⟩

theorem withStatus_status (t : Task) (status : String) :
    (withStatus t status).status = if status ≠ "" then TaskStatus.ofText status else t.status := by
  unfold withStatus
  split_ifs <;> rfl

theorem withResultURL_same (buildProxyURL : String → String) (t : Task) (url : String) :
    (withResultURL buildProxyURL t url).SameSubmission t ∧ (withResultURL buildProxyURL t url).status = t.status := by
  unfold withResultURL
  split_ifs <;> exact ⟨⟨⟨rfl, rfl, rfl, rfl, rfl, rfl, rfl⟩, rfl, rfl⟩, rfl⟩

theorem applyRealtime_same (url : String → String) (t : Task) (info : TaskInfo) :
    (applyRealtime url t info).SameSubmission t ∧ (applyRealtime url t info).status =
        if info.status ≠ "" then TaskStatus.ofText info.status else t.status := by
  obtain ⟨hsame, hstatus⟩ :=
    withResultURL_same url (withProgress (withStatus t info.status) info.progress) info.url
  constructor
  · exact hsame.trans ((withProgress_same _ _).trans (withStatus_same t info.status))
  · rw [applyRealtime, hstatus, withProgress_status, withStatus_status]

theorem realtime_guarded (url : String → String) (row copy : Task) (answer : Option TaskInfo)
    (fault : Fault) : (tryRealtimeFetch url row copy answer fault).Guarded row copy ∧
      (tryRealtimeFetch url row copy answer fault).copy.SameSubmission copy ∧
      (tryRealtimeFetch url row copy answer fault).bill = none := by
  unfold tryRealtimeFetch
  cases answer with
  | none => exact ⟨Outcome.guarded_skip (.refl _), .refl _, rfl⟩
  | some info =>
    have hs := (applyRealtime_same url copy info).1
    dsimp only
    split_ifs
    · exact ⟨Outcome.guarded_skip hs.toSameBilling, hs, rfl⟩
    · exact ⟨Outcome.guarded_update hs.toSameBilling rfl, hs, rfl⟩

theorem realtime_failure {answer : Option TaskInfo} (hcopy : ¬ copy.status.IsTerminal)
    (h : (tryRealtimeFetch url row copy answer fault).copy.status = .failure) :
    ∃ info, answer = some info ∧ info.status = "FAILURE" := by
  unfold tryRealtimeFetch at h
  cases answer with
  | none => exact absurd (.inl h) hcopy
  | some info =>
    have hst : (applyRealtime url copy info).status = .failure := by
      dsimp only at h
      split_ifs at h <;> exact h
    rw [(applyRealtime_same url copy info).2] at hst
    split_ifs at hst with he
    · refine ⟨info, rfl, ?_⟩
      rw [← TaskStatus.text_ofText info.status, hst]
      rfl
    · exact absurd (.inl hst) hcopy

end WynthApi.Polling

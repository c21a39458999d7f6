import WynthApi.Polling.Pass

/-!
# Exactly when a polling pass touches the right tasks only

For each way to miss the condition of `Polling.Pass` there are responses that go to the wrong row: all fetches fail
but one, which finds a task of another channel in `taskM`.  With the results of `Polling.Pass` this gives the exact
condition, `pass_right_iff`.
-/

namespace WynthApi.Polling

open Store StepSys List AList

/-! ### Responses that go to the wrong row -/

variable {maps : PassMaps}

section Misdirected

variable {env : PassEnv} {tasks : List Task} {task : Task} {c : Int} {id : String}

/-- The workers one after the other, with the visit `f` for each channel and id. -/
def videoPlan (env : PassEnv) (maps : PassMaps) (f : Int × String → VideoVisit) : List VideoVisit :=
  (maps.taskChannelM.pairs.filter fun p => env.reachable p.1).map f

theorem videoPlan_schedule {f : Int × String → VideoVisit}
    (hc : ∀ p, (f p).channelId = p.1) (hid : ∀ p, (f p).taskId = p.2) :
    VideoSchedule env maps (videoPlan env maps f) := by
  refine ⟨fun v hv => ?_, fun c _ => ?_⟩
  · obtain ⟨p, hp, rfl⟩ := mem_map.mp hv
    rw [hc]
    exact Multimap.mem_keys_of_mem_get (Multimap.mem_pairs.mp (mem_filter.mp hp).1)
  · have hsnd : VideoVisit.taskId ∘ f = Prod.snd := funext hid
    have hfst : ((fun v : VideoVisit => decide (v.channelId = c)) ∘ f) = fun p => decide (p.1 = c) :=
      funext fun p => by simp [hc]
    rw [videoPlan, filter_map, map_map, hsnd, hfst, filter_filter]
    split_ifs with hreach
    · rw [← Multimap.filter_pairs]
      congr 1
      refine filter_congr fun p _ => ?_
      by_cases hp : p.1 = c
      · simp [hp, hreach]
      · simp [hp]
    · rw [map_eq_nil_iff, filter_eq_nil_iff]
      intro p _
      by_cases hp : p.1 = c
      · simp [hp, hreach]
      · simp [hp]

def failedVisit (row : Task) (p : Int × String) : VideoVisit := ⟨p.1, p.2, .fetchFailed, 0, row, none⟩

/-- A visit that finds the task queued, with new data, while nobody else has touched its row. -/
def queuedVisit (task : Task) (p : Int × String) : VideoVisit :=
  ⟨p.1, p.2, .parsed ⟨"QUEUED", "", "", "", 0⟩ (task.data ++ "x") .unrecognized, 0, task, none⟩

theorem queued_won (url : String → String) (task : Task) (p : Int × String) :
    (updateVideoSingleTask url (queuedVisit task p).row task (queuedVisit task p).answer
      (queuedVisit task p).now (queuedVisit task p).fault).won = true := by
  have hdata : task.data ≠ task.data ++ "x" := by
    intro h
    have hlen := congrArg String.length h
    simp at hlen
  have hstatus : TaskStatus.ofText "QUEUED" = .queued := by decide
  simp [queuedVisit, updateVideoSingleTask, resolveStatus, applyVideo, hstatus, withProgress, Task.updateWithStatus,
    Cas.write, TaskStatus.IsTerminal, Task.SnapshotEq, hdata]

variable {s : PassState}

theorem videoVisit_failed {v : VideoVisit} (hv : v.answer = .fetchFailed)
    (h : s.taskM.lookup id = some task) : (videoVisit env s v).taskM.lookup id = some task := by
  unfold videoVisit
  cases hlookup : s.taskM.lookup v.taskId with
  | none => exact h
  | some t =>
    rw [hv]
    change (s.taskM.insert v.taskId t).lookup id = some task
    by_cases heq : id = v.taskId
    · rw [heq, lookup_insert, ← hlookup, ← heq]
      exact h
    · rw [lookup_insert_ne heq]
      exact h

theorem mem_trace_of_visit {V : Type} {visit : PassState → V → PassState} {Q : V → Prop} {plan : List V} {v : V}
    {event : Event} (hextends : ∀ s w, Extends s (visit s w))
    (hkeeps : ∀ s w, s.taskM.lookup id = some task → Q w → (visit s w).taskM.lookup id = some task)
    (hhits : ∀ s, s.taskM.lookup id = some task → event ∈ (visit s v).trace) (hv : v ∈ plan)
    (hquiet : ∀ w ∈ plan, w ≠ v → Q w) (hs : s.taskM.lookup id = some task) : event ∈ (run visit s plan).trace := by
  obtain ⟨pre, post, rfl, hfirst⟩ := eq_append_cons_of_mem hv
  have hpre : ∀ w ∈ pre, Q w := by
    intro w hw
    refine hquiet w (mem_append_left _ hw) ?_
    rintro rfl
    exact hfirst hw
  have hbefore := run_inv (I := fun s : PassState => s.taskM.lookup id = some task) hkeeps hs (along_of_forall hpre _)
  rw [run_append, run_cons]
  exact extends_run hextends _ post (hhits _ hbefore)

theorem video_misdirected (hlookup : (regroup tasks).taskM.lookup id = some task)
    (hasks : Asks tasks c id) (hreach : env.reachable c = true) :
    ∃ visits, VideoSchedule env (regroup tasks) visits ∧ .update c task.id task.channelId ∈
      (run (videoVisit env) ⟨(regroup tasks).taskM, []⟩ visits).trace := by
  -- every other fetch fails
  let f : Int × String → VideoVisit := fun p =>
    if p = (c, id) then queuedVisit task p else failedVisit task p
  have hf : ∀ p, (f p).channelId = p.1 ∧ (f p).taskId = p.2 := by
    intro p
    by_cases hp : p = (c, id)
    · simp [f, hp, queuedVisit]
    · simp [f, hp, failedVisit]
  have hmem : f (c, id) ∈ videoPlan env (regroup tasks) f :=
    mem_map_of_mem (mem_filter.mpr ⟨Multimap.mem_pairs.mpr (mem_taskChannelM.mpr hasks), hreach⟩)
  refine ⟨_, videoPlan_schedule (fun p => (hf p).1) (fun p => (hf p).2),
    mem_trace_of_visit (Q := fun v => v.answer = .fetchFailed) videoVisit_extends
      (fun s v hs hv => videoVisit_failed hv hs) (fun s hs => ?_) hmem (fun v hv hne => ?_) hlookup⟩
  · rw [show f (c, id) = queuedVisit task (c, id) by simp [f]]
    unfold videoVisit
    rw [show s.taskM.lookup (queuedVisit task (c, id)).taskId = some task from hs]
    refine mem_append_right _ ?_
    rw [if_pos (queued_won env.buildProxyURL task (c, id))]
    exact mem_singleton.mpr rfl
  · obtain ⟨p, -, rfl⟩ := mem_map.mp hv
    have hp : p ≠ (c, id) := by
      rintro rfl
      exact hne rfl
    simp [f, hp, failedVisit]

def sunoPlan (env : PassEnv) (maps : PassMaps) (f : Int → SunoVisit) : List SunoVisit :=
  (maps.taskChannelM.keys.filter env.reachable).map f

theorem sunoPlan_schedule {f : Int → SunoVisit} (hc : ∀ c, (f c).channelId = c) :
    SunoSchedule env maps (sunoPlan env maps f) := by
  have hchannel : SunoVisit.channelId ∘ f = fun c => c := funext hc
  unfold SunoSchedule sunoPlan
  rw [map_map, hchannel, map_id']

/-- One item for `task` that changes its submission time, while nobody else has touched its row. -/
def submittedReply (task : Task) (id : String) : SunoReply :=
  ⟨id, ⟨"", "", task.submitTime + 1, 0, 0, ""⟩, task, none⟩

theorem submitted_won (task : Task) (id : String) :
    (updateSunoTask (submittedReply task id).row task (submittedReply task id).item
      (submittedReply task id).fault).won = true := by
  simp [updateSunoTask, taskNeedsUpdate, submittedReply, Task.updateWithStatus, Cas.write]

theorem suno_misdirected (hlookup : (regroup tasks).taskM.lookup id = some task)
    (hc : c ∈ (regroup tasks).taskChannelM.keys) (hreach : env.reachable c = true) :
    ∃ visits, SunoSchedule env (regroup tasks) visits ∧ .update c task.id task.channelId ∈
      (run (sunoVisit (regroup tasks)) ⟨(regroup tasks).taskM, []⟩ visits).trace := by
  -- every other response is empty
  let f : Int → SunoVisit := fun c' => ⟨c', if c' = c then [submittedReply task id] else []⟩
  have hmem : f c ∈ sunoPlan env (regroup tasks) f := mem_map_of_mem (mem_filter.mpr ⟨hc, hreach⟩)
  refine ⟨_, sunoPlan_schedule (fun _ => rfl), mem_trace_of_visit (Q := fun v => v.replies = [])
    (fun s v => extends_trans _ _ _ (extends_ask s _ _) (sunoVisit_extends _ s v)) (fun s v hs hv => ?_)
    (fun s hs => ?_) hmem (fun v hv hne => ?_) hlookup⟩
  · unfold sunoVisit
    rw [hv]
    exact hs
  · unfold sunoVisit
    rw [show (f c).replies = [submittedReply task id] by simp [f], run_cons, run_nil]
    unfold sunoReply
    rw [show (s.ask (f c).channelId ((regroup tasks).taskChannelM.get (f c).channelId)).taskM.lookup
      (submittedReply task id).taskID = some task from hs]
    refine mem_append_right _ ?_
    rw [if_pos (submitted_won task id)]
    exact mem_singleton.mpr rfl
  · obtain ⟨c', -, rfl⟩ := mem_map.mp hv
    have hc' : c' ≠ c := by
      rintro rfl
      exact hne rfl
    simp [f, hc']

end Misdirected

/-! ### The condition is necessary -/

section Necessary

variable {env : PassEnv} {tasks : List Task}

section

variable (h : ∀ visits, VideoSchedule env (regroup tasks) visits →
  PassRight tasks (run (videoVisit env) ⟨(regroup tasks).taskM, []⟩ visits).trace)

include h

theorem video_needs_reachable : AllReachable env tasks := by
  intro t hmem hid
  have hsched : VideoSchedule env (regroup tasks) (videoPlan env (regroup tasks) (failedVisit t)) :=
    videoPlan_schedule (fun _ => rfl) (fun _ => rfl)
  have hinv := video_run_inv (videoSchedule_proper hsched) (passInv_start env tasks)
  exact (hinv.queries _ _ ((h _ hsched).queried t hmem hid)).1

theorem video_needs_one_channel (hreach : AllReachable env tasks) : OneChannelPerId tasks := by
  intro t hmem t' hmem' hid heq
  by_contra hne
  have hpresent := mem_taskM hmem hid
  rw [← lookup_isSome, Option.isSome_iff_exists] at hpresent
  obtain ⟨task, hlookup⟩ := hpresent
  have hwrong : ∀ u ∈ tasks, u.getUpstreamTaskID = t.getUpstreamTaskID → u.channelId = task.channelId := by
    intro u hu huid
    obtain ⟨visits, hsched, hupdate⟩ := video_misdirected hlookup ⟨u, hu, rfl, huid, hid⟩ (hreach u hu (huid ▸ hid))
    exact ((h visits hsched).updates _ _ _ hupdate).symm
  exact hne ((hwrong t hmem rfl).trans (hwrong t' hmem' heq.symm).symm)

end

section

variable (h : ∀ visits, SunoSchedule env (regroup tasks) visits →
  PassRight tasks (run (sunoVisit (regroup tasks)) ⟨(regroup tasks).taskM, []⟩ visits).trace)

include h

theorem suno_needs_reachable : AllReachable env tasks := by
  intro t hmem hid
  have hsched : SunoSchedule env (regroup tasks) (sunoPlan env (regroup tasks) (SunoVisit.mk · [])) :=
    sunoPlan_schedule (fun _ => rfl)
  have hinv := suno_run_inv (sunoSchedule_proper hsched) (passInv_start env tasks)
  exact (hinv.queries _ _ ((h _ hsched).queried t hmem hid)).1

theorem suno_needs_one_channel (hreach : AllReachable env tasks) : OneChannel tasks := by
  intro t hmem t' hmem' hid hid'
  have hpresent := mem_taskM hmem hid
  rw [← lookup_isSome, Option.isSome_iff_exists] at hpresent
  obtain ⟨task, hlookup⟩ := hpresent
  have hwrong : ∀ u ∈ tasks, u.getUpstreamTaskID ≠ "" → u.channelId = task.channelId := by
    intro u hu huid
    obtain ⟨visits, hsched, hupdate⟩ := suno_misdirected hlookup
      (mem_channels.mpr ⟨u, hu, rfl, huid⟩) (hreach u hu huid)
    exact ((h visits hsched).updates _ _ _ hupdate).symm
  exact (hwrong t hmem hid).trans (hwrong t' hmem' hid').symm

end

end Necessary

/-! ### The whole pass -/

section Whole

variable {env : PassEnv} {platform : TaskPlatform} {tasks : List Task}

theorem passRight_append {bulk trace : List Event} (hbulk : ∀ e ∈ bulk, ∃ rowIds reason, e = .bulkFail rowIds reason) :
    PassRight tasks (bulk ++ trace) ↔ PassRight tasks trace := by
  have hmem : ∀ e : Event, (∀ rowIds reason, e ≠ .bulkFail rowIds reason) → (e ∈ bulk ++ trace ↔ e ∈ trace) := by
    intro e he
    refine mem_append.trans ⟨fun h => ?_, Or.inr⟩
    rcases h with h | h
    · obtain ⟨rowIds, reason, heq⟩ := hbulk e h
      exact absurd heq (he rowIds reason)
    · exact h
  have hquery : ∀ c id, .query c id ∈ bulk ++ trace ↔ .query c id ∈ trace := fun c id => hmem _ (by simp)
  have hupdate : ∀ c i rc, .update c i rc ∈ bulk ++ trace ↔ .update c i rc ∈ trace :=
    fun c i rc => hmem _ (by simp)
  constructor
  · rintro ⟨h₁, h₂, h₃⟩
    exact ⟨fun t hmem hid => (hquery _ _).mp (h₁ t hmem hid), fun c id hq => h₂ c id ((hquery c id).mpr hq),
      fun c i rc hu => h₃ c i rc ((hupdate c i rc).mpr hu)⟩
  · rintro ⟨h₁, h₂, h₃⟩
    exact ⟨fun t hmem hid => (hquery _ _).mpr (h₁ t hmem hid), fun c id hq => h₂ c id ((hquery c id).mp hq),
      fun c i rc hu => h₃ c i rc ((hupdate c i rc).mp hu)⟩

theorem missingChannels_bulk {reason : Int → String} :
    ∀ e ∈ missingChannels env maps reason, ∃ rowIds why, e = .bulkFail rowIds why := by
  intro e he
  obtain ⟨c, -, rfl⟩ := mem_map.mp he
  exact ⟨_, _, rfl⟩

theorem pollPlatform_right {answers : Answers} : PassRight tasks (pollPlatform env platform tasks answers) ↔
      PassRight tasks (if (regroup tasks).taskChannelM.entries.isEmpty then []
        else dispatchPlatformUpdate env platform (regroup tasks) answers) := by
  refine passRight_append fun e he => ?_
  split_ifs at he
  · cases he
  · exact ⟨_, _, mem_singleton.mp he⟩

theorem passRight_nil (h : ∀ t ∈ tasks, t.getUpstreamTaskID = "") : PassRight tasks [] :=
  ⟨fun t hmem hid => absurd (h t hmem) hid, fun _ _ hq => absurd hq not_mem_nil,
    fun _ _ _ hu => absurd hu not_mem_nil⟩

theorem no_ids_of_isEmpty (h : (regroup tasks).taskChannelM.entries.isEmpty = true) :
    ∀ t ∈ tasks, t.getUpstreamTaskID = "" := by
  intro t hmem
  by_contra hid
  have hc : t.channelId ∈ (regroup tasks).taskChannelM.keys := mem_channels.mpr ⟨t, hmem, rfl, hid⟩
  rw [AList.keys, isEmpty_iff.mp h] at hc
  cases hc

theorem passSafe_of_no_ids (h : ∀ t ∈ tasks, t.getUpstreamTaskID = "") : PassSafe env platform tasks := by
  have hreach : AllReachable env tasks := fun t hmem hid => absurd (h t hmem) hid
  cases platform with
  | midjourney => exact h
  | suno | video => exact ⟨hreach, fun t hmem _ _ hid => absurd (h t hmem) hid⟩

/-- **Pass**: for every answer a pass asks for every task with an id where it belongs, and updates rows of
the answering channel only, exactly if all channels are reachable and, for video, no id is used by two
channels, for Suno, there is one channel. -/
theorem pass_right_iff (env : PassEnv) (platform : TaskPlatform) (tasks : List Task) :
    (∀ answers : Answers, answers.Valid env platform (regroup tasks) →
      PassRight tasks (pollPlatform env platform tasks answers)) ↔ PassSafe env platform tasks := by
  simp only [pollPlatform_right]
  by_cases hnone : (regroup tasks).taskChannelM.entries.isEmpty = true
  · have hids := no_ids_of_isEmpty hnone
    simp only [if_pos hnone]
    exact ⟨fun _ => passSafe_of_no_ids hids, fun _ _ _ => passRight_nil hids⟩
  simp only [if_neg hnone]
  cases platform with
  | midjourney =>
    constructor
    · intro h t hmem
      by_contra hid
      cases (h ⟨[], []⟩ trivial).queried t hmem hid
    · intro hids _ _
      exact passRight_nil hids
  | suno =>
    constructor
    · intro h
      have hruns : ∀ visits, SunoSchedule env (regroup tasks) visits → PassRight tasks
          (run (sunoVisit (regroup tasks)) ⟨(regroup tasks).taskM, []⟩ visits).trace :=
        fun visits hsched => (passRight_append missingChannels_bulk).mp (h ⟨[], visits⟩ hsched)
      have hreach := suno_needs_reachable hruns
      exact ⟨hreach, suno_needs_one_channel hruns hreach⟩
    · rintro ⟨hreach, hone⟩ answers hsched
      refine (passRight_append missingChannels_bulk).mpr (updateSunoTasks_right hreach hsched ?_)
      intro v hv r _ t hmem hid hne
      obtain ⟨-, t', hmem', hc, hid'⟩ := sunoSchedule_proper hsched v hv
      rw [← hc]
      exact hone t hmem t' hmem' (hid ▸ hne) hid'
  | video name =>
    constructor
    · intro h
      have hruns : ∀ visits, VideoSchedule env (regroup tasks) visits → PassRight tasks
          (run (videoVisit env) ⟨(regroup tasks).taskM, []⟩ visits).trace :=
        fun visits hsched => (passRight_append missingChannels_bulk).mp (h ⟨visits, []⟩ hsched)
      have hreach := video_needs_reachable hruns
      exact ⟨hreach, video_needs_one_channel hruns hreach⟩
    · rintro ⟨hreach, hone⟩ answers hsched
      exact (passRight_append missingChannels_bulk).mpr (updateVideoTasks_right hreach hone hsched)

end Whole

/-! ### Two channels -/

def passTask (id channelId : Int) (upstreamID : String) : Task :=
  { id, taskID := "task_" ++ upstreamID, platform := .video "24", userId := 1, group := "default"
    channelId, quota := 100, action := "generate", status := .submitted, failReason := ""
    submitTime := 1780000000, startTime := 0, finishTime := 0, progress := "10%"
    properties := ⟨"m", "m"⟩, privateData := ⟨"", upstreamID, "", some .wallet, 0, 2, none⟩, data := "" }

def foundEnv : PassEnv := ⟨fun taskID => taskID, fun _ => true, true⟩

/-- Channels `3` and `4` each have a task of their own id. -/
theorem pass_right_two_channels :
    ∀ answers : Answers, answers.Valid foundEnv (.video "24") (regroup [passTask 1 3 "u", passTask 2 4 "v"]) →
      PassRight [passTask 1 3 "u", passTask 2 4 "v"]
        (pollPlatform foundEnv (.video "24") [passTask 1 3 "u", passTask 2 4 "v"] answers) := by
  have hsafe : PassSafe foundEnv (.video "24") [passTask 1 3 "u", passTask 2 4 "v"] :=
    ⟨by decide, by decide⟩
  exact (pass_right_iff foundEnv (.video "24") [passTask 1 3 "u", passTask 2 4 "v"]).mpr hsafe

def crossedAnswers : Answers :=
  { video :=
      [⟨3, "u", .parsed ⟨"SUCCESS", "", "", "", 0⟩ "done" .unrecognized, 5, passTask 2 4 "u", none⟩,
        ⟨4, "u", .fetchFailed, 5, passTask 2 4 "u", none⟩]
    suno := [] }

/-- Both channels have a task with the id `u`: the response of channel `3` finishes row `2`, which belongs
to channel `4`, and row `1` is never updated. -/
theorem pass_updates_other_channel :
    let tasks := [passTask 1 3 "u", passTask 2 4 "u"]
    crossedAnswers.Valid foundEnv (.video "24") (regroup tasks) ∧
      pollPlatform foundEnv (.video "24") tasks crossedAnswers =
        [.query 3 "u", .update 3 2 4, .query 4 "u"] ∧
      ¬ PassRight tasks (pollPlatform foundEnv (.video "24") tasks crossedAnswers) := by
  have htrace : pollPlatform foundEnv (.video "24") [passTask 1 3 "u", passTask 2 4 "u"] crossedAnswers =
      [.query 3 "u", .update 3 2 4, .query 4 "u"] := by decide
  have hvalid : VideoSchedule foundEnv (regroup [passTask 1 3 "u", passTask 2 4 "u"])
      crossedAnswers.video := by decide
  refine ⟨hvalid, htrace, fun hright => ?_⟩
  have hchannel := hright.updates 3 2 4 (by rw [htrace]; decide)
  omega

end WynthApi.Polling

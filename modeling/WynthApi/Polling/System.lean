import WynthApi.Lib.Run
import WynthApi.Polling.Update

/-!
# One task row and all who work on it

Any number of pollers, sweepers and users who fetch share one row.  A handler reads it into its copy, works on that
any time later, and goes on to bill in two steps (`money`, `write`).  A poller may work on one copy several times: one
Suno response may name a task twice, and tasks with one upstream id share a copy.

`invoked` and `movers` are ghosts: who called a billing function, and whose guarded update took the
row from a status that is not terminal to one that is.
-/

namespace WynthApi.Polling

open Store StepSys Option

inductive Role where
  | poller
  | sweeper
  | user
  deriving DecidableEq

/-- `ready`: read and not worked on; `worked`: nothing pending; `billing`: a billing function has been called;
`writing`: its money has moved and the quota column is still to be written. -/
inductive Phase where
  | ready
  | worked
  | billing (bill : Bill)
  | writing (quota : Int)
  deriving DecidableEq

def Phase.Pending : Phase → Prop
  | .billing _ => True
  | .writing _ => True
  | _ => False

structure Handler where
  role : Role
  copy : Task
  phase : Phase

/-- The site's settings: the proxy URL of a task, and the quota `RecalculateTaskQuotaByTokens`
settles for a number of tokens (`none` where it returns early). -/
structure Env where
  buildProxyURL : String → String
  recalculateByTokens : Task → Int → Option Int

structure Sys where
  row : Task
  db : DB
  handlers : ℕ → Option Handler
  (invoked movers : List ℕ)

inductive Work where
  | video (answer : VideoAnswer) (now : Int)
  | suno (item : SunoItem)
  | sweep (now : Int) (reason : String)
  | realtime (answer : Option TaskInfo)

/-- `adaptorQuota` is the result of `AdjustBillingOnComplete`. -/
inductive Action where
  | read (handler : ℕ) (role : Role) (cutoff : Int)
  | work (handler : ℕ) (work : Work) (fault : Fault)
  | bulkFail (handler : ℕ) (failReason : Option String)
  | money (handler : ℕ) (adaptorQuota : Int) (fault : Fault) (token : TokenAnswer)
  | write (handler : ℕ) (fault : Fault)
  | finish (handler : ℕ)
  | others (db : DB)

def Readable (row : Task) (cutoff : Int) : Role → Prop
  | .poller => row.Unfinished
  | .sweeper => row.TimedOut cutoff
  | .user => True

instance (row : Task) (cutoff : Int) (role : Role) : Decidable (Readable row cutoff role) := by
  unfold Readable
  split <;> infer_instance

def Handler.Polls (hd : Handler) : Prop :=
  hd.role = .poller ∧ (hd.phase = .ready ∨ hd.phase = .worked)
  deriving Decidable

def TaskPlatform.isVideo : TaskPlatform → Bool
  | .video _ => true
  | _ => false

variable (env : Env)

def work (row : Task) (hd : Handler) (fault : Fault) : Work → Option Outcome
  | .video answer now =>
    if hd.Polls ∧ hd.copy.platform.isVideo = true ∧ hd.copy.getUpstreamTaskID ≠ "" then
      some (updateVideoSingleTask env.buildProxyURL row hd.copy answer now fault)
    else none
  | .suno item =>
    if hd.Polls ∧ hd.copy.platform = .suno ∧ hd.copy.getUpstreamTaskID ≠ "" then
      some (updateSunoTask row hd.copy item fault)
    else none
  | .sweep now reason =>
    if hd.role = .sweeper ∧ hd.phase = .ready then some (sweepTask row hd.copy now reason fault)
    else none
  | .realtime answer =>
    if hd.role = .user ∧ hd.phase = .ready then
      some (tryRealtimeFetch env.buildProxyURL row hd.copy answer fault)
    else none

def phaseOf : Option Bill → Phase
  | none => .worked
  | some bill => .billing bill

def Sys.setHandler (s : Sys) (h : ℕ) (hd : Option Handler) : Sys :=
  { s with handlers := Function.update s.handlers h hd }

def Sys.apply (s : Sys) (h : ℕ) (hd : Handler) (o : Outcome) : Sys :=
  { s with
    row := o.row
    handlers := Function.update s.handlers h (some ⟨hd.role, o.copy, phaseOf o.bill⟩)
    invoked := if o.bill.isSome then s.invoked ++ [h] else s.invoked
    movers := if o.won = true ∧ ¬ s.row.status.IsTerminal ∧ o.row.status.IsTerminal
      then s.movers ++ [h] else s.movers }

/-- `settleTaskBillingOnComplete`: the quota to settle for, if any. -/
def settleTarget (t : Task) (info : TaskInfo) (adaptorQuota : Int) : Option Int :=
  if (t.privateData.billingContext.any (·.perCallBilling)) = true then none
  else if 0 < adaptorQuota then some adaptorQuota
  else if 0 < info.totalTokens then env.recalculateByTokens t info.totalTokens
  else none

def billMoney (db : DB) (t : Task) (adaptorQuota : Int) (fault : Fault)
    (token : TokenAnswer) : Bill → Option (DB × Int)
  | .refund => refundMoney db t fault token
  | .settle info => (settleTarget env t info adaptorQuota).bind fun actual =>
      recalculateMoney db t actual fault token

/-- May the pass fail this row in bulk: without a reason if it has no upstream id, with one if its
channel is missing.  Midjourney rows are never dispatched to a channel. -/
def BulkFails (hd : Handler) (failReason : Option String) : Prop :=
  hd.Polls ∧ (failReason = none ↔ hd.copy.getUpstreamTaskID = "") ∧
    (failReason = none ∨ hd.copy.platform ≠ .midjourney)
  deriving Decidable

def step (s : Sys) : Action → Sys
  | .read h role cutoff =>
    match s.handlers h with
    | some _ => s
    | none =>
      if Readable s.row cutoff role then s.setHandler h (some ⟨role, s.row, .ready⟩) else s
  | .work h w fault =>
    match s.handlers h with
    | none => s
    | some hd =>
      match work env s.row hd fault w with
      | none => s
      | some o => s.apply h hd o
  | .bulkFail h failReason =>
    match s.handlers h with
    | none => s
    | some hd => if BulkFails hd failReason then { s with row := s.row.bulkFail failReason } else s
  | .money h adaptorQuota fault token =>
    match s.handlers h with
    | some ⟨role, copy, .billing bill⟩ =>
      match billMoney env s.db copy adaptorQuota fault token bill with
      | none => s.setHandler h (some ⟨role, copy, .worked⟩)
      | some (db, quota) =>
        { s with db }.setHandler h (some ⟨role, { copy with quota }, .writing quota⟩)
    | _ => s
  | .write h fault =>
    match s.handlers h with
    | some ⟨role, copy, .writing quota⟩ =>
      match fault with
      | none => { s with row := s.row.updateQuota quota }.setHandler h (some ⟨role, copy, .worked⟩)
      | some _ => s.setHandler h (some ⟨role, copy, .worked⟩)
    | _ => s
  | .finish h =>
    match s.handlers h with
    | some ⟨_, _, .ready⟩ => s.setHandler h none
    | some ⟨_, _, .worked⟩ => s.setHandler h none
    | _ => s
  | .others db => { s with db := { db with journal := s.db.journal } }

def Sys.start (row : Task) (db : DB) : Sys := ⟨row, db, fun _ => none, [], []⟩

/-! ### What a handler's work can be -/

section Work

variable {env : Env} {row : Task} {hd : Handler} {fault : Fault} {w : Work} {o : Outcome}
  (h : work env row hd fault w = some o)

include h in
theorem work_guarded : o.Guarded row hd.copy := by
  cases w with simp only [work, ite_none_right_eq_some, some.injEq] at h
  | video answer now => exact h.2 ▸ (video_guarded _ _ _ _ _ _).1
  | suno item => exact h.2 ▸ (suno_guarded _ _ _ _).1
  | sweep now reason => exact h.2 ▸ sweep_guarded _ _ _ _ _
  | realtime answer => exact h.2 ▸ (realtime_guarded _ _ _ _ _).1

include h in
theorem work_phase : hd.phase = .ready ∨ hd.phase = .worked := by
  cases w with simp only [work, ite_none_right_eq_some] at h
  | video | suno => exact h.1.1.2
  | sweep | realtime => exact .inl h.1.2

def Work.Bills : Work → Prop
  | .realtime _ => False
  | _ => True

instance (w : Work) : Decidable w.Bills := by
  unfold Work.Bills
  split <;> infer_instance

theorem work_exclusive (hcopy : ¬ hd.copy.status.IsTerminal) (hw : w.Bills)
    (h : work env row hd fault w = some o) : o.Exclusive := by
  cases w with
  | video answer now =>
    simp only [work, ite_none_right_eq_some, some.injEq] at h
    exact h.2 ▸ video_exclusive hcopy
  | suno item =>
    simp only [work, ite_none_right_eq_some, some.injEq] at h
    exact h.2 ▸ suno_exclusive hcopy
  | sweep now reason =>
    simp only [work, ite_none_right_eq_some, some.injEq] at h
    exact h.2 ▸ sweep_exclusive _ _ _ _ _
  | realtime answer => exact absurd hw id

theorem work_realtime {answer : Option TaskInfo}
    (h : work env row hd fault (.realtime answer) = some o) : o.bill = none := by
  simp only [work, ite_none_right_eq_some, some.injEq] at h
  exact h.2 ▸ (realtime_guarded _ _ _ _ _).2.2

theorem work_bill {b : Bill} (hcopy : ¬ hd.copy.status.IsTerminal)
    (h : work env row hd fault w = some o) (hb : o.bill = some b) : o.won = true ∧ o.copy.status.IsTerminal := by
  have hbills : w.Bills := by
    cases w with
    | realtime answer =>
      rw [work_realtime h] at hb
      cases hb
    | video | suno | sweep => trivial
  have hx := work_exclusive hcopy hbills h
  constructor
  · by_contra hw
    rw [hx.lost (by simpa using hw)] at hb
    cases hb
  · cases b with
    | refund => exact .inl (hx.refund hb)
    | settle info => exact .inr (hx.settle info hb)

include h in
theorem work_quota (hlegacy : hd.copy.IsLegacy →
    hd.role = .sweeper → hd.copy.quota = 0) : o.copy.quota = hd.copy.quota := by
  cases w with simp only [work, ite_none_right_eq_some, some.injEq] at h
  | video answer now => exact h.2 ▸ (video_guarded _ _ _ _ _ _).2.quota
  | suno item => exact h.2 ▸ (suno_guarded _ _ _ _).2
  | sweep now reason =>
    rw [← h.2]
    change (applySweep hd.copy now reason).quota = hd.copy.quota
    by_cases hl : hd.copy.IsLegacy
    · rw [hlegacy hl h.1.1]
      simp only [applySweep, if_pos hl]
    · exact applySweep_quota hl
  | realtime answer => exact h.2 ▸ (realtime_guarded _ _ _ _ _).2.1.quota

include h in
theorem work_submitTime : o.copy.submitTime = hd.copy.submitTime ∨
      ∃ item, w = .suno item ∧ item.submitTime ≠ 0 ∧ o.copy.submitTime = item.submitTime := by
  cases w with simp only [work, ite_none_right_eq_some, some.injEq] at h
  | video answer now => exact .inl (h.2 ▸ (video_guarded _ _ _ _ _ _).2.submitTime)
  | suno item =>
    rw [← h.2]
    rcases suno_submitTime row hd.copy item fault with hs | ⟨h0, hs⟩
    · exact .inl hs
    · exact .inr ⟨item, rfl, h0, hs⟩
  | sweep now reason =>
    refine .inl (h.2 ▸ ?_)
    change (applySweep hd.copy now reason).submitTime = hd.copy.submitTime
    unfold applySweep
    dsimp only
    split_ifs <;> rfl
  | realtime answer => exact .inl (h.2 ▸ (realtime_guarded _ _ _ _ _).2.1.submitTime)

end Work

variable (s : Sys) (h : ℕ)

def Sys.handlerAll (p : Handler → Bool) : Prop := (s.handlers h).all p = true
  deriving Decidable

theorem Sys.handlerAll.of_eq {s : Sys} {h : ℕ} {p : Handler → Bool} {hd : Handler}
    (hall : s.handlerAll h p) (hh : s.handlers h = some hd) : p hd = true := by
  simpa [Sys.handlerAll, hh] using hall

/-! ### Who is billing -/

def Quiet : Prop := Cas.Idle (fun hd : Handler => hd.phase.Pending) s.handlers

def Alone : Prop := Cas.Solo (fun hd : Handler => hd.phase.Pending) s.handlers h

theorem not_pending_of_idle {p : Phase} (hp : p = .ready ∨ p = .worked) : ¬ p.Pending := by
  rcases hp with rfl | rfl <;> exact id

/-- A copy of the row `row₀`, which carries the charge `q` as long as it is live. -/
structure Carries (row₀ : Task) (q : Int) (t : Task) : Prop where
  same : t.SameBilling row₀
  charge : ¬ t.status.IsTerminal → t.quota = q

theorem Carries.withQuota {row₀ t : Task} {q : Int} (h : Carries row₀ q t)
    (hterm : t.status.IsTerminal) (quota : Int) : Carries row₀ q { t with quota } :=
  ⟨h.same.withQuota quota, fun hl => absurd hterm hl⟩

theorem work_carries {env : Env} {row₀ row : Task} {q : Int} {hd : Handler} {fault : Fault} {w : Work}
    {o : Outcome} (hcopy : Carries row₀ q hd.copy) (hlive : ¬ hd.copy.status.IsTerminal)
    (hlegacy : hd.copy.IsLegacy → hd.role = .sweeper → hd.copy.quota = 0)
    (ho : work env row hd fault w = some o) : Carries row₀ q o.copy ∧ o.copy.quota = q := by
  have hquota : o.copy.quota = q := by rw [work_quota ho hlegacy, hcopy.charge hlive]
  exact ⟨⟨(work_guarded ho).same.trans hcopy.same, fun _ => hquota⟩, hquota⟩

/-! ### What a step can do -/

inductive Stepped (env : Env) (s : Sys) : Action → Sys → Prop
  | idle (a : Action) : Stepped env s a s
  | read {h : ℕ} {role : Role} {cutoff : Int} (hfree : s.handlers h = none)
      (hread : Readable s.row cutoff role) :
      Stepped env s (.read h role cutoff) (s.setHandler h (some ⟨role, s.row, .ready⟩))
  | work {h : ℕ} {hd : Handler} {w : Work} {fault : Fault} {o : Outcome}
      (hh : s.handlers h = some hd) (ho : work env s.row hd fault w = some o) :
      Stepped env s (.work h w fault) (s.apply h hd o)
  | bulk {h : ℕ} {hd : Handler} {failReason : Option String} (hh : s.handlers h = some hd)
      (hb : BulkFails hd failReason) :
      Stepped env s (.bulkFail h failReason) { s with row := s.row.bulkFail failReason }
  | refused {h : ℕ} {role : Role} {copy : Task} {bill : Bill} {adaptorQuota : Int} {fault : Fault}
      {token : TokenAnswer} (hh : s.handlers h = some ⟨role, copy, .billing bill⟩)
      (hm : billMoney env s.db copy adaptorQuota fault token bill = none) :
      Stepped env s (.money h adaptorQuota fault token)
        (s.setHandler h (some ⟨role, copy, .worked⟩))
  | paid {h : ℕ} {role : Role} {copy : Task} {bill : Bill} {adaptorQuota : Int} {fault : Fault}
      {token : TokenAnswer} {db : DB} {quota : Int}
      (hh : s.handlers h = some ⟨role, copy, .billing bill⟩)
      (hm : billMoney env s.db copy adaptorQuota fault token bill = some (db, quota)) :
      Stepped env s (.money h adaptorQuota fault token)
        ({ s with db }.setHandler h
          (some ⟨role, { copy with quota }, .writing quota⟩))
  | written {h : ℕ} {role : Role} {copy : Task} {quota : Int}
      (hh : s.handlers h = some ⟨role, copy, .writing quota⟩) :
      Stepped env s (.write h none)
        ({ s with row := s.row.updateQuota quota }.setHandler h (some ⟨role, copy, .worked⟩))
  | unwritten {h : ℕ} {role : Role} {copy : Task} {quota : Int} {e : String}
      (hh : s.handlers h = some ⟨role, copy, .writing quota⟩) :
      Stepped env s (.write h (some e)) (s.setHandler h (some ⟨role, copy, .worked⟩))
  | finish {h : ℕ} {hd : Handler} (hh : s.handlers h = some hd)
      (hp : hd.phase = .ready ∨ hd.phase = .worked) :
      Stepped env s (.finish h) (s.setHandler h none)
  | others (db : DB) :
      Stepped env s (.others db) { s with db := { db with journal := s.db.journal } }

theorem stepped (s : Sys) (a : Action) : Stepped env s a (step env s a) := by
  cases a with
  | read h role cutoff =>
    simp only [step]
    cases hh : s.handlers h with
    | some hd => exact .idle _
    | none =>
      by_cases hr : Readable s.row cutoff role
      · simp only [if_pos hr]
        exact .read hh hr
      · simp only [if_neg hr]
        exact .idle _
  | work h w fault =>
    simp only [step]
    cases hh : s.handlers h with
    | none => exact .idle _
    | some hd =>
      cases ho : work env s.row hd fault w with
      | none => simpa only [ho] using Stepped.idle _
      | some o => simpa only [ho] using Stepped.work hh ho
  | bulkFail h failReason =>
    simp only [step]
    cases hh : s.handlers h with
    | none => exact .idle _
    | some hd =>
      by_cases hb : BulkFails hd failReason
      · simp only [if_pos hb]
        exact .bulk hh hb
      · simp only [if_neg hb]
        exact .idle _
  | money h adaptorQuota fault token =>
    simp only [step]
    cases hh : s.handlers h with
    | none => exact .idle _
    | some hd =>
      obtain ⟨role, copy, phase⟩ := hd
      cases phase with
      | ready | worked | writing => exact .idle _
      | billing bill =>
        cases hm : billMoney env s.db copy adaptorQuota fault token bill with
        | none => simpa only [hm] using Stepped.refused hh hm
        | some r => simpa only [hm] using Stepped.paid hh hm
  | write h fault =>
    simp only [step]
    cases hh : s.handlers h with
    | none => exact .idle _
    | some hd =>
      obtain ⟨role, copy, phase⟩ := hd
      cases phase with
      | ready | worked | billing => exact .idle _
      | writing quota =>
        cases fault with
        | none => exact .written hh
        | some e => exact .unwritten hh
  | finish h =>
    simp only [step]
    cases hh : s.handlers h with
    | none => exact .idle _
    | some hd =>
      obtain ⟨role, copy, phase⟩ := hd
      cases phase with
      | ready => exact .finish hh (.inl rfl)
      | worked => exact .finish hh (.inr rfl)
      | billing | writing => exact .idle _
  | others db => exact .others db

/-! ### An example row -/

def exampleTask : Task :=
  { id := 1, taskID := "task_a", platform := .video "24", userId := 1, group := "default"
    channelId := 3, quota := 100, action := "generate", status := .notStart, failReason := ""
    submitTime := 1780000000, startTime := 0, finishTime := 0, progress := "0%"
    properties := ⟨"m", "m"⟩
    privateData := ⟨"", "u", "", some .wallet, 0, 0, none⟩, data := "" }

def exampleDB : DB :=
  { userQuota := fun _ => 1000, tokenQuota := fun _ => 0, subs := ∅, records := ∅, journal := [] }

def exampleEnv : Env := ⟨fun t => t, fun _ _ => none⟩

def reports (status : String) : VideoAnswer := .parsed ⟨status, "", "", "", 0⟩ "" .unrecognized

end WynthApi.Polling

import Mathlib.Data.Fintype.EquivFin
import WynthApi.Tasks.Orphan

/-!
# When claims are prompt, every running task can be reclaimed

Suppose the clocks agree and every claim marks its row while its lock is there and has not run out (`Prompt`).  Then a
running task keeps its lock until it ends.  `HeldSince` follows it from the time it was marked: its lock and every
renewal on its way last at least until then, and every statement that could take the lock away goes by a time read
before.  So a sweep that comes late enough finds the lock and fails the task.
-/

namespace WynthApi.Tasks

open Table StepSys

variable {s : State} {e : Event}

/-- The runner and the claim that an action has mark its row running. -/
def marks (s : State) : Action → Option (String × Claim)
  | .claimStep r false =>
    match s.claims r with
    | .markRunning c => some (r, c)
    | _ => none
  | _ => none

/-- The clock is right, and a claim that marks its row has its lock, which has not run out. -/
def Prompt (s : State) (e : Event) : Prop :=
  e.skew = 0 ∧ ∀ x ∈ marks s e.action, ∃ l ∈ s.db.locks,
    l.taskID = x.2.taskID ∧ l.lockedBy = x.1 ∧ s.now ≤ l.lockedUntil
  deriving Decidable

/-! ### Times that calls go by -/

def ClaimPc.time : ClaimPc → Option Int
  | .find _ now => some now
  | .insertLock c | .readLock c | .takeLock c _ | .markExpired c _ => some c.now
  | .markRunning c | .release c | .reload c => some c.now
  | _ => none

variable {pc : ClaimPc} {c : Claim}

theorem time_of_target (h : pc.target = some c) : pc.time = some c.now := by
  cases pc <;> cases h <;> rfl

variable {r : String}

theorem claimExec_time {fails : Bool} {reading : Int} {db : TaskDB} {t : Int}
    (h : (claimExec fails reading r db pc).2.1.time = some t) : pc.time = some t ∨ t = reading := by
  cases pc with
  | idle | release => cases h
  | clock a => exact .inr (Option.some.inj h).symm
  | _ =>
    simp only [claimExec] at h
    (repeat' split at h) <;> first | exact .inl h | cases h

theorem now_step (s : State) (e : Event) : s.now ≤ (step s e).now := by
  rcases e with ⟨action, skew⟩
  cases action with
  | tick seconds =>
    show s.now ≤ s.now + seconds
    omega
  | claim r id taskType =>
    simp only [step]
    split_ifs <;> exact le_rfl
  | job n taskID r request =>
    simp only [step]
    split_ifs <;> exact le_rfl
  | sweep n =>
    simp only [step]
    split_ifs <;> exact le_rfl
  | create | claimStep | jobStep | sweepStep => exact le_rfl

/-- No claim and no sweep goes by a time that is still to come. -/
structure Past (s : State) : Prop where
  claims : ∀ r t, (s.claims r).time = some t → t ≤ s.now
  sweeps : ∀ n t, (s.sweeps n).time = some t → t ≤ s.now

theorem past_step (hs : Past s) (he : e.skew = 0) : Past (step s e) := by
  have hnow := now_step s e
  have hreading : s.now + e.skew = s.now := by omega
  refine ⟨?_, ?_⟩
  · intro r t ht
    cases claim_step s e r with
    | other eq => exact (hs.claims r t (eq ▸ ht)).trans hnow
    | begin a action eq =>
      rw [eq] at ht
      cases ht
    | exec fails action eq =>
      rw [eq, hreading] at ht
      rcases claimExec_time ht with hold | rfl
      · exact (hs.claims r t hold).trans hnow
      · exact hnow
  · intro n t ht
    cases sweep_step s e n with
    | other eq => exact (hs.sweeps n t (eq ▸ ht)).trans hnow
    | begin action eq =>
      rw [eq, hreading] at ht
      cases ht
      exact hnow
    | exec fails action eq =>
      rw [eq] at ht
      exact (hs.sweeps n t (sweepExec_time ht)).trans hnow

/-! ### Running tasks -/

def JobPc.renewal : JobPc → Option (String × Int)
  | .clock taskID _ (.renew lockUntil) | .write taskID _ (.renew lockUntil) _ => some (taskID, lockUntil)
  | _ => none

structure HeldSince (s : State) (t : SystemTask) (m : Int) : Prop where
  lock : ∃ l ∈ s.db.locks, l.taskID = t.taskID ∧ l.lockedBy = t.lockedBy ∧ m ≤ l.lockedUntil
  renewals : ∀ n lockUntil, (s.jobs n).renewal = some (t.taskID, lockUntil) → m ≤ lockUntil
  claims : ∀ r c, (s.claims r).acquiring = some c → c.taskType = t.type → c.now ≤ m
  sweeps : ∀ n now lock rest, s.sweeps n = .delete now lock rest → lock.taskID = t.taskID → now ≤ m

structure Held (s : State) : Prop where
  base : Base s
  past : Past s
  running : ∀ t ∈ s.db.tasks, t.status = .running → ∃ m ≤ s.now, HeldSince s t m

variable {t : SystemTask}

theorem Base.not_pending (hs : Base s) {u : SystemTask} (ht : t ∈ s.db.tasks) (hrun : t.status = .running)
    (hu : u ∈ s.db.tasks) (htype : u.type = t.type) : u.status ≠ .pending := by
  intro hpending
  have htkey := hs.active t ht (.inr hrun)
  have hukey := hs.active u hu (.inl hpending)
  rw [htype] at hukey
  rw [eq_of_nodup_filterMap s.db.activeKeys hu ht hukey htkey, hrun] at hpending
  cases hpending

variable {m : Int}

theorem HeldSince.lock_survives (hs : Base s) (ht : t ∈ s.db.tasks) (hrun : t.status = .running) (h : HeldSince s t m) :
    ∃ l ∈ (step s e).db.locks, l.taskID = t.taskID ∧ l.lockedBy = t.lockedBy ∧ m ≤ l.lockedUntil := by
  obtain ⟨l, hl, htask, hby, hle⟩ := h.lock
  cases lock_step (e := e) hl with
  | kept mem => exact ⟨l, mem, htask, hby, hle⟩
  | renewed n lockUntil now action pc mem =>
    refine ⟨_, mem, htask, hby, h.renewals n lockUntil ?_⟩
    rw [pc, ← htask]
    rfl
  | taken r c expiredTaskID action pc type stale =>
    have htype : c.taskType = t.type := by
      obtain ⟨u, hu, hutask, hutype⟩ := hs.lockTask l hl
      rw [← type, ← hutype, s.db.eq_of_taskID hu ht (hutask.trans htask)]
    have hnow := h.claims r c (by rw [pc]; rfl) htype
    omega
  | releasedByClaim r c action pc taskID lockedBy =>
    have hother := hs.unstarted r c (by rw [pc]; rfl) t ht (htask.symm.trans taskID) hrun
    exact absurd (hby.symm.trans lockedBy) hother
  | releasedByJob n action pc =>
    obtain ⟨u, hu, hutask, -, hended⟩ := hs.finished n l.taskID l.lockedBy pc
    rw [s.db.eq_of_taskID hu ht (hutask.trans htask)] at hended
    exact absurd hrun hended
  | swept n lock rest now action pc taskID stale =>
    have hnow := h.sweeps n now lock rest pc (taskID.symm.trans htask)
    omega

variable {n : ℕ} {taskID : String}

theorem renewal_step {lockUntil : Int} (he : e.skew = 0) (h : ((step s e).jobs n).renewal = some (taskID, lockUntil)) :
    (s.jobs n).renewal = some (taskID, lockUntil) ∨ (∃ r, (taskID, r) ∈ s.dispatched) ∧ s.now ≤ lockUntil := by
  cases job_step s e n with
  | other eq => exact .inl (eq ▸ h)
  | begin x r request mem eq =>
    rw [eq] at h
    cases request with
    | update | finish => cases h
    | renew =>
      cases h
      refine .inr ⟨⟨r, mem⟩, ?_⟩
      unfold systemTaskLockTTL
      omega
  | exec fails action eq =>
    rw [eq] at h
    rcases jobExec_cases fails (s.now + e.skew) s.db (s.jobs n) with hidle | ⟨x, r, call, hpc, hnext⟩ |
      ⟨x, r, ending, result, error, now, hpc, -, hnext, -⟩
    · rw [hidle] at h
      cases h
    · rw [hnext] at h
      left
      rw [hpc]
      cases call with
      | update | finish => cases h
      | renew u => exact h
    · rw [hnext] at h
      cases h

variable {now : Int}

theorem delete_of_step {lock : SystemTaskLock} {rest : List SystemTaskLock}
    (h : (step s e).sweeps n = .delete now lock rest) : s.sweeps n = .delete now lock rest ∨
      ∀ t ∈ (step s e).db.tasks, t.taskID = lock.taskID → t.status ≠ .running := by
  cases sweep_step s e n with
  | other eq => exact .inl (eq ▸ h)
  | begin action eq =>
    rw [eq] at h
    cases h
  | exec fails action eq =>
    rw [eq] at h
    cases fails with
    | true => cases hpc : s.sweeps n <;> rw [hpc] at h <;> cases h
    | false =>
      cases hpc : s.sweeps n with rw [hpc] at h
      | idle => cases h
      | find | delete =>
        simp only [sweepExec, SweepPc.turn] at h
        split at h
        · cases h
        · split at h <;> cases h
      | mark t lock' rest' =>
        cases h
        right
        have hdb : (step s e).db = s.db.markSystemTaskLeaseExpired lock.taskID (s.now + e.skew) := by
          simp only [step, action, hpc]
          rfl
        rw [hdb]
        intro t' ht' htask hrun
        obtain ⟨t, ht, rfl⟩ := mem_updateWhere.mp ht'
        by_cases hp : t.taskID = lock.taskID ∧ t.status = .running
        · rw [if_pos (decide_eq_true hp)] at hrun
          cases hrun
        · rw [if_neg (by simpa using hp)] at htask hrun
          exact hp ⟨htask, hrun⟩

variable {t' : SystemTask}

theorem HeldSince.stay (hs : Held s) (he : e.skew = 0) (ht : t ∈ s.db.tasks)
    (ht' : t' ∈ (step s e).db.tasks) (hrun : t.status = .running) (hrun' : t'.status = .running)
    (hsame : SameTask t t') (hby : t'.lockedBy = t.lockedBy) (hm : m ≤ s.now)
    (h : HeldSince s t m) : HeldSince (step s e) t' m := by
  refine ⟨?_, ?_, ?_, ?_⟩
  · rw [hsame.taskID, hby]
    exact h.lock_survives hs.base ht hrun
  · intro n lockUntil hrenewal
    rw [hsame.taskID] at hrenewal
    rcases renewal_step he hrenewal with hold | ⟨-, hnew⟩
    · exact h.renewals n lockUntil hold
    · exact hm.trans hnew
  · intro r c hc htype
    rw [hsame.type] at htype
    rcases acquiring_of_step hc with hold | ⟨u, hu, -, hutype, hpending⟩
    · exact h.claims r c hold htype
    · exact absurd hpending (hs.base.not_pending ht hrun hu (hutype.trans htype))
  · intro n now lock rest hpc htask
    rcases delete_of_step hpc with hold | hnot
    · exact h.sweeps n now lock rest hold (htask.trans hsame.taskID)
    · exact absurd hrun' (hnot t' ht' htask.symm)

theorem HeldSince.start (hs : Held s) (he : Prompt s e)
    (haction : e.action = .claimStep r false) (hpc : s.claims r = .markRunning c)
    (ht : t ∈ s.db.tasks) (hid : t.id = c.id) (hpending : t.status = .pending)
    (heq : t' = { t with status := .running, lockedBy := r, updatedAt := c.now }) : HeldSince (step s e) t' s.now := by
  subst heq
  have hpast := past_step hs.past he.1
  have hnow : (step s e).now = s.now := by simp only [step, haction, State.setClaim]
  refine ⟨?_, ?_, ?_, ?_⟩
  · obtain ⟨l, hl, htask, hby, hle⟩ := he.2 (r, c) (by rw [haction, marks, hpc]; rfl)
    obtain ⟨u, hu, huid, hutask, -⟩ := hs.base.claimed r c (by rw [hpc]; rfl)
    rw [s.db.eq_of_id hu ht (huid.trans hid.symm)] at hutask
    refine ⟨l, ?_, htask.trans hutask.symm, hby, hle⟩
    cases lock_step (e := e) hl with
    | kept mem => exact mem
    | renewed n lockUntil now action => rw [haction] at action; cases action
    | taken r' c' x action pc =>
      rw [haction] at action
      cases action
      rw [hpc] at pc
      cases pc
    | releasedByClaim r' c' action pc =>
      rw [haction] at action
      cases action
      rw [hpc] at pc
      cases pc
    | releasedByJob n action => rw [haction] at action; cases action
    | swept n lock rest now action => rw [haction] at action; cases action
  · intro n lockUntil hrenewal
    -- a renewal belongs to a dispatched task, and this one was pending
    have hdisp : ∃ r', (t.taskID, r') ∈ s.dispatched := by
      rcases renewal_step he.1 hrenewal with hold | ⟨hdisp, -⟩
      · obtain ⟨r', hr'⟩ : ∃ r', (s.jobs n).holder = some (t.taskID, r') := by
          cases hjob : s.jobs n with
          | idle | release => rw [hjob] at hold; cases hold
          | clock x r' call =>
            rw [hjob] at hold
            cases call with
            | renew u => cases hold; exact ⟨r', rfl⟩
            | update | finish => cases hold
          | write x r' call now =>
            rw [hjob] at hold
            cases call with
            | renew u => cases hold; exact ⟨r', rfl⟩
            | update | finish => cases hold
        exact ⟨r', hs.base.jobs n _ hr'⟩
      · exact hdisp
    obtain ⟨r', hr'⟩ := hdisp
    obtain ⟨⟨u, hu, hutask, hnot⟩, -⟩ := hs.base.dispatched t.taskID r' hr'
    rw [s.db.eq_of_taskID hu ht hutask] at hnot
    exact absurd hpending hnot
  · intro r' c' hc' _
    rw [← hnow]
    exact hpast.claims r' _ (time_of_target (target_of_unstarted (unstarted_of_acquiring hc')))
  · intro n now lock rest hsweep _
    rw [← hnow]
    exact hpast.sweeps n now (by rw [hsweep]; rfl)

theorem held_step (hs : Held s) (he : Prompt s e) : Held (step s e) := by
  refine ⟨base_step hs.base e, past_step hs.past he.1, ?_⟩
  intro t' ht' hrun'
  rcases task_of_step ht' with ⟨t, ht, hchange⟩ | hnew
  · cases hchange with
    | stay same status activeKey lockedBy =>
      have hrun : t.status = .running := status.symm.trans hrun'
      obtain ⟨m, hm, h⟩ := hs.running t ht hrun
      exact ⟨m, hm.trans (now_step s e), h.stay hs he.1 ht ht' hrun hrun' same lockedBy hm⟩
    | start r c action pc id type pending eq =>
      exact ⟨s.now, now_step s e, HeldSince.start hs he action pc ht id pending eq⟩
    | stop same running ended => exact absurd hrun' ended.2
  · rw [hnew.pending] at hrun'
    cases hrun'

theorem held_run {now₀ : Int} {es : List Event} (h : Along step Prompt (init now₀) es) :
    Held (run step (init now₀) es) := by
  refine run_inv (I := Held) (fun _ _ hs he => held_step hs he) ?_ h
  exact ⟨base_init now₀, ⟨fun _ _ h => (nomatch h), fun _ _ h => (nomatch h)⟩, fun _ ht => (nomatch ht)⟩

/-! ### Sweeps that come late enough -/

theorem sweep_reaches (locks : List SystemTaskLock)
    (hmem : ∃ l ∈ locks, l.taskID = taskID) (hpc : s.sweeps n = .turn now locks) :
    ∃ later, ∀ t ∈ (run step s later).db.tasks, t.taskID = taskID → t.status ≠ .running := by
  induction locks generalizing s with
  | nil =>
    obtain ⟨l, hl, -⟩ := hmem
    cases hl
  | cons lock rest ih =>
    have hmark : s.sweeps n = .mark now lock rest := hpc
    have hdelete : (step s ⟨.sweepStep n false, 0⟩).sweeps n = .delete now lock rest := by
      simp [step, State.setSweep, hmark, sweepExec]
    by_cases hlock : lock.taskID = taskID
    · refine ⟨[⟨.sweepStep n false, 0⟩], ?_⟩
      rcases delete_of_step hdelete with hold | hnot
      · rw [hmark] at hold
        cases hold
      · rw [hlock] at hnot
        exact hnot
    · have hrest : ∃ l ∈ rest, l.taskID = taskID := by
        obtain ⟨l, hl, htask⟩ := hmem
        rcases List.mem_cons.mp hl with rfl | hl
        · exact absurd htask hlock
        · exact ⟨l, hl, htask⟩
      have hturn : (step (step s ⟨.sweepStep n false, 0⟩) ⟨.sweepStep n false, 0⟩).sweeps n = .turn now rest := by
        generalize step s ⟨.sweepStep n false, 0⟩ = s' at hdelete ⊢
        simp [step, State.setSweep, hdelete, sweepExec]
      obtain ⟨later, hlater⟩ := ih hrest hturn
      exact ⟨⟨.sweepStep n false, 0⟩ :: ⟨.sweepStep n false, 0⟩ :: later, hlater⟩

theorem sweep_reclaims (hidle : s.sweeps n = .idle) {l : SystemTaskLock} (hl : l ∈ s.db.locks) :
    ∃ later, ∀ t ∈ (run step s later).db.tasks, t.taskID = l.taskID → t.status ≠ .running := by
  let k : ℕ := (l.lockedUntil - s.now + 1).toNat
  have hfind : (run step s (onTime [.tick k, .sweep n, .sweepStep n false])).sweeps n =
      .turn (s.now + k) (s.db.locks.filter fun l => decide (l.lockedUntil < s.now + k)) := by
    simp [run, onTime, step, State.setSweep, hidle, sweepExec]
  have hmem : l ∈ s.db.locks.filter fun l => decide (l.lockedUntil < s.now + k) := by
    refine List.mem_filter.mpr ⟨hl, decide_eq_true ?_⟩
    show l.lockedUntil < s.now + ((l.lockedUntil - s.now + 1).toNat : Int)
    omega
  obtain ⟨later, hlater⟩ := sweep_reaches _ ⟨l, hmem, rfl⟩ hfind
  refine ⟨onTime [.tick k, .sweep n, .sweepStep n false] ++ later, ?_⟩
  rw [run_append]
  exact hlater

/-- **No orphans**: in every run in which the clocks agree and each claim marks its row running while its lock
is there and has not run out, every running task has a lock, and a sweep can still fail it. -/
theorem prompt_tasks_reclaimable (now₀ : Int) (es : List Event) (h : Along step Prompt (init now₀) es) :
    ∀ t ∈ (run step (init now₀) es).db.tasks, t.status = .running →
      Reclaimable (run step (init now₀) es) t.taskID ∧
        ∃ later, ∀ t' ∈ (run step (run step (init now₀) es) later).db.tasks,
          t'.taskID = t.taskID → t'.status ≠ .running := by
  intro t ht hrun
  obtain ⟨m, -, hheld⟩ := (held_run h).running t ht hrun
  obtain ⟨l, hl, htask, -⟩ := hheld.lock
  obtain ⟨n, hn⟩ := Infinite.exists_notMem_finset (es.filterMap (·.action.sweeper)).toFinset
  have hidle : (run step (init now₀) es).sweeps n = .idle := by
    refine sweeps_run (init now₀) es fun e he heq => hn ?_
    exact List.mem_toFinset.mpr (List.mem_filterMap.mpr ⟨e, he, heq⟩)
  refine ⟨.inl ⟨l, hl, htask⟩, ?_⟩
  rw [← htask]
  exact sweep_reclaims hidle hl

/-- A claim at the usual pace: the task is running, and can be reclaimed. -/
theorem claimed_task_reclaimable :
    let es := onTime ([.create "log_cleanup" "t1" "" "", .claim "a" 1 "log_cleanup"] ++
      List.replicate 5 (.claimStep "a" false))
    ∃ t ∈ (run step (init 100) es).db.tasks, t.status = .running ∧
      Reclaimable (run step (init 100) es) t.taskID := by
  intro es
  have hmem : ∃ t ∈ (run step (init 100) es).db.tasks, t.status = .running := by decide +kernel
  obtain ⟨t, ht, hrun⟩ := hmem
  exact ⟨t, ht, hrun, (prompt_tasks_reclaimable 100 es (by decide +kernel) t ht hrun).1⟩

end WynthApi.Tasks

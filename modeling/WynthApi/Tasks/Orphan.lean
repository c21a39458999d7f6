import WynthApi.Tasks.Invariant

/-!
# Running tasks whose lock is gone

The expirer finds tasks through their locks.  A claim marks its row running without looking at the lock it took
before: if that ran out meanwhile, a sweep may have deleted it, and the task then runs forever, for all the tables say
(`Orphan`, `orphan_run`).  It keeps its active key, so no other task of its type can be created.
-/

namespace WynthApi.Tasks

open Table StepSys List

variable {s : State} {e : Event}

/-- A lock names the task, or a sweep that has read its lock is about to fail it. -/
def Reclaimable (s : State) (taskID : String) : Prop :=
  (∃ l ∈ s.db.locks, l.taskID = taskID) ∨
    ∃ n now lock rest, s.sweeps n = .mark now lock rest ∧ lock.taskID = taskID

/-! ### Sweeps of a step -/

def SweepPc.locks : SweepPc → List SystemTaskLock
  | .mark _ lock rest | .delete _ lock rest => lock :: rest
  | _ => []

def SweepPc.time : SweepPc → Option Int
  | .find now | .mark now _ _ | .delete now _ _ => some now
  | .idle => none

inductive SweepStep (s : State) (e : Event) (n : ℕ) : Prop
  | other (eq : (step s e).sweeps n = s.sweeps n)
  | begin (action : e.action = .sweep n) (eq : (step s e).sweeps n = .find (s.now + e.skew))
  | exec (fails : Bool) (action : e.action = .sweepStep n fails)
      (eq : (step s e).sweeps n = (sweepExec fails (s.now + e.skew) s.db (s.sweeps n)).2)

theorem sweep_step (s : State) (e : Event) (n : ℕ) : SweepStep s e n := by
  rcases e with ⟨action, skew⟩
  cases action with
  | sweep m =>
    by_cases hidle : s.sweeps m = .idle
    · by_cases hn : n = m
      · subst hn
        exact .begin rfl (by simp [step, hidle, State.setSweep])
      · exact .other (by simp [step, hidle, State.setSweep, hn])
    · exact .other (by simp [step, hidle])
  | sweepStep m fails =>
    by_cases hn : n = m
    · subst hn
      exact .exec fails rfl (by simp [step, State.setSweep])
    · exact .other (by simp [step, State.setSweep, hn])
  | tick | create | claimStep | jobStep => exact .other rfl
  | claim | job =>
    refine .other ?_
    simp only [step]
    split_ifs <;> rfl

theorem turn_locks (now : Int) (l : List SystemTaskLock) : (SweepPc.turn now l).locks = l := by
  cases l <;> rfl

variable {reading : Int} {fails : Bool} {taskID : String} {db : TaskDB} {pc : SweepPc}

theorem sweepExec_locks {l : SystemTaskLock}
    (h : l ∈ (sweepExec fails reading db pc).2.locks) : l ∈ db.locks ∨ l ∈ pc.locks := by
  cases fails with
  | true => cases pc <;> cases h
  | false =>
    cases pc with
    | idle => cases h
    | find now =>
      have hmem : l ∈ db.locks.filter fun l => decide (l.lockedUntil < now) := by
        rw [← turn_locks now (db.locks.filter _)]
        exact h
      exact .inl (mem_of_mem_filter hmem)
    | mark now lock rest => exact .inr h
    | delete now lock rest =>
      refine .inr (mem_cons_of_mem _ ?_)
      rw [← turn_locks now rest]
      exact h

theorem turn_time {now t : Int} {l : List SystemTaskLock} (h : (SweepPc.turn now l).time = some t) : t = now := by
  cases l with
  | nil => cases h
  | cons lock rest => exact (Option.some.inj h).symm

theorem sweepExec_time {t : Int} (h : (sweepExec fails reading db pc).2.time = some t) : pc.time = some t := by
  cases fails with
  | true => cases pc <;> cases h
  | false =>
    cases pc with
    | idle => cases h
    | find | delete =>
      rw [turn_time h]
      rfl
    | mark now lock rest => exact h

/-! ### Orphans -/

def ClaimPc.expired : ClaimPc → Option String
  | .takeLock _ expiredTaskID | .markExpired _ expiredTaskID => some expiredTaskID
  | _ => none

variable {r : String}

theorem claimExec_expired {pc : ClaimPc} {x : String} (h : (claimExec fails reading r db pc).2.1.expired = some x) :
    pc.expired = some x ∨ ∃ l ∈ db.locks, l.taskID = x := by
  cases pc with
  | idle | clock | release => cases h
  | readLock c =>
    simp only [claimExec] at h
    split at h
    · cases h
    · split at h
      · cases h
      · rename_i existing hfind
        split at h
        · cases h
        · cases h
          exact .inr ⟨existing, mem_of_find?_eq_some hfind, rfl⟩
  | takeLock c expiredTaskID =>
    simp only [claimExec] at h
    split at h
    · cases h
    · split at h
      · split at h
        · exact .inl h
        · cases h
      · cases h
  | _ =>
    simp only [claimExec] at h
    (repeat' split at h) <;> cases h

/-- A task that is running, and that nothing in the tables or on its way names any more. -/
structure Orphan (taskID : String) (s : State) : Prop where
  base : Base s
  running : ∃ t ∈ s.db.tasks, t.taskID = taskID ∧ t.status = .running
  unlocked : ∀ l ∈ s.db.locks, l.taskID ≠ taskID
  claims : ∀ r c, (s.claims r).target = some c → c.taskID ≠ taskID
  expired : ∀ r, (s.claims r).expired ≠ some taskID
  sweeps : ∀ n, ∀ l ∈ (s.sweeps n).locks, l.taskID ≠ taskID

theorem Orphan.not_stops (hs : Orphan taskID s) : ¬ Stops s e taskID := by
  intro h
  cases h with
  | expireClaimed r c action pc => exact hs.expired r (by rw [pc]; rfl)
  | expireSwept n lock rest now action pc eq =>
    refine hs.sweeps n lock ?_ eq
    rw [pc]
    exact mem_cons_self
  | finish l mem eq => exact hs.unlocked l mem eq

theorem orphan_step (hs : Orphan taskID s) (e : Event) : Orphan taskID (step s e) := by
  obtain ⟨t, ht, htask, hrun⟩ := hs.running
  refine ⟨base_step hs.base e, ?_, ?_, ?_, ?_, ?_⟩
  · obtain ⟨t', ht', hchange⟩ := task_step (e := e) ht
    refine ⟨t', ht', hchange.same.taskID.trans htask, ?_⟩
    cases hchange with
    | stay same status => exact status.trans hrun
    | start r c action pc id type pending eq =>
      rw [hrun] at pending
      cases pending
    | stop same running ended cause =>
      rw [htask] at cause
      exact absurd cause hs.not_stops
  · intro l' hl'
    cases lock_of_step hl' with
    | kept mem => exact hs.unlocked l' mem
    | acquired r c action pc eq =>
      subst eq
      exact hs.claims r c (target_of_unstarted (unstarted_of_acquiring pc))
    | renewed n lockUntil now l action pc mem live eq =>
      subst eq
      exact hs.unlocked l mem
  · intro r c hc
    rcases target_of_step hc with hold | ⟨u, hu, ⟨-, hutask, -⟩, hpending⟩
    · exact hs.claims r c hold
    · intro heq
      rw [s.db.eq_of_taskID hu ht (hutask.trans (heq.trans htask.symm)), hrun] at hpending
      cases hpending
  · intro r hx
    cases claim_step s e r with
    | other eq => exact hs.expired r (eq ▸ hx)
    | begin a action eq =>
      rw [eq] at hx
      cases hx
    | exec fails action eq =>
      rw [eq] at hx
      rcases claimExec_expired hx with hold | ⟨l, hl, hltask⟩
      · exact hs.expired r hold
      · exact hs.unlocked l hl hltask
  · intro n l hl
    cases sweep_step s e n with
    | other eq => exact hs.sweeps n l (eq ▸ hl)
    | begin action eq =>
      rw [eq] at hl
      cases hl
    | exec fails action eq =>
      rw [eq] at hl
      rcases sweepExec_locks hl with hdb | hpc
      · exact hs.unlocked l hdb
      · exact hs.sweeps n l hpc

theorem orphan_run (hs : Orphan taskID s) (es : List Event) : Orphan taskID (run step s es) :=
  run_inv (I := Orphan taskID) (fun _ e hs _ => orphan_step hs e) hs
    (along_of_forall (fun (_ : Event) _ => trivial) s)

/-! ### A claim that is late -/

def Action.runner : Action → Option String
  | .claim r _ _ | .claimStep r _ => some r
  | _ => none

def Action.sweeper : Action → Option ℕ
  | .sweep n | .sweepStep n _ => some n
  | _ => none

theorem claims_run (s : State) (es : List Event) (h : ∀ e ∈ es, e.action.runner ≠ some r) :
    (run step s es).claims r = s.claims r := by
  refine run_inv (I := fun t => t.claims r = s.claims r) ?_ rfl (along_of_forall h s)
  intro t e heq hne
  cases claim_step t e r with
  | other eq => exact eq.trans heq
  | begin a action eq => exact absurd (congrArg Action.runner action) hne
  | exec fails action eq => exact absurd (congrArg Action.runner action) hne

theorem sweeps_run {n : ℕ} (s : State) (es : List Event) (h : ∀ e ∈ es, e.action.sweeper ≠ some n) :
    (run step s es).sweeps n = s.sweeps n := by
  refine run_inv (I := fun t => t.sweeps n = s.sweeps n) ?_ rfl (along_of_forall h s)
  intro t e heq hne
  cases sweep_step t e n with
  | other eq => exact eq.trans heq
  | begin action eq => exact absurd (congrArg Action.sweeper action) hne
  | exec fails action eq => exact absurd (congrArg Action.sweeper action) hne

/-- A claim takes its lock and is held up for longer than the lock lasts; a sweep deletes the lock, and the
claim marks its task running.  From then on it is running in every state, and no lock names it. -/
theorem late_claim_orphans_task :
    let es := onTime ([.create "log_cleanup" "t1" "" "", .claim "a" 1 "log_cleanup"] ++
      List.replicate 3 (.claimStep "a" false) ++ [.tick 61, .sweep 0] ++
      List.replicate 3 (.sweepStep 0 false) ++ List.replicate 2 (.claimStep "a" false))
    let s := run step (init 100) es
    ¬ Reclaimable s "t1" ∧ ∀ es', (∃ t ∈ (run step s es').db.tasks, t.taskID = "t1" ∧
      t.status = .running ∧ t.activeKey = some t.type) ∧ ∀ l ∈ (run step s es').db.locks, l.taskID ≠ "t1" := by
  intro es s
  have hclaims : ∀ r, s.claims r = .idle := by
    intro r
    by_cases hr : r = "a"
    · subst hr
      decide +kernel
    · refine claims_run (init 100) es ?_
      have hrunner : ∀ e ∈ es, e.action.runner = none ∨ e.action.runner = some "a" := by decide +kernel
      intro e he heq
      rcases hrunner e he with h | h <;> rw [h] at heq <;> cases heq
      exact hr rfl
  have hsweeps : ∀ n, s.sweeps n = .idle := by
    intro n
    by_cases hn : n = 0
    · subst hn
      decide +kernel
    · refine sweeps_run (init 100) es ?_
      have hsweeper : ∀ e ∈ es, e.action.sweeper = none ∨ e.action.sweeper = some 0 := by decide +kernel
      intro e he heq
      rcases hsweeper e he with h | h <;> rw [h] at heq <;> cases heq
      exact hn rfl
  have horphan : Orphan "t1" s := by
    refine ⟨base_run (base_init 100) es, by decide +kernel, by decide +kernel, ?_, ?_, ?_⟩
    · intro r c hc
      rw [hclaims r] at hc
      cases hc
    · intro r hx
      rw [hclaims r] at hx
      cases hx
    · intro n l hl
      rw [hsweeps n] at hl
      cases hl
  refine ⟨?_, fun es' => ?_⟩
  · rintro (⟨l, hl, htask⟩ | ⟨n, now, lock, rest, hpc, -⟩)
    · exact horphan.unlocked l hl htask
    · rw [hsweeps n] at hpc
      cases hpc
  · have hlater := orphan_run horphan es'
    obtain ⟨t, ht, htask, hrun⟩ := hlater.running
    exact ⟨⟨t, ht, htask, hrun, hlater.base.active t ht (.inr hrun)⟩, hlater.unlocked⟩

end WynthApi.Tasks

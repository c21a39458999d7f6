import WynthApi.Tasks.Invariant

/-!
# A system task has one writer at a time

`UpdateSystemTaskState` and `FinishSystemTask` look for the lock row of their own task and runner, and there is one such
row for each type: so only one runner at a time can write a task of a type.  Only a claim can put a task and a runner
into a lock (`lock_of_step`), and a runner whose claim succeeded does not claim that task again (`Base.dispatched`): a
lock that is lost stays lost.
-/

namespace WynthApi.Tasks

open Table StepSys

variable {s : State} {e : Event}

def JobCall.writesTask : JobCall → Bool
  | .renew _ => false
  | _ => true

def TaskDB.HasTask (db : TaskDB) (taskType taskID : String) : Prop :=
  ∃ t ∈ db.tasks, t.taskID = taskID ∧ t.type = taskType
  deriving Decidable

def TaskDB.HoldsLock (db : TaskDB) (taskID r : String) : Prop :=
  ∃ l ∈ db.locks, l.taskID = taskID ∧ l.lockedBy = r
  deriving Decidable

/-! ### One writer -/

variable {db : TaskDB} {r taskID : String}

theorem lock_of_write {call : JobCall} (hcall : call.writesTask = true) {now : Int}
    (h : (call.write taskID r now db).2 = true) : db.HoldsLock taskID r := by
  have hany : db.tasks.any (db.writable taskID r now) = true := by
    cases call with
    | update | finish => exact h
    | renew lockUntil => cases hcall
  obtain ⟨t, -, hwritable⟩ := List.any_eq_true.mp hany
  obtain ⟨-, l, hl, htask, hby, -⟩ := writable_iff.mp hwritable
  exact ⟨l, hl, htask, hby⟩

variable {taskType : String}

theorem Base.lock_type (hs : Base s) {l : SystemTaskLock} (hl : l ∈ s.db.locks)
    (h : s.db.HasTask taskType l.taskID) : l.type = taskType := by
  obtain ⟨t, ht, htask, rfl⟩ := h
  obtain ⟨u, hu, hutask, hutype⟩ := hs.lockTask l hl
  rw [← hutype, s.db.eq_of_taskID hu ht (hutask.trans htask.symm)]

theorem Base.one_lock (hs : Base s) {x₁ x₂ r₁ r₂ : String} (h₁ : s.db.HasTask taskType x₁)
    (h₂ : s.db.HasTask taskType x₂) (hl₁ : s.db.HoldsLock x₁ r₁) (hl₂ : s.db.HoldsLock x₂ r₂) : x₁ = x₂ ∧ r₁ = r₂ := by
  obtain ⟨l, hl, rfl, rfl⟩ := hl₁
  obtain ⟨m, hm, rfl, rfl⟩ := hl₂
  have heq : l = m := s.db.eq_of_lockType hl hm ((hs.lock_type hl h₁).trans (hs.lock_type hm h₂).symm)
  exact ⟨by rw [heq], by rw [heq]⟩

/-! ### A lock that is lost -/

theorem lost_step (hs : Base s) (hdisp : (taskID, r) ∈ s.dispatched) (hlost : ¬ s.db.HoldsLock taskID r) :
    ¬ (step s e).db.HoldsLock taskID r := by
  rintro ⟨l', hl', htask, hby⟩
  cases lock_of_step hl' with
  | kept mem => exact hlost ⟨l', mem, htask, hby⟩
  | acquired r' c action pc eq =>
    subst eq
    have hby' : r' = r := hby
    subst hby'
    exact (hs.dispatched taskID r' hdisp).2 c pc htask
  | renewed n lockUntil now l action pc mem live eq =>
    subst eq
    exact hlost ⟨l, mem, htask, hby⟩

theorem lost_run (hs : Base s) (hdisp : (taskID, r) ∈ s.dispatched) (hlost : ¬ s.db.HoldsLock taskID r)
    (es : List Event) : ¬ (run step s es).db.HoldsLock taskID r := by
  have hinv : Base (run step s es) ∧ (taskID, r) ∈ (run step s es).dispatched ∧
      ¬ (run step s es).db.HoldsLock taskID r := by
    refine run_inv (I := fun s => Base s ∧ (taskID, r) ∈ s.dispatched ∧ ¬ s.db.HoldsLock taskID r) ?_
      ⟨hs, hdisp, hlost⟩ (along_of_forall (fun (_ : Event) _ => trivial) s)
    rintro s e ⟨hs, hdisp, hlost⟩ -
    exact ⟨base_step hs e, dispatched_mono hdisp, lost_step hs hdisp hlost⟩
  exact hinv.2.2

theorem write_of_lost (hlost : ¬ db.HoldsLock taskID r) (call : JobCall) (now : Int) :
    (call.write taskID r now db).1 = db := by
  have hnone : ∀ t ∈ db.tasks, db.writable taskID r now t = false := by
    intro t _
    by_contra hp
    obtain ⟨-, l, hl, htask, hby, -⟩ := writable_iff.mp (Bool.not_eq_false _ ▸ hp)
    exact hlost ⟨l, hl, htask, hby⟩
  cases call with
  | update | finish => exact TaskDB.ext (updateWhere_of_none hnone) rfl
  | renew lockUntil =>
    refine TaskDB.ext rfl (updateWhere_of_none fun l hl => ?_)
    refine decide_eq_false ?_
    rintro ⟨htask, hby, -⟩
    exact hlost ⟨l, hl, htask, hby⟩

theorem release_of_lost (hlost : ¬ db.HoldsLock taskID r) : db.releaseSystemTaskLock taskID r = db := by
  refine TaskDB.ext rfl (deleteWhere_of_none fun l hl => ?_)
  refine decide_eq_false ?_
  rintro ⟨htask, hby⟩
  exact hlost ⟨l, hl, htask, hby⟩

variable {pc : JobPc}

theorem jobExec_of_lost (hpc : pc.holder = some (taskID, r)) (hlost : ¬ db.HoldsLock taskID r)
    (fails : Bool) (reading : Int) : (jobExec fails reading db pc).1 = db := by
  cases fails with
  | true => cases pc <;> rfl
  | false =>
    cases pc with
    | idle | clock => rfl
    | write x r' call now =>
      cases hpc
      exact write_of_lost hlost call now
    | release x r' =>
      cases hpc
      exact release_of_lost hlost

/-! ### A task that has ended -/

theorem jobExec_of_ended (hpc : pc.holder = some (taskID, r))
    (hend : ∃ t ∈ db.tasks, t.taskID = taskID ∧ t.status ≠ .pending ∧ t.status ≠ .running) (fails : Bool)
    (reading : Int) : (jobExec fails reading db pc).1.tasks = db.tasks := by
  obtain ⟨t, ht, htask, -, hnot⟩ := hend
  have hnone : ∀ now, ∀ u ∈ db.tasks, db.writable taskID r now u = false := by
    intro now u hu
    by_contra hp
    obtain ⟨⟨hutask, hrun, -⟩, -⟩ := writable_iff.mp (Bool.not_eq_false _ ▸ hp)
    rw [db.eq_of_taskID hu ht (hutask.trans htask.symm)] at hrun
    exact hnot hrun
  cases fails with
  | true => cases pc <;> rfl
  | false =>
    cases pc with
    | idle | clock | release => rfl
    | write x r' call now =>
      cases hpc
      cases call with
      | update | finish => exact updateWhere_of_none (hnone now)
      | renew lockUntil => rfl

/-! ### The single writer -/

/-- **Single writer**: in every interleaving and whatever the clocks say, the state updates and finishes that
can succeed for the tasks of a type are those of one task and one runner.  A runner whose lock was expired
or taken over, or whose task has ended, never changes the task again. -/
theorem system_task_single_writer (now₀ : Int) (es : List Event) :
    let s := run step (init now₀) es
    (∀ taskType x₁ x₂ r₁ r₂ now₁ now₂, ∀ call₁ call₂ : JobCall,
      s.db.HasTask taskType x₁ → s.db.HasTask taskType x₂ →
      call₁.writesTask = true → call₂.writesTask = true →
      (call₁.write x₁ r₁ now₁ s.db).2 = true → (call₂.write x₂ r₂ now₂ s.db).2 = true →
      x₁ = x₂ ∧ r₁ = r₂) ∧
    (∀ taskID r, (taskID, r) ∈ s.dispatched → ¬ s.db.HoldsLock taskID r →
      ∀ es' n fails skew, ((run step s es').jobs n).holder = some (taskID, r) →
        (step (run step s es') ⟨.jobStep n fails, skew⟩).db = (run step s es').db) ∧
    ∀ taskID r, (taskID, r) ∈ s.dispatched →
      (∀ t ∈ s.db.tasks, t.taskID = taskID → t.status ≠ .running) →
      ∀ es' n fails skew, ((run step s es').jobs n).holder = some (taskID, r) →
        (step (run step s es') ⟨.jobStep n fails, skew⟩).db.tasks = (run step s es').db.tasks := by
  intro s
  have hs : Base s := base_run (base_init now₀) es
  refine ⟨?_, ?_, ?_⟩
  · intro taskType x₁ x₂ r₁ r₂ now₁ now₂ call₁ call₂ h₁ h₂ hcall₁ hcall₂ hw₁ hw₂
    exact hs.one_lock h₁ h₂ (lock_of_write hcall₁ hw₁) (lock_of_write hcall₂ hw₂)
  · intro taskID r hdisp hlost es' n fails skew hpc
    exact jobExec_of_lost hpc (lost_run hs hdisp hlost es') fails _
  · intro taskID r hdisp hnot es' n fails skew hpc
    obtain ⟨⟨t, ht, htask, hpending⟩, -⟩ := hs.dispatched taskID r hdisp
    have hend : ∃ t ∈ (run step s es').db.tasks, t.taskID = taskID ∧ t.status ≠ .pending ∧
        t.status ≠ .running :=
      run_inv (I := fun s => ∃ t ∈ s.db.tasks, t.taskID = taskID ∧ t.status ≠ .pending ∧
        t.status ≠ .running) (fun _ _ h _ => ended_step h) ⟨t, ht, htask, hpending, hnot t ht htask⟩
        (along_of_forall (fun (_ : Event) _ => trivial) s)
    exact jobExec_of_ended hpc hend fails _

/-- Runner a claims a task and begins to update it; its lock runs out, a sweep fails the task and deletes the
lock, and the update that is on its way changes nothing. -/
theorem writer_swept :
    let claim := onTime ([.create "log_cleanup" "t1" "" "", .claim "a" 1 "log_cleanup"] ++
      List.replicate 5 (.claimStep "a" false))
    let swept := claim ++ onTime ([.job 0 "t1" "a" (.update "half"), .jobStep 0 false, .tick 61, .sweep 0] ++
      List.replicate 3 (.sweepStep 0 false))
    (("t1" = "t1" ∧ "a" = "a") ∧ (run step (init 100) claim).db.HoldsLock "t1" "a") ∧
      (step (run step (init 100) swept) ⟨.jobStep 0 false, 0⟩).db = (run step (init 100) swept).db ∧
      (step (run step (init 100) swept) ⟨.jobStep 0 false, 0⟩).db.tasks =
        (run step (init 100) swept).db.tasks := by
  intro claim swept
  have hclaim := system_task_single_writer 100 claim
  have hswept := system_task_single_writer 100 swept
  dsimp only at hclaim hswept
  refine ⟨⟨?_, by decide +kernel⟩, ?_, ?_⟩
  · exact hclaim.1 "log_cleanup" "t1" "t1" "a" "a" 100 100 (.update "") (.finish .failed "" "")
      (by decide +kernel) (by decide +kernel) rfl rfl (by decide +kernel) (by decide +kernel)
  · have h := hswept.2.1 "t1" "a" (by decide +kernel) (by decide +kernel) [] 0 false 0
    rw [run_nil] at h
    exact h (by decide +kernel)
  · have h := hswept.2.2 "t1" "a" (by decide +kernel) (by decide +kernel) [] 0 false 0
    rw [run_nil] at h
    exact h (by decide +kernel)

end WynthApi.Tasks

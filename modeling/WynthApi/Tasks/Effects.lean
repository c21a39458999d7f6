import WynthApi.Tasks.SystemTask

/-!
# What a step does to the two tables

`Effect` lists the statements that change a table, each with the place where it is run.  From it come the
four facts that every invariant is derived from: where a task row comes from (`task_of_step`) and where it
goes (`task_step`), and the same for a lock (`lock_of_step`, `lock_step`).
-/

namespace WynthApi.Tasks

open Table StepSys TaskDB List

variable {s : State} {e : Event}

inductive Effect (s : State) (e : Event) : TaskDB → Prop
  | same : Effect s e s.db
  | create (taskType taskID payload state : String) (now : Int)
      (h : e.action = .create taskType taskID payload state) :
      Effect s e (s.db.createSystemTask taskType taskID payload state now)
  | insertLock (r : String) (c : Claim) (h : e.action = .claimStep r false)
      (hpc : s.claims r = .insertLock c) (hnew : ∀ m ∈ s.db.locks, m.type ≠ c.taskType) :
      Effect s e (s.db.insertLock (c.lock r) hnew)
  | takeLock (r : String) (c : Claim) (expiredTaskID : String) (h : e.action = .claimStep r false)
      (hpc : s.claims r = .takeLock c expiredTaskID) :
      Effect s e (s.db.takeLock c.taskType c.taskID r c.now c.lockUntil)
  | expireClaimed (r : String) (c : Claim) (expiredTaskID : String) (now : Int)
      (h : e.action = .claimStep r false) (hpc : s.claims r = .markExpired c expiredTaskID) :
      Effect s e (s.db.markSystemTaskLeaseExpired expiredTaskID now)
  | expireSwept (n : ℕ) (lock : SystemTaskLock) (rest : List SystemTaskLock) (t now : Int)
      (h : e.action = .sweepStep n false) (hpc : s.sweeps n = .mark t lock rest) :
      Effect s e (s.db.markSystemTaskLeaseExpired lock.taskID now)
  | markRunning (r : String) (c : Claim) (h : e.action = .claimStep r false)
      (hpc : s.claims r = .markRunning c) : Effect s e (s.db.markRunning c.id c.taskType r c.now)
  | releaseClaim (r : String) (c : Claim) (h : e.action = .claimStep r false)
      (hpc : s.claims r = .release c) : Effect s e (s.db.releaseSystemTaskLock c.taskID r)
  | write (n : ℕ) (taskID lockedBy : String) (call : JobCall) (now : Int)
      (h : e.action = .jobStep n false) (hpc : s.jobs n = .write taskID lockedBy call now) :
      Effect s e (call.write taskID lockedBy now s.db).1
  | releaseJob (n : ℕ) (taskID lockedBy : String) (h : e.action = .jobStep n false)
      (hpc : s.jobs n = .release taskID lockedBy) :
      Effect s e (s.db.releaseSystemTaskLock taskID lockedBy)
  | deleteStale (n : ℕ) (lock : SystemTaskLock) (rest : List SystemTaskLock) (now : Int)
      (h : e.action = .sweepStep n false) (hpc : s.sweeps n = .delete now lock rest) :
      Effect s e (s.db.deleteStale lock now)

variable {fails : Bool}

theorem effect_claimExec {r : String} (reading : Int) (h : e.action = .claimStep r fails) :
    Effect s e (claimExec fails reading r s.db (s.claims r)).1 := by
  cases fails with
  | true => cases hpc : s.claims r <;> exact .same
  | false =>
    cases hpc : s.claims r with
    | idle | clock => exact .same
    | find | reload =>
      simp only [claimExec]
      split <;> first | exact .same | skip
      split <;> exact .same
    | insertLock c =>
      simp only [claimExec]
      split
      · rename_i hnew
        exact .insertLock r c h hpc hnew.2
      · exact .same
    | readLock c =>
      simp only [claimExec]
      split <;> first | exact .same | skip
      split <;> first | exact .same | skip
      split <;> exact .same
    | takeLock c expiredTaskID =>
      simp only [claimExec]
      split <;> first | exact .same | skip
      split
      · exact .takeLock r c expiredTaskID h hpc
      · exact .same
    | markExpired c expiredTaskID => exact .expireClaimed r c expiredTaskID reading h hpc
    | markRunning c =>
      simp only [claimExec]
      split <;> first | exact .same | skip
      split
      · exact .markRunning r c h hpc
      · exact .same
    | release c => exact .releaseClaim r c h hpc

variable {n : ℕ}

theorem effect_jobExec (reading : Int) (h : e.action = .jobStep n fails) :
    Effect s e (jobExec fails reading s.db (s.jobs n)).1 := by
  cases fails with
  | true => cases hpc : s.jobs n <;> exact .same
  | false =>
    cases hpc : s.jobs n with
    | idle | clock => exact .same
    | write taskID lockedBy call now => exact .write n taskID lockedBy call now h hpc
    | release taskID lockedBy => exact .releaseJob n taskID lockedBy h hpc

theorem effect_sweepExec (reading : Int) (h : e.action = .sweepStep n fails) :
    Effect s e (sweepExec fails reading s.db (s.sweeps n)).1 := by
  cases fails with
  | true => cases hpc : s.sweeps n <;> exact .same
  | false =>
    cases hpc : s.sweeps n with
    | idle | find => exact .same
    | mark now lock rest => exact .expireSwept n lock rest now reading h hpc
    | delete now lock rest => exact .deleteStale n lock rest now h hpc

/-- **Effects**: all that a step can do to the tables. -/
theorem effect_step (s : State) (e : Event) : Effect s e (step s e).db := by
  unfold step
  split
  · exact .same
  · rename_i taskType taskID payload state h
    exact .create taskType taskID payload state _ h
  · split_ifs <;> exact .same
  · rename_i r fails h
    exact effect_claimExec _ h
  · split_ifs <;> exact .same
  · rename_i n fails h
    exact effect_jobExec _ h
  · split_ifs <;> exact .same
  · rename_i n fails h
    exact effect_sweepExec _ h

/-! ### Tasks -/

structure SameTask (t t' : SystemTask) : Prop where
  id : t'.id = t.id
  taskID : t'.taskID = t.taskID
  type : t'.type = t.type

/-- The step ends a run of the task: the lease of the task's lock is found expired, or its holder finishes it. -/
inductive Stops (s : State) (e : Event) (taskID : String) : Prop
  | expireClaimed (r : String) (c : Claim) (action : e.action = .claimStep r false)
      (pc : s.claims r = .markExpired c taskID)
  | expireSwept (n : ℕ) (lock : SystemTaskLock) (rest : List SystemTaskLock) (now : Int)
      (action : e.action = .sweepStep n false) (pc : s.sweeps n = .mark now lock rest)
      (eq : lock.taskID = taskID)
  | finish (l : SystemTaskLock) (mem : l ∈ s.db.locks) (eq : l.taskID = taskID)

inductive TaskChange (s : State) (e : Event) (t t' : SystemTask) : Prop
  | stay (same : SameTask t t') (status : t'.status = t.status) (activeKey : t'.activeKey = t.activeKey)
      (lockedBy : t'.lockedBy = t.lockedBy)
  | start (r : String) (c : Claim) (action : e.action = .claimStep r false)
      (pc : s.claims r = .markRunning c) (id : t.id = c.id) (type : t.type = c.taskType)
      (pending : t.status = .pending)
      (eq : t' = { t with status := .running, lockedBy := r, updatedAt := c.now })
  | stop (same : SameTask t t') (running : t.status = .running)
      (ended : t'.status ≠ .pending ∧ t'.status ≠ .running) (cause : Stops s e t.taskID)

theorem TaskChange.same {t t' : SystemTask} (h : TaskChange s e t t') : SameTask t t' := by
  cases h with
  | stay same => exact same
  | start r c action pc id type pending eq =>
    subst eq
    exact ⟨rfl, rfl, rfl⟩
  | stop same => exact same

theorem TaskChange.refl (t : SystemTask) : TaskChange s e t t := .stay ⟨rfl, rfl, rfl⟩ rfl rfl rfl

theorem TaskChange.pending {t t' : SystemTask} (h : TaskChange s e t t') (hp : t'.status = .pending) :
    t.status = .pending := by
  cases h with
  | stay same status => exact status ▸ hp
  | start r c action pc id type pending eq => exact pending
  | stop same running ended => exact absurd hp ended.1

structure NewTask (s : State) (t : SystemTask) : Prop where
  pending : t.status = .pending
  activeKey : t.activeKey = some t.type
  taskID : ∀ u ∈ s.db.tasks, u.taskID ≠ t.taskID
  key : ∀ u ∈ s.db.tasks, u.activeKey ≠ some t.type

theorem updateTasks_change {p : SystemTask → Bool} {f : SystemTask → SystemTask}
    (h : ∀ t ∈ s.db.tasks, p t = true → TaskChange s e t (f t)) :
    (∀ t' ∈ updateWhere p f s.db.tasks, ∃ t ∈ s.db.tasks, TaskChange s e t t') ∧
      ∀ t ∈ s.db.tasks, ∃ t' ∈ updateWhere p f s.db.tasks, TaskChange s e t t' := by
  have hchange : ∀ t ∈ s.db.tasks, TaskChange s e t (if p t = true then f t else t) := by
    intro t ht
    split_ifs with hp
    · exact h t ht hp
    · exact .refl t
  refine ⟨?_, ?_⟩
  · intro t' ht'
    obtain ⟨t, ht, rfl⟩ := mem_updateWhere.mp ht'
    exact ⟨t, ht, hchange t ht⟩
  · intro t ht
    exact ⟨_, mem_updateWhere.mpr ⟨t, ht, rfl⟩, hchange t ht⟩

theorem ending_status (ending : Ending) : ending.status ≠ .pending ∧ ending.status ≠ .running := by
  cases ending <;> decide

variable {taskID : String} {t : SystemTask}

theorem writable_iff {db : TaskDB} {lockedBy : String} {now : Int} :
    db.writable taskID lockedBy now t = true ↔ (t.taskID = taskID ∧ t.status = .running ∧ t.lockedBy = lockedBy) ∧
        ∃ l ∈ db.locks, l.taskID = taskID ∧ l.lockedBy = lockedBy ∧ l.lockedUntil ≥ now := by
  unfold writable locked
  rw [Bool.and_eq_true, decide_eq_true_eq, any_eq_true]
  constructor
  · rintro ⟨ht, l, hl, hlock⟩
    rw [ht.1] at hlock
    exact ⟨ht, l, hl, of_decide_eq_true hlock⟩
  · rintro ⟨ht, l, hl, hlock⟩
    refine ⟨ht, l, hl, ?_⟩
    rw [ht.1]
    exact decide_eq_true hlock

theorem expire_change (cause : Stops s e taskID) (now : Int) :
    (∀ t' ∈ (s.db.markSystemTaskLeaseExpired taskID now).tasks, ∃ t ∈ s.db.tasks, TaskChange s e t t') ∧
      ∀ t ∈ s.db.tasks, ∃ t' ∈ (s.db.markSystemTaskLeaseExpired taskID now).tasks, TaskChange s e t t' := by
  refine updateTasks_change fun t _ hp => ?_
  obtain ⟨rfl, hrun⟩ := of_decide_eq_true hp
  exact .stop ⟨rfl, rfl, rfl⟩ hrun ⟨nofun, nofun⟩ cause

theorem write_change (taskID lockedBy : String) (call : JobCall) (now : Int) :
    (∀ t' ∈ (call.write taskID lockedBy now s.db).1.tasks, ∃ t ∈ s.db.tasks, TaskChange s e t t') ∧
      ∀ t ∈ s.db.tasks, ∃ t' ∈ (call.write taskID lockedBy now s.db).1.tasks, TaskChange s e t t' := by
  cases call with
  | update state =>
    refine updateTasks_change fun t _ _ => ?_
    exact .stay ⟨rfl, rfl, rfl⟩ rfl rfl rfl
  | renew lockUntil => exact ⟨fun t ht => ⟨t, ht, .refl t⟩, fun t ht => ⟨t, ht, .refl t⟩⟩
  | finish ending result error =>
    refine updateTasks_change fun t _ hp => ?_
    obtain ⟨⟨htask, hrun, -⟩, l, hl, hlock, -⟩ := writable_iff.mp hp
    exact .stop ⟨rfl, rfl, rfl⟩ hrun (ending_status ending) (.finish l hl (hlock.trans htask.symm))

theorem create_tasks (taskType taskID payload state : String) (now : Int) (db : TaskDB) :
    (db.createSystemTask taskType taskID payload state now).tasks = db.tasks ∨
      ∃ t, (db.createSystemTask taskType taskID payload state now).tasks = db.tasks ++ [t] ∧
        t.status = .pending ∧ t.activeKey = some t.type ∧ (∀ u ∈ db.tasks, u.taskID ≠ t.taskID) ∧
        ∀ u ∈ db.tasks, u.activeKey ≠ some t.type := by
  unfold createSystemTask
  split_ifs with h
  · exact .inr ⟨_, rfl, rfl, rfl, h.1, h.2⟩
  · exact .inl rfl

/-- **Tasks**: where every task after a step comes from, and where every task before it goes. -/
theorem task_changes (s : State) (e : Event) :
    (∀ t' ∈ (step s e).db.tasks, (∃ t ∈ s.db.tasks, TaskChange s e t t') ∨ NewTask s t') ∧
      ∀ t ∈ s.db.tasks, ∃ t' ∈ (step s e).db.tasks, TaskChange s e t t' := by
  have kept : ∀ {db : TaskDB}, (∀ t' ∈ db.tasks, ∃ t ∈ s.db.tasks, TaskChange s e t t') ∧
      (∀ t ∈ s.db.tasks, ∃ t' ∈ db.tasks, TaskChange s e t t') →
      (∀ t' ∈ db.tasks, (∃ t ∈ s.db.tasks, TaskChange s e t t') ∨ NewTask s t') ∧
        ∀ t ∈ s.db.tasks, ∃ t' ∈ db.tasks, TaskChange s e t t' :=
    fun h => ⟨fun t' ht' => .inl (h.1 t' ht'), h.2⟩
  have same : ∀ {db : TaskDB}, db.tasks = s.db.tasks →
      (∀ t' ∈ db.tasks, (∃ t ∈ s.db.tasks, TaskChange s e t t') ∨ NewTask s t') ∧
        ∀ t ∈ s.db.tasks, ∃ t' ∈ db.tasks, TaskChange s e t t' := by
    intro db h
    rw [h]
    exact ⟨fun t ht => .inl ⟨t, ht, .refl t⟩, fun t ht => ⟨t, ht, .refl t⟩⟩
  have heffect := effect_step s e
  generalize (step s e).db = db at heffect ⊢
  cases heffect with
  | same => exact same rfl
  | insertLock | takeLock | releaseClaim | releaseJob | deleteStale => exact same rfl
  | create taskType taskID payload state now h =>
    rcases create_tasks taskType taskID payload state now s.db with heq | ⟨t, heq, hnew⟩
    · exact same heq
    · rw [heq]
      refine ⟨?_, fun u hu => ⟨u, mem_append_left _ hu, .refl u⟩⟩
      intro t' ht'
      rcases mem_append.mp ht' with ht' | ht'
      · exact .inl ⟨t', ht', .refl t'⟩
      · rw [mem_singleton.mp ht']
        exact .inr ⟨hnew.1, hnew.2.1, hnew.2.2.1, hnew.2.2.2⟩
  | expireClaimed r c expiredTaskID now h hpc => exact kept (expire_change (.expireClaimed r c h hpc) now)
  | expireSwept n lock rest t now h hpc =>
    exact kept (expire_change (.expireSwept n lock rest t h hpc rfl) now)
  | markRunning r c h hpc =>
    refine kept (updateTasks_change fun t _ hp => ?_)
    obtain ⟨hid, htype, hpending⟩ := of_decide_eq_true hp
    exact .start r c h hpc hid htype hpending rfl
  | write n taskID lockedBy call now h hpc => exact kept (write_change taskID lockedBy call now)

theorem task_of_step {t' : SystemTask} (h : t' ∈ (step s e).db.tasks) :
    (∃ t ∈ s.db.tasks, TaskChange s e t t') ∨ NewTask s t' := (task_changes s e).1 t' h

theorem task_step (h : t ∈ s.db.tasks) : ∃ t' ∈ (step s e).db.tasks, TaskChange s e t t' := (task_changes s e).2 t h

/-! ### Locks -/

def ClaimPc.acquiring : ClaimPc → Option Claim
  | .insertLock c | .readLock c | .takeLock c _ => some c
  | _ => none

inductive LockOrigin (s : State) (e : Event) (l' : SystemTaskLock) : Prop
  | kept (mem : l' ∈ s.db.locks)
  | acquired (r : String) (c : Claim) (action : e.action = .claimStep r false)
      (pc : (s.claims r).acquiring = some c) (eq : l' = c.lock r)
  | renewed (n : ℕ) (lockUntil now : Int) (l : SystemTaskLock) (action : e.action = .jobStep n false)
      (pc : s.jobs n = .write l.taskID l.lockedBy (.renew lockUntil) now) (mem : l ∈ s.db.locks)
      (live : l.lockedUntil ≥ now) (eq : l' = { l with lockedUntil := lockUntil, updatedAt := now })

inductive LockFate (s : State) (e : Event) (l : SystemTaskLock) : Prop
  | kept (mem : l ∈ (step s e).db.locks)
  | renewed (n : ℕ) (lockUntil now : Int) (action : e.action = .jobStep n false)
      (pc : s.jobs n = .write l.taskID l.lockedBy (.renew lockUntil) now)
      (mem : { l with lockedUntil := lockUntil, updatedAt := now } ∈ (step s e).db.locks)
  | taken (r : String) (c : Claim) (expiredTaskID : String) (action : e.action = .claimStep r false)
      (pc : s.claims r = .takeLock c expiredTaskID) (type : l.type = c.taskType)
      (stale : l.lockedUntil < c.now)
  | releasedByClaim (r : String) (c : Claim) (action : e.action = .claimStep r false)
      (pc : s.claims r = .release c) (taskID : l.taskID = c.taskID) (lockedBy : l.lockedBy = r)
  | releasedByJob (n : ℕ) (action : e.action = .jobStep n false)
      (pc : s.jobs n = .release l.taskID l.lockedBy)
  | swept (n : ℕ) (lock : SystemTaskLock) (rest : List SystemTaskLock) (now : Int)
      (action : e.action = .sweepStep n false) (pc : s.sweeps n = .delete now lock rest)
      (taskID : l.taskID = lock.taskID) (stale : l.lockedUntil < now)

theorem create_locks (taskType taskID payload state : String) (now : Int) (db : TaskDB) :
    (db.createSystemTask taskType taskID payload state now).locks = db.locks := by
  unfold createSystemTask
  split_ifs <;> rfl

theorem lock_of_step {l' : SystemTaskLock} (h : l' ∈ (step s e).db.locks) : LockOrigin s e l' := by
  have heffect := effect_step s e
  generalize (step s e).db = db at heffect h
  cases heffect with
  | same | expireClaimed | expireSwept | markRunning => exact .kept h
  | create taskType taskID payload state now =>
    rw [create_locks] at h
    exact .kept h
  | insertLock r c haction hpc hnew =>
    rcases mem_append.mp h with h | h
    · exact .kept h
    · exact .acquired r c haction (by rw [hpc]; rfl) (mem_singleton.mp h)
  | takeLock r c expiredTaskID haction hpc =>
    obtain ⟨l, hl, rfl⟩ := mem_updateWhere.mp h
    split_ifs with hp
    · refine .acquired r c haction (by rw [hpc]; rfl) ?_
      have htype := (of_decide_eq_true hp).1
      rw [Claim.lock, ← htype]
    · exact .kept hl
  | releaseClaim | releaseJob | deleteStale => exact .kept (mem_deleteWhere.mp h).1
  | write n taskID lockedBy call now haction hpc =>
    cases call with
    | update | finish => exact .kept h
    | renew lockUntil =>
      obtain ⟨l, hl, rfl⟩ := mem_updateWhere.mp h
      split_ifs with hp
      · obtain ⟨rfl, rfl, hlive⟩ := of_decide_eq_true hp
        exact .renewed n lockUntil now l haction hpc hl hlive rfl
      · exact .kept hl

theorem lock_step {l : SystemTaskLock} (h : l ∈ s.db.locks) : LockFate s e l := by
  have heffect := effect_step s e
  have hkept : l ∈ (step s e).db.locks → LockFate s e l := .kept
  have hrenewed := @LockFate.renewed s e l
  generalize (step s e).db = db at heffect hkept hrenewed
  cases heffect with
  | same | expireClaimed | expireSwept | markRunning => exact hkept h
  | create taskType taskID payload state now =>
    refine hkept ?_
    rw [create_locks]
    exact h
  | insertLock r c haction hpc hnew => exact hkept (mem_append_left _ h)
  | takeLock r c expiredTaskID haction hpc =>
    by_cases hp : l.type = c.taskType ∧ l.lockedUntil < c.now
    · exact .taken r c expiredTaskID haction hpc hp.1 hp.2
    · exact hkept (mem_updateWhere.mpr ⟨l, h, by simp [hp]⟩)
  | releaseClaim r c haction hpc =>
    by_cases hp : l.taskID = c.taskID ∧ l.lockedBy = r
    · exact .releasedByClaim r c haction hpc hp.1 hp.2
    · exact hkept (mem_deleteWhere.mpr ⟨h, decide_eq_false hp⟩)
  | releaseJob n taskID lockedBy haction hpc =>
    by_cases hp : l.taskID = taskID ∧ l.lockedBy = lockedBy
    · obtain ⟨rfl, rfl⟩ := hp
      exact .releasedByJob n haction hpc
    · exact hkept (mem_deleteWhere.mpr ⟨h, decide_eq_false hp⟩)
  | deleteStale n lock rest now haction hpc =>
    by_cases hp : l.type = lock.type ∧ l.taskID = lock.taskID ∧ l.lockedBy = lock.lockedBy ∧
        l.lockedUntil < now
    · exact .swept n lock rest now haction hpc hp.2.1 hp.2.2.2
    · exact hkept (mem_deleteWhere.mpr ⟨h, decide_eq_false hp⟩)
  | write n taskID lockedBy call now haction hpc =>
    cases call with
    | update | finish => exact hkept h
    | renew lockUntil =>
      by_cases hp : l.taskID = taskID ∧ l.lockedBy = lockedBy ∧ l.lockedUntil ≥ now
      · obtain ⟨rfl, rfl, hlive⟩ := hp
        refine hrenewed n lockUntil now haction hpc (mem_updateWhere.mpr ⟨l, h, ?_⟩)
        simp [renewable, hlive]
      · exact hkept (mem_updateWhere.mpr ⟨l, h, by simp [renewable, hp]⟩)

end WynthApi.Tasks

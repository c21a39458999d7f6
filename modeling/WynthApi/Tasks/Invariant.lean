import WynthApi.Tasks.Effects

/-!
# What holds of system tasks in every interleaving, whatever the clocks say

`Base` ties the two tables to what the calls know: a lock names a task of its type, a claim's row exists,
a claim that has not started its task finds no run of its own runner on it, and a task with a handler is
not pending and is not claimed again by its runner.
-/

namespace WynthApi.Tasks

open Table StepSys List

variable {s : State} {e : Event}

/-! ### Rows by their keys -/

variable {u : SystemTask}

theorem TaskDB.eq_of_taskID (db : TaskDB) {t : SystemTask} (ht : t ∈ db.tasks) (hu : u ∈ db.tasks)
    (h : t.taskID = u.taskID) : t = u := inj_on_of_nodup_map db.taskIDs ht hu h

theorem TaskDB.eq_of_id (db : TaskDB) {t : SystemTask} (ht : t ∈ db.tasks) (hu : u ∈ db.tasks)
    (h : t.id = u.id) : t = u := inj_on_of_nodup_map db.ids ht hu h

theorem TaskDB.eq_of_lockType (db : TaskDB) {l m : SystemTaskLock} (hl : l ∈ db.locks) (hm : m ∈ db.locks)
    (h : l.type = m.type) : l = m := inj_on_of_nodup_map db.lockTypes hl hm h

/-! ### Claims, calls and dispatches of a step -/

/-- The claim under way, from the row it found on. -/
def ClaimPc.target : ClaimPc → Option Claim
  | .insertLock c | .readLock c | .takeLock c _ | .markExpired c _ => some c
  | .markRunning c | .release c | .reload c => some c
  | _ => none

/-- The same, as long as its task is not started. -/
def ClaimPc.unstarted : ClaimPc → Option Claim
  | .insertLock c | .readLock c | .takeLock c _ | .markExpired c _ => some c
  | .markRunning c | .release c => some c
  | _ => none

variable {pc : ClaimPc} {r taskID : String} {t : SystemTask} {c : Claim}

theorem target_of_unstarted (h : pc.unstarted = some c) : pc.target = some c := by
  cases pc <;> cases h <;> rfl

theorem unstarted_of_acquiring (h : pc.acquiring = some c) : pc.unstarted = some c := by
  cases pc <;> cases h <;> rfl

/-- One statement of a claim gives it up, finds a pending row, goes on with it or starts its task. -/
inductive ClaimMove (fails : Bool) (db : TaskDB) (pc pc' : ClaimPc) : Prop
  | leave (target : pc'.target = none)
  | found (a : ClaimArgs) (now : Int) (t : SystemTask) (at_find : pc = .find a now)
      (mem : t ∈ db.tasks) (id : t.id = a.id) (type : t.type = a.taskType) (pending : t.status = .pending)
      (eq : pc' = .insertLock { a with now, taskID := t.taskID })
  | goOn (c : Claim) (unstarted : pc.unstarted = some c) (unstarted' : pc'.unstarted = some c)
      (acquiring : pc'.acquiring = some c → pc.acquiring = some c)
  | started (c : Claim) (t : SystemTask) (pc_eq : pc = .markRunning c) (eq : pc' = .reload c)
      (fails : fails = false) (mem : t ∈ db.tasks) (id : t.id = c.id) (type : t.type = c.taskType)
      (pending : t.status = .pending)

variable (fails : Bool) (reading : Int)

theorem claimExec_move (r : String) (db : TaskDB) (pc : ClaimPc) :
    ClaimMove fails db pc (claimExec fails reading r db pc).2.1 := by
  cases pc with
  | idle | clock | release => exact .leave rfl
  | find a now =>
    simp only [claimExec]
    split
    · exact .leave rfl
    · split
      · exact .leave rfl
      · rename_i t hfind
        have hp : TaskDB.claimable a.id a.taskType t = true := find?_some hfind
        obtain ⟨hid, htype, hpending⟩ := of_decide_eq_true hp
        exact .found a now t rfl (mem_of_find?_eq_some hfind) hid htype hpending rfl
  | insertLock c =>
    simp only [claimExec]
    split
    · exact .goOn c rfl rfl fun h => by cases h
    · exact .goOn c rfl rfl fun _ => rfl
  | readLock c =>
    simp only [claimExec]
    split
    · exact .leave rfl
    · split
      · exact .leave rfl
      · split
        · exact .leave rfl
        · exact .goOn c rfl rfl fun _ => rfl
  | takeLock c expiredTaskID =>
    simp only [claimExec]
    split
    · exact .leave rfl
    · split
      · split <;> exact .goOn c rfl rfl fun h => by cases h
      · exact .leave rfl
  | markExpired c expiredTaskID =>
    simp only [claimExec]
    split <;> exact .goOn c rfl rfl fun h => by cases h
  | markRunning c =>
    simp only [claimExec]
    split
    · exact .goOn c rfl rfl fun h => by cases h
    · rename_i hfails
      split
      · rename_i hany
        obtain ⟨t, ht, hp⟩ := any_eq_true.mp hany
        obtain ⟨hid, htype, hpending⟩ := of_decide_eq_true hp
        exact .started c t rfl rfl (by simpa using hfails) ht hid htype hpending
      · exact .goOn c rfl rfl fun h => by cases h
  | reload c =>
    refine .leave ?_
    simp only [claimExec]
    split
    · rfl
    · split <;> rfl

theorem claimExec_dispatch {fails : Bool} {reading : Int} {db : TaskDB}
    (h : (claimExec fails reading r db pc).2.2 = some taskID) :
    ∃ c, ∃ t ∈ db.tasks, pc = .reload c ∧ t.id = c.id ∧ t.taskID = taskID := by
  cases pc with
  | idle | clock | release => cases h
  | reload c =>
    simp only [claimExec] at h
    split at h
    · cases h
    · split at h
      · cases h
      · rename_i t hfind
        cases h
        have hid : t.id = c.id := by simpa using find?_some hfind
        exact ⟨c, t, mem_of_find?_eq_some hfind, rfl, hid, rfl⟩
  | _ =>
    simp only [claimExec] at h
    (repeat' split at h) <;> cases h

/-- What a step does to the claim of runner `r`. -/
inductive ClaimStep (s : State) (e : Event) (r : String) : Prop
  | other (eq : (step s e).claims r = s.claims r) (idle : ∀ fails, e.action ≠ .claimStep r fails)
  | begin (a : ClaimArgs) (action : e.action = .claim r a.id a.taskType)
      (eq : (step s e).claims r = .clock a)
  | exec (fails : Bool) (action : e.action = .claimStep r fails)
      (eq : (step s e).claims r = (claimExec fails (s.now + e.skew) r s.db (s.claims r)).2.1)

theorem claim_step (s : State) (e : Event) (r : String) : ClaimStep s e r := by
  rcases e with ⟨action, skew⟩
  cases action with
  | claim r' id taskType =>
    by_cases hr : r = r'
    · subst hr
      by_cases hidle : s.claims r = .idle
      · refine .begin ⟨id, taskType, s.now + skew + systemTaskLockTTL⟩ rfl ?_
        simp [step, hidle, State.setClaim]
      · exact .other (by simp [step, hidle]) nofun
    · refine .other ?_ nofun
      by_cases hidle : s.claims r' = .idle
      · simp [step, hidle, State.setClaim, hr]
      · simp [step, hidle]
  | claimStep r' fails =>
    by_cases hr : r = r'
    · subst hr
      exact .exec fails rfl (by simp [step, State.setClaim])
    · refine .other (by simp [step, State.setClaim, hr]) ?_
      rintro fails' h
      cases h
      exact hr rfl
  | tick | create | jobStep | sweepStep => exact .other rfl nofun
  | job | sweep =>
    refine .other ?_ nofun
    simp only [step]
    split_ifs <;> rfl

theorem target_of_step (h : ((step s e).claims r).target = some c) : (s.claims r).target = some c ∨ ∃ t ∈ s.db.tasks,
      (t.id = c.id ∧ t.taskID = c.taskID ∧ t.type = c.taskType) ∧ t.status = .pending := by
  cases claim_step s e r with
  | other eq => exact .inl (eq ▸ h)
  | begin a action eq =>
    rw [eq] at h
    cases h
  | exec fails action eq =>
    rw [eq] at h
    cases claimExec_move fails (s.now + e.skew) r s.db (s.claims r) with
    | leave target =>
      rw [target] at h
      cases h
    | found a now t at_find mem id type pending eq' =>
      rw [eq'] at h
      cases h
      exact .inr ⟨t, mem, ⟨id, rfl, type⟩, pending⟩
    | goOn c' unstarted unstarted' acquiring =>
      rw [target_of_unstarted unstarted'] at h
      cases h
      exact .inl (target_of_unstarted unstarted)
    | started c' t pc_eq eq' hfails mem id type pending =>
      rw [eq'] at h
      cases h
      left
      rw [pc_eq]
      rfl

theorem acquiring_of_step (h : ((step s e).claims r).acquiring = some c) : (s.claims r).acquiring = some c ∨
      ∃ t ∈ s.db.tasks, t.taskID = c.taskID ∧ t.type = c.taskType ∧ t.status = .pending := by
  cases claim_step s e r with
  | other eq => exact .inl (eq ▸ h)
  | begin a action eq =>
    rw [eq] at h
    cases h
  | exec fails action eq =>
    rw [eq] at h
    have h' := unstarted_of_acquiring h
    cases claimExec_move fails (s.now + e.skew) r s.db (s.claims r) with
    | leave target =>
      rw [target_of_unstarted h'] at target
      cases target
    | found a now t at_find mem id type pending eq' =>
      rw [eq'] at h
      cases h
      exact .inr ⟨t, mem, rfl, type, pending⟩
    | goOn c' unstarted unstarted' acquiring =>
      rw [h'] at unstarted'
      cases unstarted'
      exact .inl (acquiring h)
    | started c' t pc_eq eq' hfails mem id type pending =>
      rw [eq'] at h
      cases h

/-- The task and the runner that a call is made for. -/
def JobPc.holder : JobPc → Option (String × String)
  | .clock taskID lockedBy _ | .write taskID lockedBy _ _ | .release taskID lockedBy =>
    some (taskID, lockedBy)
  | .idle => none

/-- What a step does to call `n` of a handler. -/
inductive JobStep (s : State) (e : Event) (n : ℕ) : Prop
  | other (eq : (step s e).jobs n = s.jobs n)
  | begin (taskID r : String) (request : Request) (mem : (taskID, r) ∈ s.dispatched)
      (eq : (step s e).jobs n = .clock taskID r (request.call (s.now + e.skew)))
  | exec (fails : Bool) (action : e.action = .jobStep n fails)
      (eq : (step s e).jobs n = (jobExec fails (s.now + e.skew) s.db (s.jobs n)).2)

theorem job_step (s : State) (e : Event) (n : ℕ) : JobStep s e n := by
  rcases e with ⟨action, skew⟩
  cases action with
  | job m taskID r request =>
    by_cases hbegin : s.jobs m = .idle ∧ (taskID, r) ∈ s.dispatched
    · by_cases hn : n = m
      · subst hn
        exact .begin taskID r request hbegin.2 (by simp [step, hbegin, State.setJob])
      · exact .other (by simp [step, hbegin, State.setJob, hn])
    · exact .other (by simp [step, hbegin])
  | jobStep m fails =>
    by_cases hn : n = m
    · subst hn
      exact .exec fails rfl (by simp [step, State.setJob])
    · exact .other (by simp [step, State.setJob, hn])
  | tick | create | claimStep | sweepStep => exact .other rfl
  | claim | sweep =>
    refine .other ?_
    simp only [step]
    split_ifs <;> rfl

theorem jobExec_cases (db : TaskDB) (pc : JobPc) :
    (jobExec fails reading db pc).2 = .idle ∨ (∃ taskID r call, pc = .clock taskID r call ∧
        (jobExec fails reading db pc).2 = .write taskID r call reading) ∨
      ∃ taskID r ending result error now, pc = .write taskID r (.finish ending result error) now ∧
        fails = false ∧ (jobExec fails reading db pc).2 = .release taskID r ∧
        ∃ t ∈ db.tasks, db.writable taskID r now t = true := by
  cases pc with
  | idle | release => exact .inl rfl
  | clock taskID r call => exact .inr (.inl ⟨taskID, r, call, rfl, rfl⟩)
  | write taskID r call now =>
    cases fails with
    | true => exact .inl rfl
    | false =>
      cases call with
      | update | renew => exact .inl (by simp [jobExec, JobCall.releases])
      | finish ending result error =>
        by_cases hany : db.tasks.any (db.writable taskID r now) = true
        · refine .inr (.inr ⟨taskID, r, ending, result, error, now, rfl, rfl, ?_, ?_⟩)
          · simp only [jobExec, JobCall.write, JobCall.releases, hany]
            rfl
          · exact any_eq_true.mp hany
        · left
          simp only [jobExec, JobCall.write, JobCall.releases, hany]
          rfl

theorem dispatched_step (h : (taskID, r) ∈ (step s e).dispatched) :
    (taskID, r) ∈ s.dispatched ∨ ∃ fails, e.action = .claimStep r fails ∧
      (claimExec fails (s.now + e.skew) r s.db (s.claims r)).2.2 = some taskID := by
  rcases e with ⟨action, skew⟩
  cases action with
  | claimStep r' fails =>
    rcases mem_append.mp h with h | h
    · right
      rw [Option.mem_toList, Option.map_eq_some_iff] at h
      obtain ⟨x, hx, heq⟩ := h
      cases heq
      exact ⟨fails, rfl, hx⟩
    · exact .inl h
  | claim r' id taskType =>
    simp only [step] at h
    split_ifs at h <;> exact .inl h
  | job n x r' request =>
    simp only [step] at h
    split_ifs at h <;> exact .inl h
  | sweep n =>
    simp only [step] at h
    split_ifs at h <;> exact .inl h
  | tick | create | jobStep | sweepStep => exact .inl h

variable {x : String × String}

theorem dispatched_mono (h : x ∈ s.dispatched) : x ∈ (step s e).dispatched := by
  rcases e with ⟨action, skew⟩
  cases action with
  | claimStep r' fails => exact mem_append_right _ h
  | claim r' id taskType =>
    simp only [step]
    split_ifs <;> exact h
  | job n x r' request =>
    simp only [step]
    split_ifs <;> exact h
  | sweep n =>
    simp only [step]
    split_ifs <;> exact h
  | tick | create | jobStep | sweepStep => exact h

/-! ### The invariant -/

/-- **Invariant**: the tables and what the calls know, at any time. -/
structure Base (s : State) : Prop where
  active : ∀ t ∈ s.db.tasks, t.status = .pending ∨ t.status = .running → t.activeKey = some t.type
  lockTask : ∀ l ∈ s.db.locks, ∃ t ∈ s.db.tasks, t.taskID = l.taskID ∧ t.type = l.type
  claimed : ∀ r c, (s.claims r).target = some c →
    ∃ t ∈ s.db.tasks, t.id = c.id ∧ t.taskID = c.taskID ∧ t.type = c.taskType
  unstarted : ∀ r c, (s.claims r).unstarted = some c →
    ∀ t ∈ s.db.tasks, t.taskID = c.taskID → t.status = .running → t.lockedBy ≠ r
  started : ∀ r c, s.claims r = .reload c → ∃ t ∈ s.db.tasks, t.id = c.id ∧ t.status ≠ .pending
  dispatched : ∀ taskID r, (taskID, r) ∈ s.dispatched →
    (∃ t ∈ s.db.tasks, t.taskID = taskID ∧ t.status ≠ .pending) ∧
      ∀ c, (s.claims r).acquiring = some c → c.taskID ≠ taskID
  jobs : ∀ n x, (s.jobs n).holder = some x → x ∈ s.dispatched
  finished : ∀ n taskID r, s.jobs n = .release taskID r →
    ∃ t ∈ s.db.tasks, t.taskID = taskID ∧ t.status ≠ .pending ∧ t.status ≠ .running

theorem base_init (now : Int) : Base (init now) where
  active := fun _ ht => nomatch ht
  lockTask := fun _ hl => nomatch hl
  claimed := fun _ _ h => nomatch h
  unstarted := fun _ _ h => nomatch h
  started := fun _ _ h => nomatch h
  dispatched := fun _ _ h => nomatch h
  jobs := fun _ _ h => nomatch h
  finished := fun _ _ _ h => nomatch h

variable {t' : SystemTask}

theorem active_step (hs : Base s) (ht' : t' ∈ (step s e).db.tasks)
    (hactive : t'.status = .pending ∨ t'.status = .running) : t'.activeKey = some t'.type := by
  rcases task_of_step ht' with ⟨t, ht, hchange⟩ | hnew
  · cases hchange with
    | stay same status activeKey lockedBy =>
      rw [activeKey, same.type]
      exact hs.active t ht (status ▸ hactive)
    | start r c action pc id type pending eq =>
      subst eq
      exact hs.active t ht (.inl pending)
    | stop same running ended =>
      rcases hactive with h | h
      · exact absurd h ended.1
      · exact absurd h ended.2
  · exact hnew.activeKey

theorem claimed_step (h : ∃ t ∈ s.db.tasks, t.id = c.id ∧ t.taskID = c.taskID ∧ t.type = c.taskType) :
    ∃ t ∈ (step s e).db.tasks, t.id = c.id ∧ t.taskID = c.taskID ∧ t.type = c.taskType := by
  obtain ⟨t, ht, hid, htask, htype⟩ := h
  obtain ⟨t', ht', hchange⟩ := task_step (e := e) ht
  exact ⟨t', ht', hchange.same.id.trans hid, hchange.same.taskID.trans htask, hchange.same.type.trans htype⟩

theorem lockTask_step (hs : Base s) {l' : SystemTaskLock} (hl' : l' ∈ (step s e).db.locks) :
    ∃ t ∈ (step s e).db.tasks, t.taskID = l'.taskID ∧ t.type = l'.type := by
  have hold : ∃ t ∈ s.db.tasks, t.taskID = l'.taskID ∧ t.type = l'.type := by
    cases lock_of_step hl' with
    | kept mem => exact hs.lockTask l' mem
    | acquired r c action pc eq =>
      subst eq
      obtain ⟨t, ht, -, htask, htype⟩ := hs.claimed r c (target_of_unstarted (unstarted_of_acquiring pc))
      exact ⟨t, ht, htask, htype⟩
    | renewed n lockUntil now l action pc mem live eq =>
      subst eq
      exact hs.lockTask l mem
  obtain ⟨t, ht, htask, htype⟩ := hold
  obtain ⟨t', ht', hchange⟩ := task_step (e := e) ht
  exact ⟨t', ht', hchange.same.taskID.trans htask, hchange.same.type.trans htype⟩

theorem not_pending_step (ht : t ∈ s.db.tasks) (h : t.status ≠ .pending) :
    ∃ t' ∈ (step s e).db.tasks, SameTask t t' ∧ t'.status ≠ .pending := by
  obtain ⟨t', ht', hchange⟩ := task_step (e := e) ht
  exact ⟨t', ht', hchange.same, fun hp => h (hchange.pending hp)⟩

theorem find_db (r : String) (db : TaskDB) (a : ClaimArgs) (now : Int) :
    (claimExec fails reading r db (.find a now)).1 = db := by
  simp only [claimExec]
  split
  · rfl
  · split <;> rfl

theorem step_db_of_claimStep {fails : Bool} (h : e.action = .claimStep r fails) :
    (step s e).db = (claimExec fails (s.now + e.skew) r s.db (s.claims r)).1 := by
  simp only [step, h]

theorem ended_step (h : ∃ t ∈ s.db.tasks, t.taskID = taskID ∧ t.status ≠ .pending ∧ t.status ≠ .running) :
    ∃ t ∈ (step s e).db.tasks, t.taskID = taskID ∧ t.status ≠ .pending ∧ t.status ≠ .running := by
  obtain ⟨t, ht, htask, hnot, hend⟩ := h
  obtain ⟨t', ht', hchange⟩ := task_step (e := e) ht
  refine ⟨t', ht', hchange.same.taskID.trans htask, ?_⟩
  cases hchange with
  | stay same status => exact status ▸ ⟨hnot, hend⟩
  | start r c action pc id type pending eq => exact absurd pending hnot
  | stop same running => exact absurd running hend

section

variable (hs : Base s)

include hs

theorem target_step (h : ((step s e).claims r).target = some c) :
    ∃ t ∈ (step s e).db.tasks, t.id = c.id ∧ t.taskID = c.taskID ∧ t.type = c.taskType := by
  refine claimed_step ?_
  rcases target_of_step h with hold | ⟨t, ht, hrow, -⟩
  · exact hs.claimed r c hold
  · exact ⟨t, ht, hrow⟩

/-- The runner's own claim is the only one that could start the task in its name. -/
theorem unstarted_step (h : ((step s e).claims r).unstarted = some c)
    (ht' : t' ∈ (step s e).db.tasks) (htask : t'.taskID = c.taskID) (hrun : t'.status = .running) :
    t'.lockedBy ≠ r := by
  -- the case of a claim that was there before: it must not be the one that starts the task
  have hgoOn : (s.claims r).unstarted = some c → (∀ c', e.action = .claimStep r false → s.claims r = .markRunning c' →
        ∀ t ∈ s.db.tasks, t.id = c'.id → t.type = c'.taskType → t.status ≠ .pending) → t'.lockedBy ≠ r := by
    intro hold hnot
    rcases task_of_step ht' with ⟨t, ht, hchange⟩ | hnew
    · cases hchange with
      | stay same status activeKey lockedBy =>
        rw [lockedBy]
        exact hs.unstarted r c hold t ht (same.taskID ▸ htask) (status ▸ hrun)
      | start r' c' action pc id type pending eq =>
        subst eq
        show r' ≠ r
        rintro rfl
        exact hnot c' action pc t ht id type pending
      | stop same running ended => exact absurd hrun ended.2
    · rw [hnew.pending] at hrun
      cases hrun
  cases claim_step s e r with
  | other eq idle =>
    refine hgoOn (eq ▸ h) fun c' haction _ => ?_
    exact absurd haction (idle false)
  | begin a action eq =>
    rw [eq] at h
    cases h
  | exec fails action eq =>
    rw [eq] at h
    cases hmove : claimExec_move fails (s.now + e.skew) r s.db (s.claims r) with
    | leave target =>
      rw [target_of_unstarted h] at target
      cases target
    | found a now t at_find mem id type pending eq' =>
      rw [eq'] at h
      cases h
      have hdb : (step s e).db = s.db := by
        rw [step_db_of_claimStep action, at_find, find_db]
      rw [hdb] at ht'
      rw [s.db.eq_of_taskID ht' mem htask, pending] at hrun
      cases hrun
    | goOn c' unstarted unstarted' acquiring =>
      rw [h] at unstarted'
      cases unstarted'
      refine hgoOn unstarted fun c' haction hpc t ht hid htype hpending => ?_
      rw [action] at haction
      cases haction
      have hany : s.db.tasks.any (TaskDB.claimable c'.id c'.taskType) = true :=
        any_eq_true.mpr ⟨t, ht, decide_eq_true ⟨hid, htype, hpending⟩⟩
      rw [hpc] at h
      simp only [claimExec, hany] at h
      cases h
    | started c' t pc_eq eq' fails mem id type pending =>
      rw [eq'] at h
      cases h

theorem started_step (h : (step s e).claims r = .reload c) :
    ∃ t ∈ (step s e).db.tasks, t.id = c.id ∧ t.status ≠ .pending := by
  cases claim_step s e r with
  | other eq =>
    obtain ⟨t, ht, hid, hnot⟩ := hs.started r c (eq ▸ h)
    obtain ⟨t', ht', hsame, hnot'⟩ := not_pending_step (e := e) ht hnot
    exact ⟨t', ht', hsame.id.trans hid, hnot'⟩
  | begin a action eq =>
    rw [eq] at h
    cases h
  | exec fails action eq =>
    rw [eq] at h
    cases claimExec_move fails (s.now + e.skew) r s.db (s.claims r) with
    | leave target =>
      rw [h] at target
      cases target
    | found a now t at_find mem id type pending eq' =>
      rw [eq'] at h
      cases h
    | goOn c' unstarted unstarted' acquiring =>
      rw [h] at unstarted'
      cases unstarted'
    | started c' t pc_eq eq' hfails mem id type pending =>
      rw [eq'] at h
      cases h
      subst hfails
      have hp : TaskDB.claimable c.id c.taskType t = true := decide_eq_true ⟨id, type, pending⟩
      have hany : s.db.tasks.any (TaskDB.claimable c.id c.taskType) = true := any_eq_true.mpr ⟨t, mem, hp⟩
      have hdb : (step s e).db = s.db.markRunning c.id c.taskType r c.now := by
        rw [step_db_of_claimStep action, pc_eq]
        simp only [claimExec, hany]
        rfl
      rw [hdb]
      refine ⟨_, mem_updateWhere.mpr ⟨t, mem, rfl⟩, ?_⟩
      rw [if_pos hp]
      exact ⟨id, fun h => by cases h⟩

theorem dispatch_step (h : (taskID, r) ∈ (step s e).dispatched) :
    (∃ t ∈ (step s e).db.tasks, t.taskID = taskID ∧ t.status ≠ .pending) ∧
      ∀ c, ((step s e).claims r).acquiring = some c → c.taskID ≠ taskID := by
  -- in both cases the task was not pending before, and the runner not acquiring it
  have hold : (∃ t ∈ s.db.tasks, t.taskID = taskID ∧ t.status ≠ .pending) ∧
      ∀ c, (s.claims r).acquiring = some c → c.taskID ≠ taskID := by
    rcases dispatched_step h with hold | ⟨fails, action, hdispatch⟩
    · exact hs.dispatched taskID r hold
    · obtain ⟨c, t, ht, hpc, hid, htask⟩ := claimExec_dispatch hdispatch
      obtain ⟨u, hu, huid, hnot⟩ := hs.started r c hpc
      rw [s.db.eq_of_id hu ht (huid.trans hid.symm)] at hnot
      refine ⟨⟨t, ht, htask, hnot⟩, ?_⟩
      intro c' hc'
      rw [hpc] at hc'
      cases hc'
  obtain ⟨⟨t, ht, htask, hnot⟩, hacq⟩ := hold
  obtain ⟨t', ht', hsame, hnot'⟩ := not_pending_step (e := e) ht hnot
  refine ⟨⟨t', ht', hsame.taskID.trans htask, hnot'⟩, ?_⟩
  intro c hpc
  rcases acquiring_of_step hpc with hold | ⟨u, hu, hutask, -, hpending⟩
  · exact hacq c hold
  · intro hc
    rw [s.db.eq_of_taskID hu ht (hutask.trans (hc.trans htask.symm))] at hpending
    exact hnot hpending

variable {n : ℕ}

theorem holder_step (h : ((step s e).jobs n).holder = some x) : x ∈ s.dispatched := by
  cases job_step s e n with
  | other eq => exact hs.jobs n x (eq ▸ h)
  | begin taskID r request mem eq =>
    rw [eq] at h
    cases h
    exact mem
  | exec fails action eq =>
    rw [eq] at h
    rcases jobExec_cases fails (s.now + e.skew) s.db (s.jobs n) with hidle | ⟨taskID, r, call, hpc, hnext⟩ |
      ⟨taskID, r, ending, result, error, now, hpc, -, hnext, -⟩
    · rw [hidle] at h
      cases h
    · rw [hnext] at h
      cases h
      exact hs.jobs n _ (by rw [hpc]; rfl)
    · rw [hnext] at h
      cases h
      exact hs.jobs n _ (by rw [hpc]; rfl)

theorem finished_step (h : (step s e).jobs n = .release taskID r) :
    ∃ t ∈ (step s e).db.tasks, t.taskID = taskID ∧ t.status ≠ .pending ∧ t.status ≠ .running := by
  cases job_step s e n with
  | other eq => exact ended_step (hs.finished n taskID r (eq ▸ h))
  | begin x r' request mem eq =>
    rw [eq] at h
    cases h
  | exec fails action eq =>
    rw [eq] at h
    rcases jobExec_cases fails (s.now + e.skew) s.db (s.jobs n) with hidle | ⟨x, r', call, hpc, hnext⟩ |
      ⟨x, r', ending, result, error, now, hpc, rfl, hnext, t, ht, hp⟩
    · rw [hidle] at h
      cases h
    · rw [hnext] at h
      cases h
    · rw [hnext] at h
      cases h
      have hdb : (step s e).db = s.db.finish taskID r ending.status result error now := by
        simp only [step, action, hpc]
        rfl
      rw [hdb]
      refine ⟨_, mem_updateWhere.mpr ⟨t, ht, rfl⟩, ?_⟩
      rw [if_pos hp]
      exact ⟨(writable_iff.mp hp).1.1, ending_status ending⟩

/-- **Step**: no action breaks the invariant. -/
theorem base_step (e : Event) : Base (step s e) where
  active := fun _ ht => active_step hs ht
  lockTask := fun _ hl => lockTask_step hs hl
  claimed := fun _ _ h => target_step hs h
  unstarted := fun _ _ h _ ht => unstarted_step hs h ht
  started := fun _ _ h => started_step hs h
  dispatched := fun _ _ h => dispatch_step hs h
  jobs := fun _ _ h => dispatched_mono (holder_step hs h)
  finished := fun _ _ _ h => finished_step hs h

/-- **Run**: it holds in every interleaving. -/
theorem base_run (es : List Event) : Base (run step s es) :=
  run_inv (I := Base) (fun _ e hs _ => base_step hs e) hs (along_of_forall (fun (_ : Event) _ => trivial) s)

end

end WynthApi.Tasks

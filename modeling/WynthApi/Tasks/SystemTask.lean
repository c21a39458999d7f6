import Mathlib.Data.List.Nodup
import WynthApi.Lib.Run
import WynthApi.Lib.Table

/-!
# System tasks and their locks (model/system_task.go, service/system_task.go)

Runners, one for each process, claim pending rows; a claim takes the lock of the task's type, a row of another
table, and then marks the task running.  While its handler runs, a heartbeat renews the lock; at last the task is
finished and the lock released.  `ExpireStaleSystemTaskLocks` fails the tasks of locks that ran out, and deletes
the locks.

One step is one statement, so a call may stop anywhere.  A reading of a clock is the time, off by some `skew`.
A runner makes one claim at a time; `dispatched` keeps those that succeeded, and only these have handlers and
heartbeats.
-/

namespace WynthApi.Tasks

open Table StepSys

/-! ### Rows -/

inductive SystemTaskStatus where
  | pending
  | running
  | succeeded
  | failed
  deriving DecidableEq

structure SystemTask where
  id : ℕ
  (taskID type : String)
  status : SystemTaskStatus
  activeKey : Option String
  (payload state result error lockedBy : String)
  (createdAt updatedAt : Int)
  deriving DecidableEq

structure SystemTaskLock where
  (type taskID lockedBy : String)
  (lockedUntil updatedAt : Int)
  deriving DecidableEq

@[ext] structure TaskDB where
  tasks : List SystemTask
  locks : List SystemTaskLock
  ids : (tasks.map (·.id)).Nodup
  taskIDs : (tasks.map (·.taskID)).Nodup
  activeKeys : (tasks.filterMap (·.activeKey)).Nodup
  lockTypes : (locks.map (·.type)).Nodup

def SystemTask.KeepsKeys (f : SystemTask → SystemTask) : Prop :=
  ∀ t, (f t).id = t.id ∧ (f t).taskID = t.taskID ∧ ((f t).activeKey = t.activeKey ∨ (f t).activeKey = none)

namespace TaskDB

def empty : TaskDB := ⟨[], [], .nil, .nil, .nil, .nil⟩

variable (db : TaskDB)

def updateTasks (p : SystemTask → Bool) (f : SystemTask → SystemTask)
    (hf : SystemTask.KeepsKeys f) : TaskDB :=
  { db with
    tasks := updateWhere p f db.tasks
    ids := by
      rw [map_updateWhere fun t => (hf t).1]
      exact db.ids
    taskIDs := by
      rw [map_updateWhere fun t => (hf t).2.1]
      exact db.taskIDs
    activeKeys := (filterMap_updateWhere fun t => (hf t).2.2).nodup db.activeKeys }

def nextID : ℕ := (db.tasks.map (·.id)).foldr max 0 + 1

theorem lt_nextID : ∀ t ∈ db.tasks, t.id < db.nextID := by
  intro t ht
  have hle : ∀ (l : List ℕ), t.id ∈ l → t.id ≤ l.foldr max 0 := by
    intro l hl
    induction l with
    | nil => cases hl
    | cons n l ih =>
      rcases List.mem_cons.mp hl with rfl | hl
      · exact le_max_left _ _
      · exact (ih hl).trans (le_max_right _ _)
  exact Nat.lt_succ_of_le (hle _ (List.mem_map_of_mem ht))

def insertTask (t : SystemTask) (hid : ∀ u ∈ db.tasks, u.id ≠ t.id)
    (htask : ∀ u ∈ db.tasks, u.taskID ≠ t.taskID)
    (hactive : ∀ u ∈ db.tasks, u.activeKey = none ∨ u.activeKey ≠ t.activeKey) : TaskDB :=
  { db with
    tasks := db.tasks ++ [t]
    ids := nodup_map_append db.ids hid
    taskIDs := nodup_map_append db.taskIDs htask
    activeKeys := nodup_filterMap_append db.activeKeys hactive }

def insertLock (l : SystemTaskLock) (h : ∀ m ∈ db.locks, m.type ≠ l.type) : TaskDB :=
  { db with
    locks := db.locks ++ [l]
    lockTypes := nodup_map_append db.lockTypes h }

def updateLocks (p : SystemTaskLock → Bool) (f : SystemTaskLock → SystemTaskLock)
    (hf : ∀ l, (f l).type = l.type) : TaskDB :=
  { db with
    locks := updateWhere p f db.locks
    lockTypes := by
      rw [map_updateWhere hf]
      exact db.lockTypes }

def deleteLocks (p : SystemTaskLock → Bool) : TaskDB :=
  { db with
    locks := deleteWhere p db.locks
    lockTypes := db.lockTypes.sublist ((List.filter_sublist).map _) }

/-! ### Statements -/

def createSystemTask (taskType taskID payload state : String) (now : Int) (db : TaskDB) : TaskDB :=
  if h : (∀ u ∈ db.tasks, u.taskID ≠ taskID) ∧ ∀ u ∈ db.tasks, u.activeKey ≠ some taskType then
    db.insertTask
      { id := db.nextID, taskID, type := taskType, status := .pending,
        activeKey := some taskType, payload, state, result := "", error := "",
        lockedBy := "", createdAt := now, updatedAt := now }
      (fun u hu => (db.lt_nextID u hu).ne) h.1 (fun u hu => .inr (h.2 u hu))
  else db

def claimable (id : ℕ) (taskType : String) (t : SystemTask) : Bool :=
  decide (t.id = id ∧ t.type = taskType ∧ t.status = .pending)

def markRunning (id : ℕ) (taskType runnerID : String) (now : Int) (db : TaskDB) : TaskDB :=
  db.updateTasks (claimable id taskType)
    (fun t => { t with status := .running, lockedBy := runnerID, updatedAt := now })
    (fun _ => ⟨rfl, rfl, .inl rfl⟩)

/-- The `UPDATE` that takes over a lock of `acquireSystemTaskLock`. -/
def takeLock (taskType taskID lockedBy : String) (now lockUntil : Int) (db : TaskDB) : TaskDB :=
  db.updateLocks (fun l => decide (l.type = taskType ∧ l.lockedUntil < now))
    (fun l => { l with
      taskID, lockedBy, lockedUntil := lockUntil, updatedAt := now })
    (fun _ => rfl)

variable (taskID lockedBy : String) (now : Int)

def locked : Bool :=
  db.locks.any fun l => decide (l.taskID = taskID ∧ l.lockedBy = lockedBy ∧ l.lockedUntil ≥ now)

def writable (t : SystemTask) : Bool :=
  decide (t.taskID = taskID ∧ t.status = .running ∧ t.lockedBy = lockedBy) &&
    db.locked t.taskID lockedBy now

def updateState (taskID lockedBy state : String) (now : Int) (db : TaskDB) : TaskDB :=
  db.updateTasks (db.writable taskID lockedBy now) (fun t => { t with state, updatedAt := now })
    (fun _ => ⟨rfl, rfl, .inl rfl⟩)

def finish (status : SystemTaskStatus) (result error : String) (now : Int) (db : TaskDB) : TaskDB :=
  db.updateTasks (db.writable taskID lockedBy now)
    (fun t => { t with
      status, activeKey := none, result, error, updatedAt := now })
    (fun _ => ⟨rfl, rfl, .inr rfl⟩)

def renewable (l : SystemTaskLock) : Bool :=
  decide (l.taskID = taskID ∧ l.lockedBy = lockedBy ∧ l.lockedUntil ≥ now)

def renewLock (lockUntil now : Int) (db : TaskDB) : TaskDB :=
  db.updateLocks (renewable taskID lockedBy now)
    (fun l => { l with lockedUntil := lockUntil, updatedAt := now }) (fun _ => rfl)

def markSystemTaskLeaseExpired (taskID : String) (now : Int) (db : TaskDB) : TaskDB :=
  db.updateTasks (fun t => decide (t.taskID = taskID ∧ t.status = .running))
    (fun t => { t with
      status := .failed, activeKey := none, error := "task lease expired", updatedAt := now })
    (fun _ => ⟨rfl, rfl, .inr rfl⟩)

def releaseSystemTaskLock (db : TaskDB) : TaskDB :=
  db.deleteLocks fun l => decide (l.taskID = taskID ∧ l.lockedBy = lockedBy)

def deleteStale (lock : SystemTaskLock) (now : Int) (db : TaskDB) : TaskDB :=
  db.deleteLocks fun l => decide (l.type = lock.type ∧ l.taskID = lock.taskID ∧
    l.lockedBy = lock.lockedBy ∧ l.lockedUntil < now)

end TaskDB

/-! ### Claims -/

structure ClaimArgs where
  id : ℕ
  taskType : String
  lockUntil : Int
  deriving DecidableEq

structure Claim extends ClaimArgs where
  now : Int
  taskID : String
  deriving DecidableEq

inductive ClaimPc where
  | idle
  | clock (a : ClaimArgs)
  | find (a : ClaimArgs) (now : Int)
  | insertLock (c : Claim)
  | readLock (c : Claim)
  | takeLock (c : Claim) (expiredTaskID : String)
  | markExpired (c : Claim) (expiredTaskID : String)
  | markRunning (c : Claim)
  | release (c : Claim)
  | reload (c : Claim)
  deriving DecidableEq

def Claim.lock (c : Claim) (runnerID : String) : SystemTaskLock :=
  { type := c.taskType, taskID := c.taskID, lockedBy := runnerID, lockedUntil := c.lockUntil,
    updatedAt := c.now }

variable (fails : Bool) (reading : Int)

/-- One statement of `ClaimSystemTask`; `reading` is the process's clock.  At the end comes the `task_id` of a
task to dispatch. -/
def claimExec (runnerID : String) (db : TaskDB) :
    ClaimPc → TaskDB × ClaimPc × Option String
  | .idle => (db, .idle, none)
  | .clock a => (db, .find a reading, none)
  | .find a now =>
    if fails then (db, .idle, none)
    else
      match db.tasks.find? (TaskDB.claimable a.id a.taskType) with
      | none => (db, .idle, none)
      | some task => (db, .insertLock { a with now, taskID := task.taskID }, none)
  | .insertLock c =>
    if h : fails = false ∧ ∀ m ∈ db.locks, m.type ≠ c.taskType then
      (db.insertLock (c.lock runnerID) h.2, .markRunning c, none)
    else (db, .readLock c, none)
  | .readLock c =>
    if fails then (db, .idle, none)
    else
      match db.locks.find? (fun l => decide (l.type = c.taskType)) with
      | none => (db, .idle, none)
      | some existing =>
        if existing.lockedUntil ≥ c.now then (db, .idle, none)
        else (db, .takeLock c existing.taskID, none)
  | .takeLock c expiredTaskID =>
    if fails then (db, .idle, none)
    else if db.locks.any (fun l => decide (l.type = c.taskType ∧ l.lockedUntil < c.now)) then
      (db.takeLock c.taskType c.taskID runnerID c.now c.lockUntil,
        if expiredTaskID ≠ "" ∧ expiredTaskID ≠ c.taskID then .markExpired c expiredTaskID
        else .markRunning c, none)
    else (db, .idle, none)
  | .markExpired c expiredTaskID =>
    if fails then (db, .release c, none)
    else (db.markSystemTaskLeaseExpired expiredTaskID reading, .markRunning c, none)
  | .markRunning c =>
    if fails then (db, .release c, none)
    else if db.tasks.any (TaskDB.claimable c.id c.taskType) then
      (db.markRunning c.id c.taskType runnerID c.now, .reload c, none)
    else (db, .release c, none)
  | .release c => (if fails then db else db.releaseSystemTaskLock c.taskID runnerID, .idle, none)
  | .reload c =>
    if fails then (db, .idle, none)
    else
      match db.tasks.find? (fun t => decide (t.id = c.id)) with
      | none => (db, .idle, none)
      | some task => (db, .idle, some task.taskID)

/-! ### Handlers and heartbeats -/

inductive Ending where
  | succeeded
  | failed
  deriving DecidableEq

def Ending.status : Ending → SystemTaskStatus
  | .succeeded => .succeeded
  | .failed => .failed

inductive JobCall where
  | update (state : String)
  | renew (lockUntil : Int)
  | finish (ending : Ending) (result error : String)
  deriving DecidableEq

inductive JobPc where
  | idle
  | clock (taskID lockedBy : String) (call : JobCall)
  | write (taskID lockedBy : String) (call : JobCall) (now : Int)
  | release (taskID lockedBy : String)
  deriving DecidableEq

/-- The `UPDATE` of a call, and whether it affects a row: if not, the call returns `ErrSystemTaskLockLost`. -/
def JobCall.write (taskID lockedBy : String) (now : Int) (db : TaskDB) : JobCall → TaskDB × Bool
  | .update state =>
    (db.updateState taskID lockedBy state now, db.tasks.any (db.writable taskID lockedBy now))
  | .renew lockUntil =>
    (db.renewLock taskID lockedBy lockUntil now, db.locks.any (TaskDB.renewable taskID lockedBy now))
  | .finish ending result error =>
    (db.finish taskID lockedBy ending.status result error now,
      db.tasks.any (db.writable taskID lockedBy now))

/-- Whether a call goes on after its `UPDATE`: a finish releases the lock. -/
def JobCall.releases : JobCall → Bool
  | .finish _ _ _ => true
  | _ => false

def jobExec (db : TaskDB) : JobPc → TaskDB × JobPc
  | .idle => (db, .idle)
  | .clock taskID lockedBy call => (db, .write taskID lockedBy call reading)
  | .write taskID lockedBy call now =>
    if fails then (db, .idle)
    else
      let done := call.write taskID lockedBy now db
      (done.1, if done.2 && call.releases then .release taskID lockedBy else .idle)
  | .release taskID lockedBy => (if fails then db else db.releaseSystemTaskLock taskID lockedBy, .idle)

/-! ### The expirer -/

inductive SweepPc where
  | idle
  | find (now : Int)
  | mark (now : Int) (lock : SystemTaskLock) (rest : List SystemTaskLock)
  | delete (now : Int) (lock : SystemTaskLock) (rest : List SystemTaskLock)
  deriving DecidableEq

def SweepPc.turn (now : Int) : List SystemTaskLock → SweepPc
  | [] => .idle
  | lock :: rest => .mark now lock rest

def sweepExec (db : TaskDB) : SweepPc → TaskDB × SweepPc
  | .idle => (db, .idle)
  | .find now =>
    if fails then (db, .idle)
    else (db, .turn now (db.locks.filter fun l => decide (l.lockedUntil < now)))
  | .mark now lock rest =>
    if fails then (db, .idle)
    else (db.markSystemTaskLeaseExpired lock.taskID reading, .delete now lock rest)
  | .delete now lock rest =>
    if fails then (db, .idle) else (db.deleteStale lock now, .turn now rest)

/-! ### Interleavings -/

/-- The tables, the time, and what the runners, the calls of handlers and heartbeats, and the sweeps are
doing. -/
structure State where
  db : TaskDB
  now : Int
  claims : String → ClaimPc
  jobs : ℕ → JobPc
  sweeps : ℕ → SweepPc
  dispatched : List (String × String)

def init (now : Int) : State :=
  { db := .empty, now, claims := fun _ => .idle, jobs := fun _ => .idle, sweeps := fun _ => .idle,
    dispatched := [] }

namespace State

variable (s : State)

def setClaim (runnerID : String) (pc : ClaimPc) : State :=
  { s with claims := Function.update s.claims runnerID pc }

variable (n : ℕ)

def setJob (pc : JobPc) : State := { s with jobs := Function.update s.jobs n pc }

def setSweep (pc : SweepPc) : State :=
  { s with sweeps := Function.update s.sweeps n pc }

end State

def systemTaskLockTTL : Int := 60

inductive Request where
  | update (state : String)
  | renew
  | finish (ending : Ending) (result error : String)
  deriving DecidableEq

def Request.call : Request → JobCall
  | .update state => .update state
  | .renew => .renew (reading + systemTaskLockTTL)
  | .finish ending result error => .finish ending result error

inductive Action where
  | tick (seconds : ℕ)
  | create (taskType taskID payload state : String)
  | claim (runnerID : String) (id : ℕ) (taskType : String)
  | claimStep (runnerID : String) (fails : Bool)
  | job (n : ℕ) (taskID runnerID : String) (request : Request)
  | jobStep (n : ℕ) (fails : Bool)
  | sweep (n : ℕ)
  | sweepStep (n : ℕ) (fails : Bool)
  deriving DecidableEq

/-- An action of a process whose clock is off by `skew`. -/
structure Event where
  action : Action
  skew : Int
  deriving DecidableEq

def onTime (actions : List Action) : List Event := actions.map fun action => ⟨action, 0⟩

def step (s : State) (e : Event) : State :=
  let reading := s.now + e.skew
  match e.action with
  | .tick seconds => { s with now := s.now + seconds }
  | .create taskType taskID payload state =>
    { s with db := s.db.createSystemTask taskType taskID payload state reading }
  | .claim runnerID id taskType =>
    if s.claims runnerID = .idle then
      s.setClaim runnerID (.clock ⟨id, taskType, reading + systemTaskLockTTL⟩)
    else s
  | .claimStep runnerID fails =>
    let done := claimExec fails reading runnerID s.db (s.claims runnerID)
    { s.setClaim runnerID done.2.1 with
      db := done.1
      dispatched := (done.2.2.map fun taskID => (taskID, runnerID)).toList ++ s.dispatched }
  | .job n taskID runnerID request =>
    if s.jobs n = .idle ∧ (taskID, runnerID) ∈ s.dispatched then
      s.setJob n (.clock taskID runnerID (request.call reading))
    else s
  | .jobStep n fails =>
    let done := jobExec fails reading s.db (s.jobs n)
    { s.setJob n done.2 with db := done.1 }
  | .sweep n => if s.sweeps n = .idle then s.setSweep n (.find reading) else s
  | .sweepStep n fails =>
    let done := sweepExec fails reading s.db (s.sweeps n)
    { s.setSweep n done.2 with db := done.1 }

end WynthApi.Tasks

import Mathlib.Data.Int.Order.Basic
import WynthApi.Lib.GoText
import WynthApi.Lib.Run
import WynthApi.Lib.Threads

/-!
# The leases of background workers (model/account_pool_worker_lease.go)

A worker that must run once in the whole deployment holds a row of `account_pool_worker_leases`.  Every acquire,
renewal and release is a thread; one step is one statement, so the database's time, which a call reads first, may be
old when its later statements run.  A statement is atomic; it may fail, and it may run without its answer coming back.
-/

namespace WynthApi.Pool.Worker

open StepSys Threads GoText

/-! ### The table -/

structure AccountPoolWorkerLease where
  ownerID : String
  (expiresAt updatedAt : Int)
  deriving DecidableEq

/-- How a database counts the rows that an `UPDATE` affected: those it matched, or those it changed
(MySQL, unless the connection asks otherwise). -/
inductive Counting where
  | matched
  | changed
  deriving DecidableEq

def Counting.affected (old new : AccountPoolWorkerLease) : Counting → Bool
  | .matched => true
  | .changed => decide (old ≠ new)

structure WorkerDB where
  now : Int
  leases : String → Option AccountPoolWorkerLease

variable {db : WorkerDB} {counting : Counting}

def WorkerDB.set (db : WorkerDB) (leaseKey : String) (lease : Option AccountPoolWorkerLease) : WorkerDB :=
  { db with leases := Function.update db.leases leaseKey lease }

@[simp] theorem WorkerDB.set_leases_self (leaseKey : String) (lease : Option AccountPoolWorkerLease) :
    (db.set leaseKey lease).leases leaseKey = lease := by
  simp [WorkerDB.set]

theorem WorkerDB.set_leases_ne {leaseKey other : String} (h : other ≠ leaseKey)
    (lease : Option AccountPoolWorkerLease) : (db.set leaseKey lease).leases other = db.leases other := by
  simp [WorkerDB.set, h]

/-- `UPDATE … WHERE lease_key = leaseKey AND p`, and whether it affected a row. -/
def updateLease (counting : Counting) (leaseKey : String) (p : AccountPoolWorkerLease → Bool)
    (f : AccountPoolWorkerLease → AccountPoolWorkerLease) (db : WorkerDB) : WorkerDB × Bool :=
  match db.leases leaseKey with
  | none => (db, false)
  | some old =>
    if p old then (db.set leaseKey (some (f old)), counting.affected old (f old)) else (db, false)

def createLease (leaseKey : String) (lease : AccountPoolWorkerLease) (db : WorkerDB) : WorkerDB × Bool :=
  match db.leases leaseKey with
  | none => (db.set leaseKey (some lease), true)
  | some _ => (db, false)

def deleteLease (leaseKey ownerID : String) (db : WorkerDB) : WorkerDB × Bool :=
  match db.leases leaseKey with
  | none => (db, false)
  | some old => if old.ownerID = ownerID then (db.set leaseKey none, true) else (db, false)

/-! ### Calls -/

def maxInt64 : Int := 9223372036854775807

def accountPoolWorkerLeaseExpiry (now ttlSeconds : Int) : Int :=
  if now > maxInt64 - ttlSeconds then maxInt64 else now + ttlSeconds

structure Ask where
  (leaseKey ownerID : String)
  ttlSeconds : Int
  deriving DecidableEq

def Ask.lease (a : Ask) (now : Int) : AccountPoolWorkerLease :=
  { ownerID := a.ownerID
    expiresAt := accountPoolWorkerLeaseExpiry now a.ttlSeconds
    updatedAt := now }

inductive Pc where
  | idle
  | acquireNow (a : Ask)
  | acquireUpdate (a : Ask) (now : Int)
  | acquireCreate (a : Ask) (now : Int)
  | acquireTake (a : Ask) (now : Int)
  | renewNow (a : Ask)
  | renewUpdate (a : Ask) (now : Int)
  | releaseDelete (leaseKey ownerID : String)
  deriving DecidableEq

inductive LeaseError where
  | leaseArguments
  | releaseArguments
  | invalidTimestamp
  | database
  deriving DecidableEq

def LeaseError.message : LeaseError → String
  | .leaseArguments => "account pool worker lease key, owner, and TTL are required"
  | .releaseArguments => "account pool worker lease key and owner are required"
  | .invalidTimestamp => "database returned an invalid timestamp"
  | .database => "database error"

inductive Next where
  | goto (pc : Pc)
  | ret (answer : Except LeaseError Bool)

inductive Call where
  | acquire (leaseKey ownerID : String) (ttlSeconds : Int)
  | renew (leaseKey ownerID : String) (ttlSeconds : Int)
  | release (leaseKey ownerID : String)
  deriving DecidableEq

def askLease (leaseKey ownerID : String) (ttlSeconds : Int) (first : Ask → Pc) : Next :=
  if trimSpace leaseKey = "" ∨ trimSpace ownerID = "" ∨ ttlSeconds ≤ 0 then
    .ret (.error .leaseArguments)
  else
    .goto (first ⟨trimSpace leaseKey, trimSpace ownerID, ttlSeconds⟩)

def Call.start : Call → Next
  | .acquire leaseKey ownerID ttlSeconds => askLease leaseKey ownerID ttlSeconds .acquireNow
  | .renew leaseKey ownerID ttlSeconds => askLease leaseKey ownerID ttlSeconds .renewNow
  | .release leaseKey ownerID =>
    if trimSpace leaseKey = "" ∨ trimSpace ownerID = "" then .ret (.error .releaseArguments)
    else .goto (.releaseDelete (trimSpace leaseKey) (trimSpace ownerID))

/-- What becomes of a statement: it runs, it fails, or it runs and its answer is lost. -/
inductive Fate where
  | runs
  | fails
  | unanswered
  deriving DecidableEq

def Fate.apply (db : WorkerDB) (done : WorkerDB × Bool) : Fate → WorkerDB × Option Bool
  | .runs => (done.1, some done.2)
  | .fails => (db, none)
  | .unanswered => (done.1, none)

def getDBTimestamp (db : WorkerDB) : Fate → Except LeaseError Int
  | .runs => if db.now ≤ 0 then .error .invalidTimestamp else .ok db.now
  | _ => .error .database

/-- The first `UPDATE` of `AcquireAccountPoolWorkerLease`: the owner's own row, or one that ran out. -/
def Ask.acquireUpdate (counting : Counting) (a : Ask) (now : Int) (db : WorkerDB) : WorkerDB × Bool :=
  updateLease counting a.leaseKey
    (fun lease => decide (lease.ownerID = a.ownerID ∨ lease.expiresAt ≤ now))
    (fun _ => a.lease now) db

/-- The `UPDATE` of `RenewAccountPoolWorkerLease`: the owner's own row, before it runs out. -/
def Ask.renewUpdate (counting : Counting) (a : Ask) (now : Int) (db : WorkerDB) : WorkerDB × Bool :=
  updateLease counting a.leaseKey
    (fun lease => decide (lease.ownerID = a.ownerID ∧ lease.expiresAt > now))
    (fun lease => { lease with
      expiresAt := accountPoolWorkerLeaseExpiry now a.ttlSeconds, updatedAt := now }) db

def exec (counting : Counting) (fate : Fate) (db : WorkerDB) : Pc → WorkerDB × Next
  | .idle => (db, .goto .idle)
  | .acquireNow a =>
    match getDBTimestamp db fate with
    | .error err => (db, .ret (.error err))
    | .ok now => (db, .goto (.acquireUpdate a now))
  | .acquireUpdate a now =>
    let done := fate.apply db (a.acquireUpdate counting now db)
    match done.2 with
    | none => (done.1, .ret (.error .database))
    | some true => (done.1, .ret (.ok true))
    | some false => (done.1, .goto (.acquireCreate a now))
  | .acquireCreate a now =>
    let done := fate.apply db (createLease a.leaseKey (a.lease now) db)
    match done.2 with
    | some true => (done.1, .ret (.ok true))
    | _ => (done.1, .goto (.acquireTake a now))
  | .acquireTake a now =>
    match fate, db.leases a.leaseKey with
    | .runs, some existing =>
      (db, .ret (.ok (decide (existing.ownerID = a.ownerID ∧ existing.expiresAt > now))))
    | _, _ => (db, .ret (.error .database))
  | .renewNow a =>
    match getDBTimestamp db fate with
    | .error err => (db, .ret (.error err))
    | .ok now => (db, .goto (.renewUpdate a now))
  | .renewUpdate a now =>
    let done := fate.apply db (a.renewUpdate counting now db)
    match done.2 with
    | none => (done.1, .ret (.error .database))
    | some affected => (done.1, .ret (.ok affected))
  | .releaseDelete leaseKey ownerID =>
    let done := fate.apply db (deleteLease leaseKey ownerID db)
    match done.2 with
    | none => (done.1, .ret (.error .database))
    | some affected => (done.1, .ret (.ok affected))

/-! ### Interleavings -/

abbrev State := Sys WorkerDB Pc

def init (now : Int) : State := ⟨⟨now, fun _ => none⟩, fun _ => .idle⟩

inductive Event where
  | tick (seconds : ℕ)
  | call (i : ℕ) (c : Call)
  | exec (i : ℕ) (fate : Fate)
  deriving DecidableEq

def step (counting : Counting) (s : State) : Event → State
  | .tick seconds => ⟨{ s.shared with now := s.shared.now + seconds }, s.thread⟩
  | .call i c =>
    match s.thread i, c.start with
    | .idle, .goto pc => s.put i s.shared pc
    | _, _ => s
  | .exec i fate =>
    match exec counting fate s.shared (s.thread i) with
    | (db, .goto pc) => s.put i db pc
    | (db, .ret _) => s.put i db .idle

def Pc.ask : Pc → Option Ask
  | .acquireNow a | .acquireUpdate a _ | .acquireCreate a _ | .acquireTake a _ => some a
  | .renewNow a | .renewUpdate a _ => some a
  | _ => none

def granted (counting : Counting) (s : State) : Event → Option Ask
  | .exec i fate =>
    match (exec counting fate s.shared (s.thread i)).2 with
    | .ret (.ok true) => (s.thread i).ask
    | _ => none
  | _ => none

variable (s : State)

def expiresAt (leaseKey : String) : Option Int := (s.shared.leases leaseKey).map (·.expiresAt)

def releases (leaseKey ownerID : String) : Event → Prop
  | .exec i _ => s.thread i = .releaseDelete leaseKey ownerID
  | _ => False

def Pc.write : Pc → Option (Ask × Int)
  | .acquireUpdate a now | .acquireCreate a now | .renewUpdate a now => some (a, now)
  | _ => none

def Pc.read : Pc → Option Int
  | .acquireUpdate _ now | .acquireCreate _ now | .acquireTake _ now | .renewUpdate _ now => some now
  | _ => none

/-- The event is a write of `ownerID` itself that would let its lease run out before `expiry`: its
call read the clock too long ago, or has a short TTL. -/
def shortens (leaseKey ownerID : String) (expiry : Int) : Event → Prop
  | .exec i _ => ∃ w ∈ (s.thread i).write, w.1.leaseKey = leaseKey ∧ w.1.ownerID = ownerID ∧
      (w.1.lease w.2).expiresAt < expiry
  | _ => False

instance (s : State) (leaseKey ownerID : String) (e : Event) : Decidable (releases s leaseKey ownerID e) := by
  unfold releases
  split <;> infer_instance

instance (s : State) (leaseKey ownerID : String) (expiry : Int) (e : Event) :
    Decidable (shortens s leaseKey ownerID expiry e) := by
  unfold shortens
  split <;> infer_instance

/-! ### What a statement does -/

section Exec

variable {fate : Fate} {pc : Pc} {a : Ask} {now : Int}

def Ask.May (a : Ask) (now : Int) (db : WorkerDB) : Prop :=
  ∀ old, db.leases a.leaseKey = some old → old.ownerID = a.ownerID ∨ old.expiresAt ≤ now

/-- The three writes of a row leave the table as it is, or set the row that they may write. -/
def Ask.Wrote (a : Ask) (now : Int) (db : WorkerDB) (done : WorkerDB × Bool) : Prop :=
  (done = (db, false) ∨ a.May now db ∧ done.1 = db.set a.leaseKey (some (a.lease now)))

theorem acquireUpdate_wrote : a.Wrote now db (a.acquireUpdate counting now db) := by
  unfold Ask.acquireUpdate updateLease
  cases hrow : db.leases a.leaseKey with
  | none => exact .inl rfl
  | some old =>
    by_cases hp : old.ownerID = a.ownerID ∨ old.expiresAt ≤ now
    · refine .inr ⟨?_, by simp [hp]⟩
      intro old' hold'
      rw [hrow] at hold'
      cases hold'
      exact hp
    · exact .inl (by simp [hp])

theorem createLease_wrote : a.Wrote now db (createLease a.leaseKey (a.lease now) db) := by
  unfold createLease
  cases hrow : db.leases a.leaseKey with
  | none =>
    refine .inr ⟨?_, rfl⟩
    intro old hold
    rw [hrow] at hold
    cases hold
  | some old => exact .inl rfl

theorem renewUpdate_wrote : a.Wrote now db (a.renewUpdate counting now db) := by
  unfold Ask.renewUpdate updateLease
  cases hrow : db.leases a.leaseKey with
  | none => exact .inl rfl
  | some old =>
    by_cases hp : old.ownerID = a.ownerID ∧ old.expiresAt > now
    · refine .inr ⟨?_, by simp [hp, Ask.lease]⟩
      intro old' hold'
      rw [hrow] at hold'
      cases hold'
      exact .inl hp.1
    · exact .inl (by simp [hp])

variable {done : WorkerDB × Bool}

theorem Ask.Wrote.apply (h : a.Wrote now db done) : (fate.apply db done).1 = db ∨
      a.May now db ∧ (fate.apply db done).1 = db.set a.leaseKey (some (a.lease now)) := by
  cases fate with
  | fails => exact .inl rfl
  | runs | unanswered =>
    rcases h with h | h
    · exact .inl (congrArg Prod.fst h)
    · exact .inr h

theorem exec_db (counting : Counting) (fate : Fate) (db : WorkerDB) (pc : Pc) :
    (exec counting fate db pc).1 = match pc with
      | .acquireUpdate a now => (fate.apply db (a.acquireUpdate counting now db)).1
      | .acquireCreate a now => (fate.apply db (createLease a.leaseKey (a.lease now) db)).1
      | .renewUpdate a now => (fate.apply db (a.renewUpdate counting now db)).1
      | .releaseDelete leaseKey ownerID => (fate.apply db (deleteLease leaseKey ownerID db)).1
      | _ => db := by
  cases pc with
  | idle => rfl
  | _ =>
    simp only [exec]
    split <;> rfl

theorem exec_cases (counting : Counting) (fate : Fate) (db : WorkerDB) (pc : Pc) :
    (exec counting fate db pc).1 = db ∨ (∃ a now, pc.write = some (a, now) ∧ a.May now db ∧
        (exec counting fate db pc).1 = db.set a.leaseKey (some (a.lease now))) ∨
      ∃ leaseKey ownerID old, pc = .releaseDelete leaseKey ownerID ∧ db.leases leaseKey = some old ∧
        old.ownerID = ownerID ∧ (exec counting fate db pc).1 = db.set leaseKey none := by
  rw [exec_db]
  cases pc with
  | idle | acquireNow | renewNow | acquireTake => exact .inl rfl
  | acquireUpdate a now =>
    rcases acquireUpdate_wrote.apply with h | h
    · exact .inl h
    · exact .inr (.inl ⟨a, now, rfl, h⟩)
  | acquireCreate a now =>
    rcases createLease_wrote.apply with h | h
    · exact .inl h
    · exact .inr (.inl ⟨a, now, rfl, h⟩)
  | renewUpdate a now =>
    rcases renewUpdate_wrote.apply with h | h
    · exact .inl h
    · exact .inr (.inl ⟨a, now, rfl, h⟩)
  | releaseDelete leaseKey ownerID =>
    cases fate with
    | fails => exact .inl rfl
    | runs | unanswered =>
      simp only [Fate.apply, deleteLease]
      cases hrow : db.leases leaseKey with
      | none => exact .inl rfl
      | some old =>
        by_cases hown : old.ownerID = ownerID
        · exact .inr (.inr ⟨leaseKey, ownerID, old, rfl, hrow, hown, by simp [hown]⟩)
        · exact .inl (by simp [hown])

theorem exec_now (counting : Counting) (fate : Fate) (db : WorkerDB) (pc : Pc) :
    (exec counting fate db pc).1.now = db.now := by
  rcases exec_cases counting fate db pc with h | ⟨a, now, -, -, h⟩ | ⟨k, o, old, -, -, -, h⟩ <;> rw [h] <;>
    rfl

theorem Ask.Wrote.answered (h : a.Wrote now db done) (htrue : (fate.apply db done).2 = some true) :
    a.May now db ∧ (fate.apply db done).1.leases a.leaseKey = some (a.lease now) := by
  cases fate with
  | fails | unanswered => cases htrue
  | runs =>
    have hdone : done.2 = true := Option.some.inj htrue
    rcases h with h | ⟨hmay, hset⟩
    · rw [h] at hdone
      cases hdone
    · refine ⟨hmay, ?_⟩
      show done.1.leases a.leaseKey = _
      rw [hset, WorkerDB.set_leases_self]

theorem exec_true (h : (exec counting fate db pc).2 = .ret (.ok true)) (hask : pc.ask = some a) :
    (∃ now, pc.read = some now ∧ a.May now db) ∧
      ∃ lease, (exec counting fate db pc).1.leases a.leaseKey = some lease ∧ lease.ownerID = a.ownerID := by
  cases pc with
  | idle => cases hask
  | releaseDelete leaseKey ownerID => cases hask
  | acquireNow b | renewNow b =>
    simp only [exec] at h
    split at h <;> cases h
  | acquireUpdate b now =>
    cases hask
    simp only [exec] at h ⊢
    split at h
    · cases h
    · rename_i htrue
      obtain ⟨hmay, hrow⟩ := acquireUpdate_wrote.answered htrue
      exact ⟨⟨now, rfl, hmay⟩, _, hrow, rfl⟩
    · cases h
  | acquireCreate b now =>
    cases hask
    simp only [exec] at h ⊢
    split at h
    · rename_i htrue
      obtain ⟨hmay, hrow⟩ := createLease_wrote.answered htrue
      exact ⟨⟨now, rfl, hmay⟩, _, hrow, rfl⟩
    · cases h
  | acquireTake b now =>
    cases hask
    simp only [exec] at h ⊢
    split at h
    · rename_i existing hrow
      have hmine : existing.ownerID = a.ownerID ∧ existing.expiresAt > now := by simpa using h
      refine ⟨⟨now, rfl, ?_⟩, existing, hrow, hmine.1⟩
      intro old hold
      rw [hrow] at hold
      cases hold
      exact .inl hmine.1
    · cases h
  | renewUpdate b now =>
    cases hask
    simp only [exec] at h ⊢
    split at h
    · cases h
    · rename_i affected hans
      have htrue : affected = true := by simpa using h
      subst htrue
      obtain ⟨hmay, hrow⟩ := renewUpdate_wrote.answered hans
      exact ⟨⟨now, rfl, hmay⟩, _, hrow, rfl⟩

end Exec

/-! ### Clocks -/

abbrev Timely : Prop :=
  Holds (fun _ => True) (fun db _ pc => ∀ now, pc.read = some now → now ≤ db.now) s

theorem exec_read {fate : Fate} {pc pc' : Pc} (h : (exec counting fate db pc).2 = .goto pc') {now : Int}
    (hread : pc'.read = some now) : pc.read = some now ∨ now = db.now := by
  cases pc with
  | idle =>
    cases h
    cases hread
  | acquireNow a | renewNow a =>
    simp only [exec] at h
    split at h
    · cases h
    · rename_i t htime
      cases h
      cases hread
      right
      unfold getDBTimestamp at htime
      split at htime
      · split_ifs at htime
        exact (Except.ok.inj htime).symm
      · cases htime
  | acquireUpdate a t =>
    simp only [exec] at h
    split at h <;> cases h
    exact .inl hread
  | acquireCreate a t =>
    simp only [exec] at h
    split at h <;> cases h
    exact .inl hread
  | acquireTake a t =>
    simp only [exec] at h
    split at h <;> cases h
  | renewUpdate a t | releaseDelete k o =>
    simp only [exec] at h
    split at h <;> cases h

theorem step_exec (counting : Counting) (s : State) (i : ℕ) (fate : Fate) :
    ∃ pc, step counting s (.exec i fate) = s.put i (exec counting fate s.shared (s.thread i)).1 pc ∧
      ((exec counting fate s.shared (s.thread i)).2 = .goto pc ∨ pc = .idle) := by
  simp only [step]
  cases h : exec counting fate s.shared (s.thread i) with
  | mk db' next =>
    cases next with
    | goto pc => exact ⟨pc, rfl, .inl rfl⟩
    | ret answer => exact ⟨.idle, rfl, .inr rfl⟩

theorem step_call (counting : Counting) (s : State) (i : ℕ) (c : Call) : step counting s (.call i c) = s ∨
      ∃ pc, c.start = .goto pc ∧ s.thread i = .idle ∧ step counting s (.call i c) = s.put i s.shared pc := by
  simp only [step]
  split
  · rename_i pc hidle hstart
    exact .inr ⟨pc, hstart, hidle, rfl⟩
  · exact .inl rfl

theorem start_read {c : Call} {pc : Pc} (h : c.start = .goto pc) : pc.read = none := by
  cases c with
  | acquire k o ttl | renew k o ttl =>
    simp only [Call.start, askLease] at h
    split_ifs at h
    cases h
    rfl
  | release k o =>
    simp only [Call.start] at h
    split_ifs at h
    cases h
    rfl

theorem now_le_step (counting : Counting) (s : State) (e : Event) : s.shared.now ≤ (step counting s e).shared.now := by
  cases e with
  | tick seconds =>
    show s.shared.now ≤ s.shared.now + seconds
    omega
  | call i c =>
    rcases step_call counting s i c with h | ⟨pc, -, -, h⟩
    · rw [h]
    · rw [h]
      rfl
  | exec i fate =>
    obtain ⟨pc, h, -⟩ := step_exec counting s i fate
    rw [h, Sys.put_shared, exec_now]

theorem timely_step {s : State} (hs : Timely s) (e : Event) : Timely (step counting s e) := by
  -- what the others rely on: the clock does not go back
  have stable : Stable (fun (db : WorkerDB) (_ : ℕ) (pc : Pc) => ∀ now, pc.read = some now → now ≤ db.now)
      (fun _ db db' => db.now ≤ db'.now) :=
    fun i j db db' pc _ hle hok now hread => (hok now hread).trans hle
  cases e with
  | tick seconds =>
    refine hs.pass trivial ?_
    intro i pc hok now hread
    have hle := hok now hread
    show now ≤ s.shared.now + seconds
    omega
  | call i c =>
    rcases step_call counting s i c with h | ⟨pc, hstart, -, h⟩ <;> rw [h]
    · exact hs
    · refine hs.put stable trivial ?_ le_rfl
      intro now hread
      rw [start_read hstart] at hread
      cases hread
  | exec i fate =>
    obtain ⟨pc, h, hpc⟩ := step_exec counting s i fate
    have hnow := exec_now counting fate s.shared (s.thread i)
    rw [h]
    refine hs.put stable trivial ?_ hnow.ge
    intro now hread
    rw [hnow]
    rcases hpc with hpc | rfl
    · rcases exec_read hpc hread with hold | rfl
      · exact hs.thread i now hold
      · exact le_rfl
    · cases hread

theorem timely_init (now : Int) : Timely (init now) :=
  ⟨trivial, fun _ _ hread => by cases hread⟩

theorem timely_run (now : Int) (es : List Event) : Timely (run (step counting) (init now) es) :=
  run_inv (I := Timely) (fun _ e hs _ => timely_step hs e) (timely_init now)
    (along_of_forall (fun (_ : Event) _ => trivial) _)

end WynthApi.Pool.Worker

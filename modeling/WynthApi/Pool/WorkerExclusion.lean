import Mathlib.Data.Int.Order.Basic
import WynthApi.Lib.Lease
import WynthApi.Pool.WorkerLease

/-!
# A worker lease has one owner at a time

A row is a lease in the sense of `Lib.Lease` (`view`), and what a statement does to it is a `Lease.Move` of the owner
it acts for (`exec_move`).  So a granted lease stays with its owner until it runs out, but for what the owner's own
calls do.  Of two that overlap, the one that read the clock first may write last, and then takes time back
(`own_call_shortens_lease`).  Calls made one after the other, with one TTL, cannot (`Orderly`).
-/

namespace WynthApi.Pool.Worker

open StepSys Threads

variable {db : WorkerDB} {counting : Counting}

/-! ### Leases -/

def view (db : WorkerDB) (leaseKey : String) : Option (String × Int) :=
  (db.leases leaseKey).map fun lease => (lease.ownerID, lease.expiresAt)

variable {expiry now : Int} {pc : Pc} {leaseKey ownerID : String} {s : State} {e : Event} {fate : Fate}
  {a : Ask}

theorem free_of_may (h : a.May now db) (hnow : now ≤ db.now) : Lease.Free db.now a.ownerID (view db a.leaseKey) := by
  intro held hheld
  obtain ⟨lease, hrow, rfl⟩ := Option.map_eq_some_iff.mp hheld
  rcases h lease hrow with hmine | hpast
  · exact .inl hmine
  · exact .inr (hpast.trans hnow)

def Pc.ActsFor (leaseKey ownerID : String) (pc : Pc) : Prop :=
  (∃ a now, pc.write = some (a, now) ∧ a.leaseKey = leaseKey ∧ a.ownerID = ownerID) ∨
    pc = .releaseDelete leaseKey ownerID

theorem read_of_write (h : pc.write = some (a, now)) : pc.read = some now := by
  cases pc <;> cases h <;> rfl

/-- **Moves**: a statement leaves a lease alone, or is a move of the owner it acts for. -/
theorem exec_move (hread : ∀ now, pc.read = some now → now ≤ db.now) (leaseKey : String) :
    view (exec counting fate db pc).1 leaseKey = view db leaseKey ∨ ∃ ownerID, pc.ActsFor leaseKey ownerID ∧
        Lease.Move db.now ownerID (view db leaseKey) (view (exec counting fate db pc).1 leaseKey) := by
  rcases exec_cases counting fate db pc with h | ⟨a, now, hwrite, hmay, h⟩ | ⟨k, o, old, hpc, hrow, hown, h⟩
  · exact .inl (by rw [h])
  · by_cases hkey : leaseKey = a.leaseKey
    · subst hkey
      have hnow : now ≤ db.now := hread now (read_of_write hwrite)
      refine .inr ⟨a.ownerID, .inl ⟨a, now, hwrite, rfl, rfl⟩, .inr ⟨free_of_may hmay hnow, .inr ?_⟩⟩
      rw [h]
      exact ⟨(a.lease now).expiresAt, by simp [view, Ask.lease]⟩
    · left
      rw [h, view, WorkerDB.set_leases_ne hkey, view]
  · by_cases hkey : leaseKey = k
    · subst hkey
      refine .inr ⟨o, .inr hpc, .inr ⟨?_, .inl ?_⟩⟩
      · intro held hheld
        rw [view, hrow] at hheld
        cases hheld
        exact .inl hown
      · rw [h]
        simp [view]
    · left
      rw [h, view, WorkerDB.set_leases_ne hkey, view]

theorem step_view_of_not_exec (h : ∀ i fate, e ≠ .exec i fate) (leaseKey : String) :
    view (step counting s e).shared leaseKey = view s.shared leaseKey := by
  cases e with
  | tick seconds => rfl
  | call i c =>
    rcases step_call counting s i c with hs | ⟨pc, -, -, hs⟩
    · rw [hs]
    · rw [hs, Sys.put_shared]
  | exec i fate => exact absurd rfl (h i fate)

theorem exec_own (hwrite : pc.write = some (a, now)) :
    view (exec counting fate db pc).1 a.leaseKey = view db a.leaseKey ∨
      view (exec counting fate db pc).1 a.leaseKey = some (a.ownerID, (a.lease now).expiresAt) := by
  rcases exec_cases counting fate db pc with h | ⟨b, t, hb, -, h⟩ | ⟨k, o, old, hpc, -, -, -⟩
  · exact .inl (by rw [h])
  · rw [hwrite] at hb
    cases hb
    right
    rw [h, view, WorkerDB.set_leases_self]
    rfl
  · rw [hpc] at hwrite
    cases hwrite

/-- One step leaves a lease with its owner until it runs out, unless it is the owner's own. -/
theorem held_step (hs : Timely s) (hheld : Lease.HeldUntil ownerID expiry (view s.shared leaseKey))
    (hnow : s.shared.now < expiry) (hrel : ¬ releases s leaseKey ownerID e)
    (hshort : ¬ shortens s leaseKey ownerID expiry e) :
    Lease.HeldUntil ownerID expiry (view (step counting s e).shared leaseKey) := by
  by_cases hexec : ∀ i fate, e ≠ .exec i fate
  · rw [step_view_of_not_exec hexec]
    exact hheld
  push Not at hexec
  obtain ⟨i, fate, rfl⟩ := hexec
  obtain ⟨pc, hstep, -⟩ := step_exec counting s i fate
  rw [hstep, Sys.put_shared]
  rcases exec_move (hs.thread i) leaseKey with hsame | ⟨actor, hacts, hmove⟩
  · rw [hsame]
    exact hheld
  by_cases hactor : actor = ownerID
  · subst hactor
    rcases hacts with ⟨a, now, hwrite, rfl, rfl⟩ | hpc
    · have hlong : expiry ≤ (a.lease now).expiresAt :=
        not_lt.mp fun hlt => hshort ⟨(a, now), hwrite, rfl, rfl, hlt⟩
      rcases exec_own hwrite with hsame | hset
      · rw [hsame]
        exact hheld
      · rw [hset]
        exact ⟨_, rfl, hlong⟩
    · exact absurd hpc hrel
  · rw [hmove.heldUntil hheld hactor hnow]
    exact hheld

variable {es : List Event}

/-- **Run rule**: an invariant that keeps the clocks timely, and under which no allowed step releases or
shortens the lease. -/
theorem held_run {I : State → Prop} {P : State → Event → Prop} (htimely : ∀ s, I s → Timely s)
    (hstep : ∀ s e, I s → P s e → I (step counting s e))
    (hkeeps : ∀ s e, I s → P s e → Lease.HeldUntil ownerID expiry (view s.shared leaseKey) →
      ¬ releases s leaseKey ownerID e ∧ ¬ shortens s leaseKey ownerID expiry e) (hs : I s)
    (hheld : Lease.HeldUntil ownerID expiry (view s.shared leaseKey)) (halong : Along (step counting) P s es)
    (hnow : (run (step counting) s es).shared.now < expiry) :
    Lease.HeldUntil ownerID expiry (view (run (step counting) s es).shared leaseKey) := by
  refine (run_inv (I := fun s => I s ∧ (s.shared.now < expiry →
    Lease.HeldUntil ownerID expiry (view s.shared leaseKey))) ?_ ⟨hs, fun _ => hheld⟩ halong).2 hnow
  rintro s e ⟨hs, hheld⟩ he
  refine ⟨hstep s e hs he, fun hlt => ?_⟩
  have hbefore : s.shared.now < expiry := (now_le_step counting s e).trans_lt hlt
  obtain ⟨hrel, hshort⟩ := hkeeps s e hs he (hheld hbefore)
  exact held_step (htimely s hs) (hheld hbefore) hbefore hrel hshort

theorem granted_spec (h : granted counting s e = some a) :
    ∃ i fate, e = .exec i fate ∧ (s.thread i).ask = some a ∧
      (exec counting fate s.shared (s.thread i)).2 = .ret (.ok true) := by
  cases e with
  | tick | call => cases h
  | exec i fate =>
    simp only [granted] at h
    split at h
    · rename_i hret
      exact ⟨i, fate, rfl, h, hret⟩
    · cases h

theorem held_of_granted (h : granted counting s e = some a)
    (hexp : expiresAt (step counting s e) a.leaseKey = some expiry) :
    Lease.HeldUntil a.ownerID expiry (view (step counting s e).shared a.leaseKey) := by
  obtain ⟨i, fate, rfl, hask, hret⟩ := granted_spec h
  obtain ⟨-, lease, hrow, hown⟩ := exec_true hret hask
  obtain ⟨pc, hstep, -⟩ := step_exec counting s i fate
  rw [hstep] at hexp ⊢
  rw [expiresAt, Sys.put_shared, hrow] at hexp
  rw [Sys.put_shared, view, hrow]
  refine ⟨lease.expiresAt, by rw [← hown]; rfl, ?_⟩
  exact (Option.some.inj hexp).ge

variable {b : Ask}

theorem free_of_granted (hs : Timely s) (h : granted counting s e = some b) :
    Lease.Free s.shared.now b.ownerID (view s.shared b.leaseKey) := by
  obtain ⟨i, fate, rfl, hask, hret⟩ := granted_spec h
  obtain ⟨⟨now, hread, hmay⟩, -⟩ := exec_true hret hask
  exact free_of_may hmay (hs.thread i now hread)

/-! ### An owner that makes one call at a time -/

/-- The arguments of an acquire or a renewal, if it gets to its first statement. -/
def Call.ask (c : Call) : Option Ask :=
  match c.start with
  | .goto pc => pc.ask
  | .ret _ => none

/-- The acquires and renewals of this lease by this owner are made by one thread, with one TTL. -/
def serial (leaseKey ownerID : String) (ttlSeconds : Int) (worker : ℕ) : Event → Prop
  | .call i c => ∀ a ∈ c.ask, a.leaseKey = leaseKey → a.ownerID = ownerID →
      i = worker ∧ a.ttlSeconds = ttlSeconds
  | _ => True

instance (leaseKey ownerID : String) (ttlSeconds : Int) (worker : ℕ) (e : Event) :
    Decidable (serial leaseKey ownerID ttlSeconds worker e) := by
  unfold serial
  split <;> infer_instance

section Serial

variable {leaseKey ownerID : String} {ttlSeconds : Int} {worker : ℕ}

/-- What one call at a time keeps: a write of the owner that is still to come never takes back what its
row already says. -/
structure Orderly (leaseKey ownerID : String) (ttlSeconds : Int) (worker : ℕ) (s : State) : Prop where
  timely : Timely s
  asks : ∀ i a, (s.thread i).ask = some a → a.leaseKey = leaseKey → a.ownerID = ownerID →
    i = worker ∧ a.ttlSeconds = ttlSeconds
  row : ∀ e, view s.shared leaseKey = some (ownerID, e) →
    e ≤ accountPoolWorkerLeaseExpiry s.shared.now ttlSeconds
  fresh : ∀ e a now, view s.shared leaseKey = some (ownerID, e) → (s.thread worker).ask = some a →
    a.leaseKey = leaseKey → a.ownerID = ownerID → (s.thread worker).read = some now →
    e ≤ accountPoolWorkerLeaseExpiry now ttlSeconds

theorem accountPoolWorkerLeaseExpiry_mono {now' : Int} (h : now ≤ now') :
    accountPoolWorkerLeaseExpiry now ttlSeconds ≤ accountPoolWorkerLeaseExpiry now' ttlSeconds := by
  unfold accountPoolWorkerLeaseExpiry
  split_ifs <;> omega

theorem ask_of_write (h : pc.write = some (a, now)) : pc.ask = some a := by
  cases pc <;> cases h <;> rfl

theorem exec_ask {pc' : Pc} (h : (exec counting fate db pc).2 = .goto pc') : pc'.ask = pc.ask := by
  cases pc with
  | idle =>
    cases h
    rfl
  | acquireNow a | renewNow a =>
    simp only [exec] at h
    split at h <;> cases h
    rfl
  | acquireUpdate a t | acquireCreate a t =>
    simp only [exec] at h
    split at h <;> cases h
    rfl
  | acquireTake a t =>
    simp only [exec] at h
    split at h <;> cases h
  | renewUpdate a t | releaseDelete k o =>
    simp only [exec] at h
    split at h <;> cases h

theorem orderly_init (now : Int) : Orderly leaseKey ownerID ttlSeconds worker (init now) := by
  refine ⟨timely_init now, ?_, ?_, ?_⟩
  · intro i a hask
    cases hask
  · intro e he
    cases he
  · intro e a t he
    cases he

variable {s : State}

section

variable (hs : Orderly leaseKey ownerID ttlSeconds worker s)

include hs

theorem orderly_tick (seconds : ℕ) : Orderly leaseKey ownerID ttlSeconds worker (step counting s (.tick seconds)) := by
  refine ⟨timely_step hs.timely _, hs.asks, ?_, hs.fresh⟩
  intro e he
  have hle : s.shared.now ≤ s.shared.now + seconds := by omega
  exact (hs.row e he).trans (accountPoolWorkerLeaseExpiry_mono hle)

variable {i : ℕ}

theorem orderly_call {c : Call} (hserial : serial leaseKey ownerID ttlSeconds worker (.call i c)) :
    Orderly leaseKey ownerID ttlSeconds worker (step counting s (.call i c)) := by
  have htimely : Timely (step counting s (.call i c)) := timely_step hs.timely (.call i c)
  rcases step_call counting s i c with h | ⟨pc, hstart, -, h⟩
  · rw [h]
    exact hs
  rw [h] at htimely ⊢
  refine ⟨htimely, ?_, hs.row, ?_⟩
  · intro j a hask hkey hown
    by_cases hj : j = i
    · subst hj
      rw [Sys.put_thread_self] at hask
      refine hserial a ?_ hkey hown
      rw [Call.ask, hstart]
      exact hask
    · rw [Sys.put_thread_ne s hj] at hask
      exact hs.asks j a hask hkey hown
  · intro e a now he hask hkey hown hread
    by_cases hj : worker = i
    · subst hj
      rw [Sys.put_thread_self, start_read hstart] at hread
      cases hread
    · rw [Sys.put_thread_ne s hj] at hask hread
      exact hs.fresh e a now he hask hkey hown hread

/-- What the owner's row says after a statement: as before, or what the worker's call wrote. -/
theorem view_exec {e : Int} (he : view (exec counting fate s.shared (s.thread i)).1 leaseKey = some (ownerID, e)) :
    view s.shared leaseKey = some (ownerID, e) ∨ ∃ now, i = worker ∧ (s.thread i).read = some now ∧
        e = accountPoolWorkerLeaseExpiry now ttlSeconds := by
  rcases exec_move (hs.timely.thread i) leaseKey with hsame | ⟨actor, hacts, hmove⟩
  · exact .inl (hsame ▸ he)
  by_cases hactor : actor = ownerID
  · subst hactor
    rcases hacts with ⟨a, now, hwrite, rfl, rfl⟩ | hpc
    · rcases exec_own hwrite with hsame | hset
      · exact .inl (hsame ▸ he)
      · obtain ⟨hworker, httl⟩ := hs.asks i a (ask_of_write hwrite) rfl rfl
        rw [hset] at he
        cases he
        exact .inr ⟨now, hworker, read_of_write hwrite, by rw [Ask.lease, httl]⟩
    · left
      rcases exec_cases counting fate s.shared (s.thread i) with h | ⟨a, now, hwrite, -⟩ |
        ⟨k, o, old, hpc', -, -, h⟩
      · rw [h] at he
        exact he
      · rw [hpc] at hwrite
        cases hwrite
      · rw [hpc] at hpc'
        cases hpc'
        rw [h, view, WorkerDB.set_leases_self] at he
        cases he
  · exact .inl (hmove.holder he hactor)

theorem orderly_exec (i : ℕ) (fate : Fate) :
    Orderly leaseKey ownerID ttlSeconds worker (step counting s (.exec i fate)) := by
  have htimely : Timely (step counting s (.exec i fate)) := timely_step hs.timely (.exec i fate)
  obtain ⟨pc, h, hpc⟩ := step_exec counting s i fate
  have hask' : ∀ a, pc.ask = some a → (s.thread i).ask = some a := by
    intro a ha
    rcases hpc with hpc | rfl
    · exact (exec_ask hpc).symm.trans ha
    · cases ha
  have hread' : ∀ now, pc.read = some now → (s.thread i).read = some now ∨ now = s.shared.now := by
    intro now hnow
    rcases hpc with hpc | rfl
    · exact exec_read hpc hnow
    · cases hnow
  rw [h] at htimely ⊢
  refine ⟨htimely, ?_, ?_, ?_⟩
  · intro j a ha hkey hown
    by_cases hj : j = i
    · subst hj
      rw [Sys.put_thread_self] at ha
      exact hs.asks j a (hask' a ha) hkey hown
    · rw [Sys.put_thread_ne s hj] at ha
      exact hs.asks j a ha hkey hown
  · intro e he
    rw [Sys.put_shared] at he
    rw [Sys.put_shared, exec_now]
    rcases view_exec hs he with hold | ⟨now, -, hnow, rfl⟩
    · exact hs.row e hold
    · exact accountPoolWorkerLeaseExpiry_mono (hs.timely.thread i now hnow)
  · intro e a now he ha hkey hown hnow
    rw [Sys.put_shared] at he
    by_cases hj : worker = i
    · subst hj
      rw [Sys.put_thread_self] at ha hnow
      -- a call that has just read the clock is no staler than any row; an older reading is the one the
      -- row was written with, or was already no staler than it
      rcases view_exec hs he with hold | ⟨now', -, hnow', rfl⟩
      · rcases hread' now hnow with hread | rfl
        · exact hs.fresh e a now hold (hask' a ha) hkey hown hread
        · exact hs.row e hold
      · rcases hread' now hnow with hread | rfl
        · rw [hread] at hnow'
          cases hnow'
          exact le_rfl
        · exact accountPoolWorkerLeaseExpiry_mono (hs.timely.thread worker now' hnow')
    · rw [Sys.put_thread_ne s hj] at ha hnow
      rcases view_exec hs he with hold | ⟨now', hworker, -⟩
      · exact hs.fresh e a now hold ha hkey hown hnow
      · exact absurd hworker.symm hj

theorem orderly_step (he : serial leaseKey ownerID ttlSeconds worker e) :
    Orderly leaseKey ownerID ttlSeconds worker (step counting s e) := by
  cases e with
  | tick seconds => exact orderly_tick hs seconds
  | call i c => exact orderly_call hs he
  | exec i fate => exact orderly_exec hs i fate

theorem orderly_run (hes : ∀ e ∈ es, serial leaseKey ownerID ttlSeconds worker e) :
    Orderly leaseKey ownerID ttlSeconds worker (run (step counting) s es) :=
  run_inv (I := Orderly leaseKey ownerID ttlSeconds worker) (fun _ _ hs he => orderly_step hs he) hs
    (along_of_forall hes s)

theorem Orderly.not_shortens (hheld : Lease.HeldUntil ownerID expiry (view s.shared leaseKey)) (e : Event) :
    ¬ shortens s leaseKey ownerID expiry e := by
  cases e with
  | tick | call => exact not_false
  | exec i fate =>
    rintro ⟨⟨a, now⟩, hwrite, hkey, hown, hlt⟩
    obtain ⟨until_, hview, hle⟩ := hheld
    obtain ⟨rfl, httl⟩ := hs.asks i a (ask_of_write hwrite) hkey hown
    have hfresh := hs.fresh until_ a now hview (ask_of_write hwrite) hkey hown (read_of_write hwrite)
    rw [Ask.lease, httl] at hlt
    exact absurd hlt (not_lt.mpr (hle.trans hfresh))

end

end Serial

/-! ### Mutual exclusion -/

/-- The lease and the owner that a statement of a renewal or of a release is for. -/
def Pc.maintains : Pc → Option (String × String)
  | .renewNow a | .renewUpdate a _ => some (a.leaseKey, a.ownerID)
  | .releaseDelete leaseKey ownerID => some (leaseKey, ownerID)
  | _ => none

theorem apply_unchanged {done : WorkerDB × Bool} (h : done.1 = db) : (fate.apply db done).1 = db := by
  cases fate with
  | runs | unanswered => exact h
  | fails => rfl

theorem exec_of_not_owner (hpc : pc.maintains = some (leaseKey, ownerID))
    (hrow : ∀ lease, db.leases leaseKey = some lease → lease.ownerID ≠ ownerID) :
    (exec counting fate db pc).1 = db := by
  rcases exec_cases counting fate db pc with h | ⟨a, now, hwrite, -, h⟩ | ⟨k, o, old, rfl, hold, hown, h⟩
  · exact h
  · cases pc with
    | renewUpdate b t =>
      cases hpc
      have hnone : (b.renewUpdate counting t db).1 = db := by
        unfold Ask.renewUpdate updateLease
        split
        · rfl
        · rename_i old hold
          simp [hrow old hold]
      rw [exec_db]
      exact apply_unchanged hnone
    | idle | acquireNow | acquireTake | renewNow | releaseDelete => cases hwrite
    | acquireUpdate | acquireCreate => cases hpc
  · cases hpc
    exact absurd hown (hrow old hold)

/-- The event `e` returns true to an acquire or a renewal `a`, with an expiry; after the events `es`, `e'`
returns true to an acquire or a renewal `b` of the same lease by another owner. -/
structure Handover (counting : Counting) (s : State) (e : Event) (es : List Event) (e' : Event)
    (a b : Ask) (expiry : Int) : Prop where
  granted : granted counting s e = some a
  expiresAt : expiresAt (step counting s e) a.leaseKey = some expiry
  regranted : Worker.granted counting (run (step counting) (step counting s e) es) e' = some b
  leaseKey : b.leaseKey = a.leaseKey
  ownerID : b.ownerID ≠ a.ownerID

theorem Handover.le_of_not_held (hs : Timely s) {e' : Event} (h : Handover counting s e es e' a b expiry)
    (hheld : (run (step counting) (step counting s e) es).shared.now < expiry →
      Lease.HeldUntil a.ownerID expiry (view (run (step counting) (step counting s e) es).shared a.leaseKey)) :
    expiry ≤ (run (step counting) (step counting s e) es).shared.now := by
  by_contra hlt
  push Not at hlt
  have htimely : Timely (run (step counting) (step counting s e) es) :=
    run_inv (I := Timely) (fun _ e hs _ => timely_step hs e) (timely_step hs e)
      (along_of_forall (fun (_ : Event) _ => trivial) _)
  have hfree := free_of_granted htimely h.regranted
  rw [h.leaseKey] at hfree
  exact (hheld hlt).not_free h.ownerID hlt hfree

/-- **Mutual exclusion of worker leases**: after an acquire or a renewal has returned true to an owner, none
returns true to another before the expiry, unless the owner released the lease or itself wrote an earlier
expiry, which an owner that makes one call at a time with one TTL does not.  A renewal or a release by
somebody who is not the owner changes nothing. -/
theorem worker_lease_exclusive (counting : Counting) (now₀ : Int) (es₀ : List Event) :
    let s := run (step counting) (init now₀) es₀
    (∀ e es e' a b expiry, Handover counting s e es e' a b expiry →
      Along (step counting) (fun s x => ¬ releases s a.leaseKey a.ownerID x ∧
        ¬ shortens s a.leaseKey a.ownerID expiry x) (step counting s e) es →
      expiry ≤ (run (step counting) (step counting s e) es).shared.now) ∧
    (∀ e es e' a b expiry ttlSeconds worker, Handover counting s e es e' a b expiry →
      (∀ x ∈ es₀ ++ e :: es, serial a.leaseKey a.ownerID ttlSeconds worker x) →
      Along (step counting) (fun s x => ¬ releases s a.leaseKey a.ownerID x) (step counting s e) es →
      expiry ≤ (run (step counting) (step counting s e) es).shared.now) ∧
    ∀ i fate leaseKey ownerID, (s.thread i).maintains = some (leaseKey, ownerID) →
      (∀ lease, s.shared.leases leaseKey = some lease → lease.ownerID ≠ ownerID) →
      (step counting s (.exec i fate)).shared = s.shared := by
  intro s
  have hs : Timely s := timely_run now₀ es₀
  refine ⟨?_, ?_, ?_⟩
  · intro e es e' a b expiry h halong
    refine h.le_of_not_held hs fun hlt => ?_
    exact held_run (fun _ hs => hs) (fun _ e hs _ => timely_step hs e) (fun _ _ _ hkeeps _ => hkeeps)
      (timely_step hs e) (held_of_granted h.granted h.expiresAt) halong hlt
  · intro e es e' a b expiry ttlSeconds worker h hserial hrel
    have horderly : Orderly a.leaseKey a.ownerID ttlSeconds worker s :=
      orderly_run (orderly_init now₀) fun x hx => hserial x (List.mem_append_left _ hx)
    have he : serial a.leaseKey a.ownerID ttlSeconds worker e :=
      hserial e (List.mem_append_right _ List.mem_cons_self)
    have hes : ∀ x ∈ es, serial a.leaseKey a.ownerID ttlSeconds worker x := fun x hx =>
      hserial x (List.mem_append_right _ (List.mem_cons_of_mem e hx))
    refine h.le_of_not_held hs fun hlt => ?_
    exact held_run (fun _ hs => hs.timely) (fun _ _ hs hx => orderly_step hs hx.1)
      (fun _ x hs hx hheld => ⟨hx.2, hs.not_shortens hheld x⟩) (orderly_step horderly he)
      (held_of_granted h.granted h.expiresAt) ((along_of_forall hes _).and hrel) hlt
  · intro i fate leaseKey ownerID hpc hrow
    obtain ⟨pc, hstep, -⟩ := step_exec counting s i fate
    rw [hstep, Sys.put_shared]
    exact exec_of_not_owner hpc hrow

/-- Node a acquires a lease for a minute; when the minute is over, node b gets it. -/
theorem lease_passes_at_expiry :
    let es₀ : List Event := [.call 0 (.acquire "xai_quota_probe" "a" 60), .exec 0 .runs, .exec 0 .runs]
    let s := run (step .matched) (init 100) es₀
    let es : List Event := [.tick 60, .call 1 (.acquire "xai_quota_probe" "b" 60), .exec 1 .runs]
    let late : List Event := [.call 0 (.acquire "xai_quota_probe" "b" 60), .exec 0 .runs, .exec 0 .runs,
      .exec 0 .runs, .call 1 (.release "xai_quota_probe" "a")]
    let t := run (step .matched) (init 100) late
    (160 ≤ (run (step .matched) (step .matched s (.exec 0 .runs)) es).shared.now ∧
      160 ≤ (run (step .matched) (step .matched s (.exec 0 .runs)) es).shared.now) ∧
      (step .matched t (.exec 1 .runs)).shared = t.shared := by
  intro es₀ s es late t
  have h : Handover .matched s (.exec 0 .runs) es (.exec 1 .runs) ⟨"xai_quota_probe", "a", 60⟩
      ⟨"xai_quota_probe", "b", 60⟩ 160 :=
    ⟨by decide +kernel, by decide +kernel, by decide +kernel, rfl, by decide⟩
  refine ⟨⟨?_, ?_⟩, ?_⟩
  · exact (worker_lease_exclusive .matched 100 es₀).1 _ _ _ _ _ _ h (by decide +kernel)
  · exact (worker_lease_exclusive .matched 100 es₀).2.1 _ _ _ _ _ _ 60 0 h (by decide +kernel)
      (by decide +kernel)
  · refine (worker_lease_exclusive .matched 100 late).2.2 1 .runs "xai_quota_probe" "a"
      (by decide +kernel) ?_
    intro lease hlease
    have hb : (run (step .matched) (init 100) late).shared.leases "xai_quota_probe" =
        some ⟨"b", 160, 100⟩ := by decide +kernel
    rw [hb] at hlease
    cases hlease
    decide

/-- Two acquires of node a overlap; the one that read the clock first writes last and takes ten seconds
back, in which node b gets the lease. -/
theorem own_call_shortens_lease : ∃ es₀ e es e' a b expiry,
      Handover .matched (run (step .matched) (init 100) es₀) e es e' a b expiry ∧
      Along (step .matched) (fun s x => ¬ releases s a.leaseKey a.ownerID x)
        (step .matched (run (step .matched) (init 100) es₀) e) es ∧
      (run (step .matched) (step .matched (run (step .matched) (init 100) es₀) e) es).shared.now <
        expiry := by
  refine ⟨[.call 0 (.acquire "xai_quota_probe" "a" 60), .exec 0 .runs, .tick 10,
      .call 1 (.acquire "xai_quota_probe" "a" 60), .exec 1 .runs, .exec 1 .runs], .exec 1 .runs,
    [.exec 0 .runs, .tick 50, .call 2 (.acquire "xai_quota_probe" "b" 60), .exec 2 .runs],
    .exec 2 .runs, ⟨"xai_quota_probe", "a", 60⟩, ⟨"xai_quota_probe", "b", 60⟩, 170, ?_, ?_, ?_⟩
  · exact ⟨by decide +kernel, by decide +kernel, by decide +kernel, rfl, by decide⟩
  · decide +kernel
  · decide +kernel

end WynthApi.Pool.Worker

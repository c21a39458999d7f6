import WynthApi.Lib.Fold
import WynthApi.Pool.Leases

/-!
# Load-aware scheduling of accounts (service/account_pool_scheduler.go)

Among the candidates of the highest priority those with the fewest leases in flight are kept; the schedule policy
chooses one, and a lease is asked for.  An account without a concurrency limit stays at zero, however many requests
use it.

Counts are those of the in-process manager, and no affinity pins the request.
-/

namespace WynthApi.Pool

open StepSys List

structure Account where
  (id priority : Int)
  deriving DecidableEq

def highestPriorityAccountPoolCandidates : List Account → List Account
  | [] => []
  | first :: rest =>
    let highestPriority := rest.foldl (fun p c => max p c.priority) first.priority
    (first :: rest).filter fun c => c.priority = highestPriority

def loadSkewAccountPoolCandidates (loadAware : Bool) (counts : Int → ℕ) : List Account → List Account
  | [] => []
  | first :: rest =>
    if loadAware = false ∨ rest = [] then first :: rest
    else
      let minLoad := rest.foldl (fun n c => min n (counts c.id)) (counts first.id)
      (first :: rest).filter fun c => counts c.id = minLoad

/-- The leases, and the accounts of the requests that hold a selection without one. -/
structure Scheduler where
  leases : Memory
  unlimited : List Int

namespace Scheduler

variable (limit : Int → Int) (s : Scheduler)

/-- What `selectAccountPoolCandidate` lets the policy choose from. -/
def choices (candidates : List Account) : List Account :=
  loadSkewAccountPoolCandidates true (fun a => s.leases.active (.account a))
    (highestPriorityAccountPoolCandidates candidates)

def acquire (accountID : Int) : Outcome × Scheduler :=
  match s.leases.acquire (.account accountID) (limit accountID) with
  | (.unlimited, leases) => (.unlimited, ⟨leases, accountID :: s.unlimited⟩)
  | (outcome, leases) => (outcome, { s with leases })

/-- A round of the loop of `selectAccountPoolAccountWithLease` over the candidates that were neither
attempted nor refused in an earlier round, or the end of a request. -/
inductive Action where
  | select (candidates : List Account) (selected : Account)
  | release (i : ℕ)
  | finish (accountID : Int)

def step : Action → Scheduler
  | .select candidates selected =>
    if selected ∈ s.choices candidates then (s.acquire limit selected.id).2 else s
  | .release i => { s with leases := s.leases.release i }
  | .finish accountID => { s with unlimited := s.unlimited.erase accountID }

def start : Scheduler := ⟨Memory.start, []⟩

def holding (accountID : Int) : ℕ :=
  (s.leases.live (.account accountID)).card + s.unlimited.count accountID

structure Counted : Prop where
  leases : s.leases.Counted
  limited : ∀ a ∈ s.unlimited, limit a ≤ 0

variable {limit} {s : Scheduler} {p q : Account} {candidates : List Account}

theorem counted_acquire (h : s.Counted limit) (a : Int) : (s.acquire limit a).2.Counted limit := by
  have hleases := Memory.counted_acquire h.leases (.account a) (limit a)
  have hearly : (s.leases.acquire (.account a) (limit a)).1 = .unlimited → limit a ≤ 0 := by
    intro hout
    by_contra hpos
    simp only [Memory.acquire, LeaseKey.early, if_neg hpos] at hout
    split_ifs at hout
  unfold acquire
  cases hacq : s.leases.acquire (.account a) (limit a) with
  | mk outcome leases =>
    rw [hacq] at hleases hearly
    cases outcome with
    | refused | leased => exact ⟨hleases, h.limited⟩
    | unlimited => exact ⟨hleases, forall_mem_cons.mpr ⟨hearly rfl, h.limited⟩⟩

theorem counted_step (h : s.Counted limit) (a : Action) : (s.step limit a).Counted limit := by
  cases a with
  | release i => exact ⟨Memory.counted_release h.leases i, h.limited⟩
  | finish accountID => exact ⟨h.leases, fun a ha => h.limited a (mem_of_mem_erase ha)⟩
  | select candidates selected =>
    simp only [step]
    split_ifs
    · exact counted_acquire h _
    · exact h

theorem loadSkew_spec {counts : Int → ℕ} (hp : p ∈ loadSkewAccountPoolCandidates true counts candidates) :
    p ∈ candidates ∧ ∀ q ∈ candidates, counts p.id ≤ counts q.id := by
  cases candidates with
  | nil => cases hp
  | cons first rest =>
    rw [loadSkewAccountPoolCandidates] at hp
    by_cases hone : rest = []
    · rw [if_pos (.inr hone)] at hp
      subst hone
      exact ⟨hp, fun q hq => by rw [mem_singleton.mp hp, mem_singleton.mp hq]⟩
    · rw [if_neg (by simp [hone])] at hp
      obtain ⟨hmem, hmin⟩ := mem_filter.mp hp
      rw [of_decide_eq_true hmin]
      exact ⟨hmem, forall_mem_cons.mpr ⟨Fold.foldl_min_le, fun q hq => Fold.foldl_min_le_of_mem hq⟩⟩

theorem mem_highestPriority (hq : q ∈ candidates)
    (hp : p ∈ highestPriorityAccountPoolCandidates candidates) (hsame : q.priority = p.priority) :
    q ∈ highestPriorityAccountPoolCandidates candidates := by
  cases candidates with
  | nil => cases hq
  | cons first rest =>
    have htop := (mem_filter.mp hp).2
    exact mem_filter.mpr ⟨hq, hsame ▸ htop⟩

/-- **Least loaded**: after every run, an account with a limit is selected only if no other candidate of
its priority is held by fewer requests. -/
theorem limited_least_loaded (limit : Int → Int) (actions : List Action) (candidates : List Account)
    (p q : Account) :
    let s := run (step limit) start actions
    p ∈ s.choices candidates → 0 < limit p.id → q ∈ candidates → q.priority = p.priority →
    s.holding p.id ≤ s.holding q.id := by
  intro s hp hlimited hq hsame
  have hcounted : s.Counted limit := run_inv (fun s a h _ => counted_step h a)
    ⟨Memory.counted_start, by simp [start]⟩ (along_of_forall (fun _ _ => trivial) _)
  obtain ⟨hmem, hmin⟩ := loadSkew_spec hp
  have hcount := hmin q (mem_highestPriority hq hmem hsame)
  have hnone : s.unlimited.count p.id = 0 := count_eq_zero_of_not_mem fun hmem => by
    have := hcounted.limited _ hmem
    omega
  rw [hcounted.leases, hcounted.leases] at hcount
  unfold holding
  omega

theorem limited_least_loaded_two :
    let s := run (step fun _ => 2) start [.select [⟨1, 0⟩, ⟨2, 0⟩] ⟨1, 0⟩]
    s.holding 1 = 1 ∧ s.holding 2 ≤ s.holding 1 :=
  ⟨rfl, limited_least_loaded (fun _ => 2) [.select [⟨1, 0⟩, ⟨2, 0⟩] ⟨1, 0⟩] [⟨1, 0⟩, ⟨2, 0⟩] ⟨2, 0⟩ ⟨1, 0⟩
    (by decide) (by decide) (by decide) rfl⟩

/-- Accounts 1 and 2 have no limit.  A request holds account 1, and the policy may choose it again,
though nobody holds account 2. -/
theorem unlimited_account_overloaded :
    let s := run (step fun _ => 0) start [.select [⟨1, 0⟩, ⟨2, 0⟩] ⟨1, 0⟩]
    ⟨1, 0⟩ ∈ s.choices [⟨1, 0⟩, ⟨2, 0⟩] ∧ s.holding 1 = 1 ∧ s.holding 2 = 0 ∧
      (s.acquire (fun _ => 0) 2).1 = .unlimited := by
  decide

end Scheduler

end WynthApi.Pool

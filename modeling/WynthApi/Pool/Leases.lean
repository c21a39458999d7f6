import Mathlib.Data.Finset.Dedup
import WynthApi.Lib.Semaphore

/-!
# Concurrency leases of accounts and users (service/account_pool_concurrency.go)

A request takes a lease on its account and one on its user; a cap limits how many are live.  With Redis a lease
is a member of a sorted set, scored by its expiry (`Redis`); without it an instance counts its leases (`Memory`).
Both hand out release closures that work once; a lease is a place in the list of those handed out.

Both implement the semaphore of `Lib.Semaphore` (`redis_implements`, `memory_implements`).  A Redis error makes an
acquire fall back to the counter of its instance; the two kinds are counted apart, as here.
-/

namespace WynthApi.Pool

open Semaphore StepSys List Function

/-- What a lease is on: `accountPoolLeaseKey` or `accountPoolUserConcurrencyRedisKey`. -/
inductive LeaseKey where
  | account (accountID : Int)
  | user (bindingID userID : Int)
  deriving DecidableEq

inductive Outcome where
  | refused
  | unlimited
  | leased
  deriving DecidableEq

/-- What `tryAcquireAccountPoolRuntimeLease` and `tryAcquireAccountPoolUserSlot` answer before they
count. -/
def LeaseKey.early (maxConcurrency : Int) : LeaseKey → Option Outcome
  | .account accountID =>
    if accountID ≤ 0 then some .refused
    else if maxConcurrency ≤ 0 then some .unlimited
    else none
  | .user bindingID userID =>
    if maxConcurrency ≤ 0 then some .unlimited
    else if userID ≤ 0 ∨ bindingID ≤ 0 then some .unlimited
    else none

/-! ### The in-process manager -/

structure Closure where
  key : LeaseKey
  released : Bool
  deriving DecidableEq

/-- `accountPoolRuntimeLeaseManager` and `accountPoolUserConcurrencyManager`; a key that is not in the
map counts as zero. -/
structure Memory where
  active : LeaseKey → ℕ
  leases : List Closure

variable {maxConcurrency : Int} {cap : ℕ}

namespace Memory

inductive Action where
  | acquire (key : LeaseKey) (maxConcurrency : Int)
  | release (i : ℕ)

variable (s : Memory) (key : LeaseKey)

def acquire (maxConcurrency : Int) : Outcome × Memory :=
  match key.early maxConcurrency with
  | some outcome => (outcome, s)
  | none =>
    if maxConcurrency ≤ s.active key then (.refused, s)
    else (.leased,
      { active := Function.update s.active key (s.active key + 1)
        leases := s.leases ++ [⟨key, false⟩] })

def release (i : ℕ) : Memory :=
  match s.leases[i]? with
  | some ⟨key, false⟩ =>
    { active := Function.update s.active key (if s.active key ≤ 1 then 0 else s.active key - 1)
      leases := s.leases.set i ⟨key, true⟩ }
  | _ => s

def step : Action → Memory
  | .acquire key maxConcurrency => (s.acquire key maxConcurrency).2
  | .release i => s.release i

def live : Finset ℕ :=
  places (fun c => c.key = key ∧ c.released = false) s.leases

def start : Memory := ⟨fun _ => 0, []⟩

def Allowed (cap : ℕ) (_ : Memory) : Action → Prop
  | .acquire k maxConcurrency => k = key → maxConcurrency = cap
  | .release _ => True

instance (key : LeaseKey) (cap : ℕ) (s : Memory) (a : Action) : Decidable (Allowed key cap s a) := by
  unfold Allowed
  split <;> infer_instance

def Counted : Prop := ∀ key, s.active key = (s.live key).card

theorem counted_start : Counted start := fun _ => rfl

theorem acquire_of_none {s : Memory} {key : LeaseKey} (h : key.early maxConcurrency = none) :
    s.acquire key maxConcurrency = if maxConcurrency ≤ s.active key then (.refused, s)
      else (.leased, { active := update s.active key (s.active key + 1), leases := s.leases ++ [⟨key, false⟩] }) := by
  rw [acquire, h]

theorem live_append_self (active : LeaseKey → ℕ) :
    (Memory.mk active (s.leases ++ [⟨key, false⟩])).live key = insert s.leases.length (s.live key) :=
  places_append_of_true (by simp)

theorem live_append_ne {key k : LeaseKey} (h : key ≠ k) (active : LeaseKey → ℕ) :
    (Memory.mk active (s.leases ++ [⟨key, false⟩])).live k = s.live k :=
  places_append_of_false (by simp [h])

theorem live_release (i : ℕ) (key : LeaseKey) : (s.release i).live key = (s.live key).erase i := by
  unfold release
  split
  · exact places_set (by simp)
  · rename_i hno
    refine (Finset.erase_eq_of_notMem ?_).symm
    rw [live, mem_places]
    rintro ⟨⟨k, released⟩, hc, hp⟩
    obtain ⟨-, rfl⟩ : k = key ∧ released = false := by simpa using hp
    exact hno k hc

theorem counted_acquire {s : Memory} (h : Counted s) (key : LeaseKey) (maxConcurrency : Int) :
    Counted (s.acquire key maxConcurrency).2 := by
  cases hearly : key.early maxConcurrency with
  | some outcome =>
    rw [acquire, hearly]
    exact h
  | none =>
    rw [acquire_of_none hearly]
    split_ifs with hfull
    · exact h
    · intro k
      by_cases hk : k = key
      · subst hk
        show update s.active k (s.active k + 1) k = _
        have hnew : s.leases.length ∉ s.live k := length_notMem_places
        rw [update_self, live_append_self, Finset.card_insert_of_notMem hnew, h k]
      · show update s.active key (s.active key + 1) k = _
        rw [update_of_ne hk, live_append_ne s (Ne.symm hk), h k]

theorem counted_release {s : Memory} (h : Counted s) (i : ℕ) : Counted (s.release i) := by
  intro k
  rw [live_release]
  unfold release
  split
  · rename_i key hclosure
    by_cases hk : k = key
    · subst hk
      have hmem : i ∈ s.live k := mem_places.mpr ⟨_, hclosure, by simp⟩
      have hpos : 0 < (s.live k).card := Finset.card_pos.mpr ⟨i, hmem⟩
      show update s.active k (if s.active k ≤ 1 then 0 else s.active k - 1) k = _
      rw [update_self, Finset.card_erase_of_mem hmem, h k]
      split_ifs <;> omega
    · have hmem : i ∉ s.live k := by
        rw [live, mem_places]
        rintro ⟨c, hc, hp⟩
        rw [hclosure] at hc
        obtain rfl := Option.some.inj hc
        simp [Ne.symm hk] at hp
      show update s.active key _ k = _
      rw [update_of_ne hk, Finset.erase_eq_of_notMem hmem, h k]
  · rename_i hno
    have hmem : i ∉ s.live k := by
      rw [live, mem_places]
      rintro ⟨⟨k', released⟩, hc, hp⟩
      obtain ⟨-, rfl⟩ : k' = k ∧ released = false := by simpa using hp
      exact hno k' hc
    rw [Finset.erase_eq_of_notMem hmem, h k]

theorem memory_implements {key : LeaseKey} : Implements cap step (Allowed key cap) Counted fun s => s.live key where
  inv s a h _ := by
    cases a with
    | acquire k maxConcurrency => exact counted_acquire h k maxConcurrency
    | release i => exact counted_release h i
  event s a h hallowed := by
    cases a with
    | release i => exact ⟨.release i, live_release s i key⟩
    | acquire k maxConcurrency =>
      show ∃ e, (s.acquire k maxConcurrency).2.live key = _
      cases hearly : k.early maxConcurrency with
      | some outcome =>
        refine ⟨.expire ∅, ?_⟩
        rw [acquire, hearly, next_expire_empty]
      | none =>
        rw [acquire_of_none hearly]
        by_cases hk : k = key
        · subst hk
          refine ⟨.acquire s.leases.length, ?_⟩
          have hcap : maxConcurrency = cap := hallowed rfl
          rw [Semaphore.next, ← h k]
          split_ifs with hfull hroom hroom
          · omega
          · rfl
          · exact live_append_self s k _
          · omega
        · refine ⟨.expire ∅, ?_⟩
          rw [next_expire_empty]
          split_ifs with hfull
          · rfl
          · exact live_append_ne s hk _

theorem acquire_leased {s : Memory} {key : LeaseKey} (hearly : key.early cap = none)
    (hleased : (s.acquire key cap).1 = .leased) :
    ∃ i ∉ s.live key, (s.acquire key cap).2.live key = insert i (s.live key) := by
  rw [acquire_of_none hearly] at hleased ⊢
  split_ifs at hleased ⊢
  exact ⟨_, length_notMem_places, live_append_self s key _⟩

theorem acquire_refused {s : Memory} (h : Counted s) {key : LeaseKey}
    (hearly : key.early cap = none) (hrefused : (s.acquire key cap).1 = .refused) : cap ≤ (s.live key).card := by
  rw [acquire_of_none hearly] at hrefused
  rw [← h key]
  by_contra hroom
  rw [if_neg (by omega)] at hrefused
  cases hrefused

end Memory

/-! ### Leases in Redis -/

/-- A release closure of a Redis lease, with its token; `expiry` is the score the lease was given. -/
structure Grant where
  key : LeaseKey
  token : String
  expiry : Int
  released : Bool
  deriving DecidableEq

/-- The sorted sets with the deadlines of their keys, the clock and the closures handed out. -/
structure Redis where
  clock : Int
  zset : LeaseKey → List (String × Int)
  expireAt : LeaseKey → Option Int
  leases : List Grant

namespace Redis

inductive Action where
  | acquire (key : LeaseKey) (maxConcurrency : Int) (token : String)
  | release (i : ℕ)
  | advance (seconds : ℕ)

variable (s : Redis) (key : LeaseKey)

/-- The members of a sorted set; a key is gone at its deadline. -/
def members : List (String × Int) :=
  if (s.expireAt key).any (· ≤ s.clock) then [] else s.zset key

def zadd (l : List (String × Int)) (token : String) (score : Int) : List (String × Int) :=
  l.filter (fun m => m.1 ≠ token) ++ [(token, score)]

/-- What `ZREMRANGEBYSCORE key -inf now` leaves. -/
def unexpired (l : List (String × Int)) (now : Int) : List (String × Int) :=
  l.filter fun m => now < m.2

/-- `accountPoolLeaseAcquireScript` at the time `s.clock`: whether it returns `1`, and the store. -/
def acquireScript (max expiry : Int) (token : String) (ttl : Int) :
    Bool × Redis :=
  let left := unexpired (s.members key) s.clock
  if max ≤ left.length then (false, { s with zset := Function.update s.zset key left })
  else (true,
    { s with
      zset := Function.update s.zset key (zadd left token expiry)
      expireAt := Function.update s.expireAt key (some (s.clock + ttl)) })

variable (ttl : Int) (s : Redis) (key : LeaseKey)

/-- An acquire with Redis on, `accountPoolRedisAcquireLease` included. -/
def acquire (maxConcurrency : Int) (token : String) :
    Outcome × Redis :=
  match key.early maxConcurrency with
  | some outcome => (outcome, s)
  | none =>
    let expiry := s.clock + ttl
    match s.acquireScript key maxConcurrency expiry token ttl with
    | (false, s') => (.refused, s')
    | (true, s') => (.leased, { s' with leases := s'.leases ++ [⟨key, token, expiry, false⟩] })

/-- The release closure number `i`: `ZREM key token`, once. -/
def release (s : Redis) (i : ℕ) : Redis :=
  match s.leases[i]? with
  | some ⟨key, token, expiry, false⟩ =>
    { s with
      zset := Function.update s.zset key ((s.members key).filter fun m => m.1 ≠ token)
      leases := s.leases.set i ⟨key, token, expiry, true⟩ }
  | _ => s

def step : Action → Redis
  | .acquire key maxConcurrency token => (acquire ttl s key maxConcurrency token).2
  | .release i => s.release i
  | .advance seconds => { s with clock := s.clock + seconds }

def isLive (clock : Int) (g : Grant) : Bool :=
  g.key = key ∧ g.released = false ∧ clock < g.expiry

def live : Finset ℕ := places (isLive key s.clock) s.leases

def start (clock : Int) : Redis := ⟨clock, fun _ => [], fun _ => none, []⟩

def Allowed (cap : ℕ) (s : Redis) : Action → Prop
  | .acquire k maxConcurrency token => (k = key → maxConcurrency = cap) ∧ ∀ g ∈ s.leases, g.token ≠ token
  | _ => True

instance (key : LeaseKey) (cap : ℕ) (s : Redis) (a : Action) : Decidable (Allowed key cap s a) := by
  unfold Allowed
  split <;> infer_instance

/-- The sorted sets hold the leases that are live, each once, and no key goes before its members. -/
structure Stored : Prop where
  unique : ∀ (i j : ℕ) (g h : Grant), s.leases[i]? = some g → s.leases[j]? = some h →
    g.token = h.token → i = j
  nodup : ∀ key, ((s.zset key).map Prod.fst).Nodup
  holds : ∀ (i : ℕ) (g : Grant), s.leases[i]? = some g → g.released = false →
    s.clock < g.expiry → (g.token, g.expiry) ∈ s.zset g.key
  known : ∀ key m, m ∈ s.zset key → ∃ i : ℕ, s.leases[i]? = some ⟨key, m.1, m.2, false⟩
  deadline : ∀ key m, m ∈ s.zset key → ∃ e, s.expireAt key = some e ∧ m.2 ≤ e
  bounded : ∀ key m, m ∈ s.zset key → m.2 ≤ s.clock + ttl

theorem stored_start (ttl clock : Int) : Stored ttl (start clock) where
  unique i j g h hi := by simp [start] at hi
  nodup _ := nodup_nil
  holds i g hi := by simp [start] at hi
  known _ _ hm := by simp [start] at hm
  deadline _ _ hm := by simp [start] at hm
  bounded _ _ hm := by simp [start] at hm

variable {token : String}

section Stored

variable {ttl : Int} {s : Redis} {key : LeaseKey}

theorem members_subset (s : Redis) (key : LeaseKey) : s.members key ⊆ s.zset key := by
  unfold members
  split_ifs
  · exact nil_subset _
  · exact List.Subset.refl _

/-- What a script counts: the deadline of a key takes no member that has not expired. -/
theorem unexpired_members (h : Stored ttl s) (key : LeaseKey) :
    unexpired (s.members key) s.clock = unexpired (s.zset key) s.clock := by
  unfold members
  split_ifs with hgone
  · refine (filter_eq_nil_iff.mpr ?_).symm
    intro m hm
    obtain ⟨e, he, hle⟩ := h.deadline key m hm
    rw [he, Option.any_some, decide_eq_true_eq] at hgone
    simp only [decide_eq_true_eq, not_lt]
    omega
  · rfl

theorem mem_unexpired {l : List (String × Int)} {now : Int} {m : String × Int} :
    m ∈ unexpired l now ↔ m ∈ l ∧ now < m.2 := by
  simp [unexpired]

theorem length_unexpired (h : Stored ttl s) (key : LeaseKey) :
    (unexpired (s.members key) s.clock).length = (s.live key).card := by
  rw [unexpired_members h]
  set tokenOf : ℕ → String := fun i => (s.leases[i]?.map Grant.token).getD "" with htok
  have hinj : Set.InjOn tokenOf (s.live key) := by
    intro i hi j hj hij
    obtain ⟨g, hg, -⟩ := mem_places.mp hi
    obtain ⟨g', hg', -⟩ := mem_places.mp hj
    simp only [htok, hg, hg', Option.map_some, Option.getD_some] at hij
    exact h.unique i j g g' hg hg' hij
  have himage : (s.live key).image tokenOf = ((unexpired (s.zset key) s.clock).map Prod.fst).toFinset := by
    ext token
    rw [Finset.mem_image, mem_toFinset, mem_map]
    constructor
    · rintro ⟨i, hi, rfl⟩
      obtain ⟨g, hg, hlive⟩ := mem_places.mp hi
      obtain ⟨rfl, hrel, hexp⟩ : g.key = key ∧ g.released = false ∧ s.clock < g.expiry := by
        simpa [isLive] using hlive
      refine ⟨(g.token, g.expiry), mem_unexpired.mpr ⟨h.holds i g hg hrel hexp, hexp⟩, ?_⟩
      simp [htok, hg]
    · rintro ⟨m, hm, rfl⟩
      obtain ⟨hm, hexp⟩ := mem_unexpired.mp hm
      obtain ⟨i, hi⟩ := h.known key m hm
      refine ⟨i, mem_places.mpr ⟨_, hi, ?_⟩, ?_⟩
      · simp [isLive, hexp]
      · simp [htok, hi]
  have hnodup : ((unexpired (s.zset key) s.clock).map Prod.fst).Nodup :=
    (filter_sublist.map Prod.fst).nodup (h.nodup key)
  rw [← Finset.card_image_of_injOn hinj, himage, toFinset_card_of_nodup hnodup, length_map]

theorem Stored.shrink (h : Stored ttl s) {zset : LeaseKey → List (String × Int)}
    (hsub : ∀ k, List.Sublist (zset k) (s.zset k)) (hkeep : ∀ k m, m ∈ s.zset k → s.clock < m.2 → m ∈ zset k) :
    Stored ttl { s with zset } where
  unique := h.unique
  nodup k := ((hsub k).map Prod.fst).nodup (h.nodup k)
  holds i g hg hrel hexp := hkeep _ _ (h.holds i g hg hrel hexp) hexp
  known k m hm := h.known k m ((hsub k).subset hm)
  deadline k m hm := h.deadline k m ((hsub k).subset hm)
  bounded k m hm := h.bounded k m ((hsub k).subset hm)

theorem members_sublist (s : Redis) (key : LeaseKey) : List.Sublist (s.members key) (s.zset key) := by
  unfold members
  split_ifs
  · exact nil_sublist _
  · exact List.Sublist.refl _

section

variable (h : Stored ttl s)

include h

theorem Stored.purge (key : LeaseKey) : Stored ttl { s with
      zset := update s.zset key (unexpired (s.members key) s.clock) } := by
  refine h.shrink ?_ ?_
  · intro k
    by_cases hk : k = key
    · subst hk
      rw [update_self]
      exact filter_sublist.trans (members_sublist s k)
    · rw [update_of_ne hk]
  · intro k m hm hexp
    by_cases hk : k = key
    · subst hk
      rw [update_self, unexpired_members h]
      exact mem_unexpired.mpr ⟨hm, hexp⟩
    · rw [update_of_ne hk]
      exact hm

theorem Stored.grant (key : LeaseKey) (hfresh : ∀ g ∈ s.leases, g.token ≠ token) : Stored ttl { s with
      zset := update s.zset key (s.zset key ++ [(token, s.clock + ttl)])
      expireAt := update s.expireAt key (some (s.clock + ttl))
      leases := s.leases ++ [⟨key, token, s.clock + ttl, false⟩] } := by
  have hmem {k : LeaseKey} {m : String × Int} (hm : m ∈ update s.zset key (s.zset key ++ [(token, s.clock + ttl)]) k) :
      m ∈ s.zset k ∨ (k = key ∧ m = (token, s.clock + ttl)) := by
    by_cases hk : k = key
    · subst hk
      rw [update_self, mem_append, mem_singleton] at hm
      exact hm.imp_right fun h => ⟨rfl, h⟩
    · rw [update_of_ne hk] at hm
      exact .inl hm
  have hplace {i : ℕ} {g : Grant} (hg : (s.leases ++ [⟨key, token, s.clock + ttl, false⟩])[i]? = some g) :
      s.leases[i]? = some g ∨ (i = s.leases.length ∧ g = ⟨key, token, s.clock + ttl, false⟩) := by
    rcases lt_trichotomy i s.leases.length with hi | rfl | hi
    · rw [getElem?_append_left hi] at hg
      exact .inl hg
    · simp only [getElem?_concat_length, Option.some.injEq] at hg
      exact .inr ⟨rfl, hg.symm⟩
    · rw [getElem?_eq_none_iff.mpr (by simp; omega)] at hg
      cases hg
  refine ⟨?_, ?_, ?_, ?_, ?_, ?_⟩
  · intro i j g g' hi hj htoken
    rcases hplace hi with hi | ⟨rfl, rfl⟩
    · rcases hplace hj with hj | ⟨-, rfl⟩
      · exact h.unique i j g g' hi hj htoken
      · exact absurd htoken (hfresh g (mem_of_getElem? hi))
    · rcases hplace hj with hj | ⟨rfl, -⟩
      · exact absurd htoken.symm (hfresh g' (mem_of_getElem? hj))
      · rfl
  · intro k
    by_cases hk : k = key
    · subst hk
      show ((update s.zset k (s.zset k ++ [(token, s.clock + ttl)]) k).map Prod.fst).Nodup
      rw [update_self, map_append, map_singleton]
      refine List.Nodup.append (h.nodup k) (nodup_singleton _) ?_
      intro tok hmem htok
      obtain ⟨m, hm, rfl⟩ := mem_map.mp hmem
      obtain ⟨i, hi⟩ := h.known k m hm
      exact hfresh _ (mem_of_getElem? hi) (mem_singleton.mp htok)
    · show ((update s.zset key _ k).map Prod.fst).Nodup
      rw [update_of_ne hk]
      exact h.nodup k
  · intro i g hi hrel hexp
    show (g.token, g.expiry) ∈ update s.zset key _ g.key
    rcases hplace hi with hi | ⟨-, rfl⟩
    · have hold := h.holds i g hi hrel hexp
      by_cases hk : g.key = key
      · rw [hk, update_self]
        rw [hk] at hold
        exact mem_append_left _ hold
      · rw [update_of_ne hk]
        exact hold
    · rw [update_self]
      exact mem_append_right _ (mem_singleton.mpr rfl)
  · intro k m hm
    rcases hmem hm with hm | ⟨rfl, rfl⟩
    · obtain ⟨i, hi⟩ := h.known k m hm
      exact ⟨i, by rw [List.getElem?_append_left (List.getElem?_eq_some_iff.mp hi).1]; exact hi⟩
    · exact ⟨s.leases.length, getElem?_concat_length⟩
  · intro k m hm
    show ∃ e, update s.expireAt key (some (s.clock + ttl)) k = some e ∧ m.2 ≤ e
    rcases hmem hm with hold | ⟨rfl, rfl⟩
    · by_cases hk : k = key
      · subst hk
        exact ⟨_, update_self _ _ _, h.bounded k m hold⟩
      · rw [update_of_ne hk]
        exact h.deadline k m hold
    · exact ⟨_, update_self _ _ _, le_rfl⟩
  · intro k m hm
    rcases hmem hm with hm | ⟨rfl, rfl⟩
    · exact h.bounded k m hm
    · exact le_rfl

theorem acquire_of_none (hearly : key.early maxConcurrency = none) (hfresh : ∀ g ∈ s.leases, g.token ≠ token) :
    acquire ttl s key maxConcurrency token =
      if maxConcurrency ≤ (s.live key).card then
        (.refused, { s with zset := update s.zset key (unexpired (s.members key) s.clock) })
      else (.leased,
        { s with
          zset := update s.zset key (unexpired (s.members key) s.clock ++ [(token, s.clock + ttl)])
          expireAt := update s.expireAt key (some (s.clock + ttl))
          leases := s.leases ++ [⟨key, token, s.clock + ttl, false⟩] }) := by
  have hadd : zadd (unexpired (s.members key) s.clock) token (s.clock + ttl) =
      unexpired (s.members key) s.clock ++ [(token, s.clock + ttl)] := by
    unfold zadd
    rw [filter_eq_self.mpr]
    intro m hm
    obtain ⟨i, hi⟩ := h.known key m (members_subset s key (mem_unexpired.mp hm).1)
    exact decide_eq_true (hfresh _ (mem_of_getElem? hi))
  rw [acquire, hearly]
  simp only [acquireScript, hadd, length_unexpired h]
  split_ifs <;> rfl

theorem stored_acquire
    (hfresh : ∀ g ∈ s.leases, g.token ≠ token) : Stored ttl (acquire ttl s key maxConcurrency token).2 := by
  cases hearly : key.early maxConcurrency with
  | some outcome =>
    rw [acquire, hearly]
    exact h
  | none =>
    rw [acquire_of_none h hearly hfresh]
    split_ifs with hfull
    · exact h.purge key
    · have hgrant := (h.purge key).grant key hfresh
      simpa only [update_self, update_idem] using hgrant

theorem stored_release (i : ℕ) : Stored ttl (s.release i) := by
  unfold release
  split
  · rename_i key token expiry hclosure
    have hplace {j : ℕ} {g : Grant} (hg : (s.leases.set i ⟨key, token, expiry, true⟩)[j]? = some g) :
        (j ≠ i ∧ s.leases[j]? = some g) ∨ (j = i ∧ g = ⟨key, token, expiry, true⟩) := by
      by_cases hj : j = i
      · subst hj
        rw [List.getElem?_set_self (List.getElem?_eq_some_iff.mp hclosure).1] at hg
        exact .inr ⟨rfl, (Option.some.inj hg).symm⟩
      · rw [getElem?_set_ne (Ne.symm hj)] at hg
        exact .inl ⟨hj, hg⟩
    have hsub (k : LeaseKey) : List.Sublist (update s.zset key
        ((s.members key).filter fun m => m.1 ≠ token) k) (s.zset k) := by
      by_cases hk : k = key
      · subst hk
        rw [update_self]
        exact filter_sublist.trans (members_sublist s k)
      · rw [update_of_ne hk]
    refine ⟨?_, fun k => ((hsub k).map Prod.fst).nodup (h.nodup k), ?_, ?_,
      fun k m hm => h.deadline k m ((hsub k).subset hm), fun k m hm => h.bounded k m ((hsub k).subset hm)⟩
    · -- the tokens are the same as before
      intro a b g g' ha hb htoken
      rcases hplace ha with ⟨-, hga⟩ | ⟨rfl, rfl⟩
      · rcases hplace hb with ⟨-, hgb⟩ | ⟨rfl, rfl⟩
        · exact h.unique a b g g' hga hgb htoken
        · exact h.unique a b g _ hga hclosure htoken
      · rcases hplace hb with ⟨-, hgb⟩ | ⟨rfl, -⟩
        · exact h.unique a b _ g' hclosure hgb htoken
        · rfl
    · intro j g hj hrel hexp
      rcases hplace hj with ⟨hne, hj⟩ | ⟨-, rfl⟩
      · have hold := h.holds j g hj hrel hexp
        show (g.token, g.expiry) ∈ update s.zset key _ g.key
        by_cases hk : g.key = key
        · have hmem : (g.token, g.expiry) ∈ unexpired (s.members g.key) s.clock := by
            rw [unexpired_members h]
            exact mem_unexpired.mpr ⟨hold, hexp⟩
          rw [hk] at hmem ⊢
          rw [update_self, mem_filter]
          refine ⟨(mem_unexpired.mp hmem).1, decide_eq_true ?_⟩
          intro htoken
          exact hne (h.unique j i g _ hj hclosure htoken)
        · rw [update_of_ne hk]
          exact hold
      · cases hrel
    · intro k m hm
      obtain ⟨j, hj⟩ := h.known k m ((hsub k).subset hm)
      have hne : j ≠ i := by
        rintro rfl
        obtain ⟨rfl, htoken, -⟩ : k = key ∧ m.1 = token ∧ m.2 = expiry := by
          simpa using hj.symm.trans hclosure
        have hm' : m ∈ (s.members k).filter fun m => m.1 ≠ token := by simpa only [update_self] using hm
        exact of_decide_eq_true (mem_filter.mp hm').2 htoken
      exact ⟨j, by rw [getElem?_set_ne (Ne.symm hne)]; exact hj⟩
  · exact h

theorem stored_advance (seconds : ℕ) : Stored ttl { s with clock := s.clock + seconds } where
  unique := h.unique
  nodup := h.nodup
  holds i g hi hrel hexp := h.holds i g hi hrel (by
    have : s.clock + seconds < g.expiry := hexp
    omega)
  known := h.known
  deadline := h.deadline
  bounded k m hm := by
    have := h.bounded k m hm
    show m.2 ≤ s.clock + seconds + ttl
    omega

end

end Stored

theorem live_release (s : Redis) (i : ℕ) (key : LeaseKey) : (s.release i).live key = (s.live key).erase i := by
  unfold release
  split
  · exact places_set (by simp [isLive])
  · rename_i hno
    refine (Finset.erase_eq_of_notMem ?_).symm
    rw [live, mem_places]
    rintro ⟨⟨k, token, expiry, released⟩, hg, hp⟩
    obtain ⟨-, rfl, -⟩ : k = key ∧ released = false ∧ s.clock < expiry := by simpa [isLive] using hp
    exact hno k token expiry hg

theorem redis_implements {ttl : Int} {key : LeaseKey} :
    Implements cap (step ttl) (Allowed key cap) (Stored ttl) fun s => s.live key where
  inv s a h hallowed := by
    cases a with
    | acquire k maxConcurrency token => exact stored_acquire h hallowed.2
    | release i => exact stored_release h i
    | advance seconds => exact stored_advance h seconds
  event s a h hallowed := by
    cases a with
    | release i => exact ⟨.release i, live_release s i key⟩
    | advance seconds =>
      refine ⟨.expire _, places_filter fun g hg => ?_⟩
      obtain ⟨hkey, hrel, hexp⟩ : g.key = key ∧ g.released = false ∧ s.clock + seconds < g.expiry :=
        of_decide_eq_true hg
      exact decide_eq_true ⟨hkey, hrel, by omega⟩
    | acquire k maxConcurrency token =>
      show ∃ e, (acquire ttl s k maxConcurrency token).2.live key = _
      cases hearly : k.early maxConcurrency with
      | some outcome =>
        refine ⟨.expire ∅, ?_⟩
        rw [acquire, hearly, next_expire_empty]
      | none =>
        rw [acquire_of_none h hearly hallowed.2]
        by_cases hfull : maxConcurrency ≤ (s.live k).card
        · refine ⟨.expire ∅, ?_⟩
          rw [if_pos hfull, next_expire_empty]
          rfl
        rw [if_neg hfull]
        by_cases hnew : isLive key s.clock ⟨k, token, s.clock + ttl, false⟩ = true
        · refine ⟨.acquire s.leases.length, ?_⟩
          have hk : k = key := by
            simp only [isLive, decide_eq_true_eq] at hnew
            exact hnew.1
          subst hk
          have hcap : maxConcurrency = cap := hallowed.1 rfl
          have hroom : (s.live k).card < cap := by omega
          rw [Semaphore.next, if_pos hroom]
          exact places_append_of_true hnew
        · refine ⟨.expire ∅, ?_⟩
          rw [next_expire_empty]
          exact places_append_of_false (by simpa using hnew)

theorem acquire_leased {ttl : Int} {s : Redis} (h : Stored ttl s) {key : LeaseKey}
    (hearly : key.early cap = none) (hfresh : ∀ g ∈ s.leases, g.token ≠ token) (hpos : 0 < ttl)
    (hleased : (acquire ttl s key cap token).1 = .leased) :
    ∃ i ∉ s.live key, (acquire ttl s key cap token).2.live key = insert i (s.live key) := by
  rw [acquire_of_none h hearly hfresh] at hleased ⊢
  split_ifs at hleased ⊢
  exact ⟨_, length_notMem_places, places_append_of_true (by simp [isLive]; omega)⟩

theorem acquire_refused {ttl : Int} {s : Redis} (h : Stored ttl s) {key : LeaseKey}
    (hearly : key.early cap = none) (hfresh : ∀ g ∈ s.leases, g.token ≠ token)
    (hrefused : (acquire ttl s key cap token).1 = .refused) : cap ≤ (s.live key).card := by
  rw [acquire_of_none h hearly hfresh] at hrefused
  by_contra hroom
  rw [if_neg (by omega)] at hrefused
  cases hrefused

end Redis

/-! ### The cap -/

/-- **Lease cap**: for a key whose leases are counted, along every run and with either kind of leases,
at most `cap` leases are live, a release frees its own lease and no other, a granted lease is one new live
lease, and an acquire is refused only when `cap` leases are live. -/
theorem lease_cap {key : LeaseKey} {cap : ℕ} (hcounted : key.early cap = none) :
    (∀ (ttl clock : Int) (as : List Redis.Action),
      Along (Redis.step ttl) (Redis.Allowed key cap) (Redis.start clock) as →
      let s := run (Redis.step ttl) (Redis.start clock) as
      (s.live key).card ≤ cap ∧ (∀ i k, (s.release i).live k = (s.live k).erase i) ∧
      ∀ token, (∀ g ∈ s.leases, g.token ≠ token) →
        (0 < ttl → (Redis.acquire ttl s key cap token).1 = .leased →
          ∃ i ∉ s.live key, (Redis.acquire ttl s key cap token).2.live key = insert i (s.live key)) ∧
        ((Redis.acquire ttl s key cap token).1 = .refused → (s.live key).card = cap)) ∧
    (∀ as : List Memory.Action, Along Memory.step (Memory.Allowed key cap) Memory.start as →
      let s := run Memory.step Memory.start as
      (s.live key).card ≤ cap ∧ (∀ i k, (s.release i).live k = (s.live k).erase i) ∧
      ((s.acquire key cap).1 = .leased →
        ∃ i ∉ s.live key, (s.acquire key cap).2.live key = insert i (s.live key)) ∧
      ((s.acquire key cap).1 = .refused → (s.live key).card = cap)) := by
  refine ⟨?_, ?_⟩
  · intro ttl clock as has s
    obtain ⟨hstored, hcard⟩ :=
      Redis.redis_implements.card_le (Redis.stored_start ttl clock) (Nat.zero_le cap) has
    refine ⟨hcard, fun i k => Redis.live_release _ i k, fun token hfresh => ⟨?_, fun hrefused => ?_⟩⟩
    · exact Redis.acquire_leased hstored hcounted hfresh
    · exact le_antisymm hcard (Redis.acquire_refused hstored hcounted hfresh hrefused)
  · intro as has s
    obtain ⟨hcount, hcard⟩ := Memory.memory_implements.card_le Memory.counted_start (Nat.zero_le cap) has
    refine ⟨hcard, fun i k => Memory.live_release _ i k, Memory.acquire_leased hcounted, fun hrefused => ?_⟩
    exact le_antisymm hcard (Memory.acquire_refused hcount hcounted hrefused)

def exampleRedisRun : List Redis.Action :=
  [.acquire (.account 5) 1 "a", .acquire (.account 5) 1 "b", .release 0, .release 0,
    .acquire (.account 5) 1 "c", .advance 40, .acquire (.account 5) 1 "d"]

def exampleMemoryRun : List Memory.Action :=
  [.acquire (.account 5) 1, .acquire (.account 5) 1, .release 0, .release 0, .acquire (.account 5) 1]

theorem lease_cap_of_one :
    ((run (Redis.step 30) (Redis.start 0) exampleRedisRun).live (.account 5)).card ≤ 1 ∧
    (Redis.acquire 30 (run (Redis.step 30) (Redis.start 0) exampleRedisRun) (.account 5) 1 "e").1 =
      .refused ∧ ((run (Redis.step 30) (Redis.start 0) exampleRedisRun).live (.account 5)).card = 1 ∧
    ((run Memory.step Memory.start exampleMemoryRun).live (.account 5)).card ≤ 1 := by
  have hcap := @lease_cap (.account 5) 1 (by decide)
  obtain ⟨hle, -, hfull⟩ := hcap.1 30 0 exampleRedisRun (by decide)
  have hrefused : (Redis.acquire 30 (run (Redis.step 30) (Redis.start 0) exampleRedisRun) (.account 5) 1
      "e").1 = .refused := by decide
  exact ⟨hle, hrefused, (hfull "e" (by decide)).2 hrefused, (hcap.2 exampleMemoryRun (by decide)).1⟩

end WynthApi.Pool

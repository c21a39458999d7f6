import Mathlib.Algebra.Order.Group.Int
import Mathlib.Data.Option.Basic
import WynthApi.Lib.Run

/-!
# Pinned sessions (service/account_pool_affinity.go, service/account_pool_redis.go)

A session is pinned to an account for an idle time that every `remember` renews, and for a hard cap since
the pin was made.  Redis drops a pin when its time is over; in memory it stays until a lookup finds it, and
a `remember` in between takes over its age.

The Redis value `bindingID:accountID:createdAt` is kept as its fields.
-/

namespace WynthApi.Pool.Affinity

open StepSys Function

structure Entry where
  (bindingID accountID createdAt expiresAt : ℤ)
  deriving DecidableEq

structure Lifetimes where
  (ttlSeconds hardCapSeconds : ℤ)

abbrev Entries := String → Option Entry

variable (c : Lifetimes) (key : String) (bindingID accountID now : ℤ) (entries : Entries)

def live (entry : Option Entry) : Option Entry := entry.filter (now < ·.expiresAt)

/-- The pin is made when `existing` was, if there is one. -/
def pin (existing : Option Entry) : Entries :=
  if key = "" ∨ bindingID ≤ 0 ∨ accountID ≤ 0 then entries
  else update entries key (some ⟨bindingID, accountID, (existing.map (·.createdAt)).getD now, now + c.ttlSeconds⟩)

def remember : Entries := pin c key bindingID accountID now entries (entries key)

def redisRemember : Entries := pin c key bindingID accountID now entries (live now (entries key))

/-- What a lookup makes of the entry it found; without an account the entry is evicted. -/
def accountOf (entry : Entry) : Option ℤ :=
  if entry.bindingID ≠ bindingID ∨ entry.accountID ≤ 0 then none
  else if entry.createdAt + c.hardCapSeconds ≤ now then none
  else some entry.accountID

def lookup : Option ℤ × Entries :=
  if key = "" ∨ bindingID ≤ 0 then (none, entries)
  else match entries key with
    | none => (none, entries)
    | some entry =>
      if entry.expiresAt ≤ now then (none, update entries key none)
      else match accountOf c bindingID now entry with
        | none => (none, update entries key none)
        | some accountID => (some accountID, entries)

def redisLookup : Option ℤ × Entries :=
  if key = "" ∨ bindingID ≤ 0 then (none, entries)
  else match live now (entries key) with
    | none => (none, entries)
    | some entry => match accountOf c bindingID now entry with
      | none => (none, update entries key none)
      | some accountID => (some accountID, entries)

inductive Op where
  | remember (key : String) (bindingID accountID : ℤ)
  | lookup (key : String) (bindingID : ℤ)
  | forget (key : String)

def exec : Op → Option ℤ × Entries
  | .remember key bindingID accountID => (none, remember c key bindingID accountID now entries)
  | .lookup key bindingID => lookup c key bindingID now entries
  | .forget key => (none, update entries key none)

def redisExec : Op → Option ℤ × Entries
  | .remember key bindingID accountID => (none, redisRemember c key bindingID accountID now entries)
  | .lookup key bindingID => redisLookup c key bindingID now entries
  | .forget key => (none, update entries key none)

structure Managers where
  (memory redis : Entries)
  now : ℤ
  (found redisFound : List (Option ℤ))

def initial (now : ℤ) : Managers := ⟨fun _ => none, fun _ => none, now, [], []⟩

def step (s : Managers) (a : Op × ℤ) : Managers where
  memory := (exec c a.2 s.memory a.1).2
  redis := (redisExec c a.2 s.redis a.1).2
  now := a.2
  found := s.found ++ [(exec c a.2 s.memory a.1).1]
  redisFound := s.redisFound ++ [(redisExec c a.2 s.redis a.1).1]

/-- Times do not decrease, and no pin is renewed that is over. -/
def Renews (s : Managers) : Op × ℤ → Prop
  | (.remember key _ _, now) => s.now ≤ now ∧ ∀ entry ∈ s.memory key, now < entry.expiresAt
  | (_, now) => s.now ≤ now

def SameLive (memory redis : Entries) : Prop := ∀ key, live now (memory key) = live now (redis key)

variable {c key bindingID accountID now} {memory redis : Entries}

theorem SameLive.later (h : SameLive now memory redis) {now' : ℤ} (hle : now ≤ now') : SameLive now' memory redis := by
  have hlive : ∀ entry, live now' entry = live now' (live now entry) := by
    intro entry
    simp only [live, Option.filter_filter]
    congr 1
    funext e
    simp
    omega
  intro key
  rw [hlive, h key, ← hlive]

theorem SameLive.update (h : SameLive now memory redis) (key : String) {entry entry' : Option Entry}
    (heq : live now entry = live now entry') : SameLive now (update memory key entry) (update redis key entry') := by
  intro k
  by_cases hk : k = key
  · subst hk
    simpa using heq
  · rw [update_of_ne hk, update_of_ne hk]
    exact h k

theorem SameLive.lookup (h : SameLive now memory redis) :
    (lookup c key bindingID now memory).1 = (redisLookup c key bindingID now redis).1 ∧
    SameLive now (lookup c key bindingID now memory).2 (redisLookup c key bindingID now redis).2 := by
  have hkey := h key
  unfold Affinity.lookup redisLookup
  split_ifs with hnone
  · exact ⟨rfl, h⟩
  · rw [← hkey]
    cases hentry : memory key with
    | none => exact ⟨rfl, h⟩
    | some entry =>
      by_cases hover : entry.expiresAt ≤ now
      · have hlive : live now (some entry) = none := Option.filter_some_neg (by simpa using hover)
        rw [hlive]
        simp only [if_pos hover]
        have hgone := h.update key (show live now none = live now (redis key) by rw [← hkey, hentry, hlive]; rfl)
        rw [update_eq_self] at hgone
        exact ⟨trivial, hgone⟩
      · have hlive : live now (some entry) = some entry := Option.filter_some_pos (by simpa using hover)
        rw [hlive]
        simp only [if_neg hover]
        cases accountOf c bindingID now entry with
        | none => exact ⟨rfl, h.update key rfl⟩
        | some account => exact ⟨rfl, h⟩

/-- **Simulation**: both have the same live pins and have found the same accounts. -/
structure Alike (s : Managers) : Prop where
  pins : SameLive s.now s.memory s.redis
  found : s.found = s.redisFound

theorem Alike.step {s : Managers} {a : Op × ℤ} (h : Alike s) (hrenews : Renews s a) : Alike (step c s a) := by
  obtain ⟨op, now⟩ := a
  have hle : s.now ≤ now := by
    cases op with
    | remember => exact hrenews.1
    | _ => exact hrenews
  have hpins := h.pins.later hle
  have hexec : (exec c now s.memory op).1 = (redisExec c now s.redis op).1 ∧
      SameLive now (exec c now s.memory op).2 (redisExec c now s.redis op).2 := by
    cases op with
    | lookup key bindingID => exact hpins.lookup
    | forget key => exact ⟨rfl, hpins.update key rfl⟩
    | remember key bindingID accountID =>
      have hlive : live now (s.memory key) = s.memory key := by
        cases hentry : s.memory key with
        | none => rfl
        | some entry => exact Option.filter_some_pos (by simpa using hrenews.2 entry hentry)
      refine ⟨rfl, ?_⟩
      change SameLive now (remember c key bindingID accountID now s.memory) (redisRemember c key bindingID accountID now s.redis)
      rw [remember, redisRemember, ← hpins key, hlive, pin, pin]
      split_ifs
      · exact hpins
      · exact hpins.update key rfl
  exact ⟨hexec.2, by rw [Affinity.step, h.found, hexec.1]⟩

/-- **Redis and memory agree** on every lookup, if no pin is renewed that is over. -/
theorem lookups_agree {start : ℤ} {ops : List (Op × ℤ)}
    (hrenews : Along (step c) Renews (initial start) ops) :
    (run (step c) (initial start) ops).found = (run (step c) (initial start) ops).redisFound :=
  (run_inv (I := Alike) (fun _ _ h hr => h.step hr) ⟨fun _ => rfl, rfl⟩ hrenews).found

theorem lookups_agree_renewed :
    let ops : List (Op × ℤ) := [(.remember "k" 1 7, 1), (.remember "k" 1 8, 1000), (.lookup "k" 1, 2000)]
    (run (step ⟨1800, 14400⟩) (initial 1) ops).found =
      (run (step ⟨1800, 14400⟩) (initial 1) ops).redisFound :=
  lookups_agree (by simp [Along, Renews, step, exec, remember, pin, initial])

/-- A pin that was over is renewed in memory with its age, and reaches the hard cap before the new one. -/
theorem renewed_pin_capped :
    let ops : List (Op × ℤ) := [(.remember "k" 1 7, 1), (.remember "k" 1 7, 14000), (.lookup "k" 1, 14401)]
    (run (step ⟨1800, 14400⟩) (initial 1) ops).found = [none, none, none] ∧
    (run (step ⟨1800, 14400⟩) (initial 1) ops).redisFound = [none, none, some 7] := by
  decide

end WynthApi.Pool.Affinity

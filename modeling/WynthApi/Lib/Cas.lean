import Mathlib.Logic.Function.Basic
import Mathlib.Tactic.SplitIfs

/-!
# Guarded updates of a shared record

Parties hold private copies of one record and write a whole copy back, guarded by the key they have
read (`write`); `write_cases` says what such a write can do.

`Idle` and `Solo` are about the table of the parties when at most one of them may be busy.
-/

namespace Cas

open Function

section Write

variable {R K E : Type*} [DecidableEq K] {key : R → K} {record record' copy : R} {expected : K}
  {fault : Option E} {won : Bool}

/-- Write `copy` iff the statement does not fail and the record still has the key `expected`; the
first component says whether it did. -/
def write (key : R → K) (record copy : R) (expected : K) (fault : Option E) : Bool × R :=
  if fault.isNone = true ∧ key record = expected then (true, copy) else (false, record)

/-- **Outcome of a guarded write**: it wrote the whole copy over the key it expected, or nothing. -/
theorem write_cases (h : write key record copy expected fault = (won, record')) :
    (won = true ∧ key record = expected ∧ record' = copy) ∨ (won = false ∧ record' = record) := by
  unfold write at h
  split_ifs at h with hc
  · obtain ⟨rfl, rfl⟩ := Prod.mk.inj h
    exact .inl ⟨rfl, hc.2, rfl⟩
  · obtain ⟨rfl, rfl⟩ := Prod.mk.inj h
    exact .inr ⟨rfl, rfl⟩

end Write

section Table

variable {P H : Type*} {busy : H → Prop} {table : P → Option H} {p k : P} {v : Option H} {x : H}

def Idle (busy : H → Prop) (table : P → Option H) : Prop := ∀ p x, table p = some x → ¬ busy x

def Solo (busy : H → Prop) (table : P → Option H) (p : P) : Prop :=
  ∀ k x, table k = some x → busy x → k = p

theorem Idle.solo (h : Idle busy table) : Solo busy table p :=
  fun k x hk hx => absurd hx (h k x hk)

variable [DecidableEq P]

theorem lookup_update (hk : update table p v k = some x) : (k = p ∧ v = some x) ∨ (k ≠ p ∧ table k = some x) := by
  by_cases hkp : k = p
  · subst hkp
    rw [update_self] at hk
    exact .inl ⟨rfl, hk⟩
  · rw [update_of_ne hkp] at hk
    exact .inr ⟨hkp, hk⟩

theorem busy_update (hv : ∀ y, v = some y → ¬ busy y) (hk : update table p v k = some x)
    (hx : busy x) : table k = some x := by
  rcases lookup_update hk with ⟨-, hvx⟩ | ⟨-, hk⟩
  · exact absurd hx (hv x hvx)
  · exact hk

theorem Idle.update (h : Idle busy table) (hv : ∀ y, v = some y → ¬ busy y) : Idle busy (update table p v) :=
  fun k x hk hx => h k x (busy_update hv hk hx) hx

theorem Solo.update (h : Solo busy table k) (hv : ∀ y, v = some y → ¬ busy y) : Solo busy (update table p v) k :=
  fun j x hj hx => h j x (busy_update hv hj hx) hx

theorem Solo.update_self (h : Solo busy table p) : Solo busy (Function.update table p v) p := by
  intro k x hk hx
  rcases lookup_update hk with ⟨rfl, -⟩ | ⟨-, hk⟩
  · rfl
  · exact h k x hk hx

theorem Solo.idle_update (h : Solo busy table p) (hv : ∀ y, v = some y → ¬ busy y) :
    Idle busy (Function.update table p v) := by
  intro k x hk hx
  rcases lookup_update hk with ⟨-, hvx⟩ | ⟨hkp, hk⟩
  · exact hv x hvx hx
  · exact hkp (h k x hk hx)

end Table

end Cas

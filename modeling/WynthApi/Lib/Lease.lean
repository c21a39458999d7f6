import Mathlib.Order.Lattice

/-!
# A lease: one holder, until an expiry

A lease is nobody's, or it is held by someone until a time.  What an actor may do to it is one relation, `Move`:
leave it, or, if it is free to the actor, drop it or take it.
-/

namespace Lease

variable {ω τ : Type*} [LinearOrder τ] {now : τ} {actor o : ω} {l l' : Option (ω × τ)} {expiry : τ}

def Free (now : τ) (actor : ω) (l : Option (ω × τ)) : Prop := ∀ h ∈ l, h.1 = actor ∨ h.2 ≤ now

def Move (now : τ) (actor : ω) (l l' : Option (ω × τ)) : Prop :=
  l' = l ∨ Free now actor l ∧ (l' = none ∨ ∃ expiry, l' = some (actor, expiry))

def HeldUntil (o : ω) (expiry : τ) (l : Option (ω × τ)) : Prop := ∃ e, l = some (o, e) ∧ expiry ≤ e

theorem HeldUntil.not_free (h : HeldUntil o expiry l) (hne : actor ≠ o) (hnow : now < expiry) : ¬ Free now actor l := by
  obtain ⟨e, rfl, he⟩ := h
  intro hfree
  rcases hfree (o, e) rfl with hmine | hpast
  · exact hne hmine.symm
  · exact absurd (hnow.trans_le he) (not_lt.mpr hpast)

/-- **Exclusion**: a lease that somebody else holds past `now` stays as it is. -/
theorem Move.heldUntil (h : Move now actor l l') (hheld : HeldUntil o expiry l) (hne : actor ≠ o)
    (hnow : now < expiry) : l' = l := by
  rcases h with h | ⟨hfree, -⟩
  · exact h
  · exact absurd hfree (hheld.not_free hne hnow)

theorem Move.holder (h : Move now actor l l') {e : τ} (hl' : l' = some (o, e)) (hne : actor ≠ o) : l = some (o, e) := by
  rcases h with h | ⟨-, h | ⟨expiry, h⟩⟩
  · exact h.symm.trans hl'
  · rw [h] at hl'
    cases hl'
  · rw [h] at hl'
    cases hl'
    exact absurd rfl hne

end Lease

import Mathlib.Data.Finset.Card
import Mathlib.Data.Finset.Range
import WynthApi.Lib.Run

/-!
# A counted resource whose holders may run out of time

The state of a semaphore is the finite set of its live leases.  A lease is asked for, given back, or
runs out (`Event`); `next` says what that does under a cap.  An implementation `Implements` the
semaphore if each of its steps is one event on the set of leases it shows (`view`), and then no run
of it shows more than the cap (`Implements.card_le`).

An implementation that hands out its leases in order can name them by their place in a list (`places`).
-/

namespace Semaphore

open Finset

section Abstract

variable {ι : Type*}

/-- A lease is asked for under the name `i`, `i` is given back, or some leases run out. -/
inductive Event (ι : Type*) where
  | acquire (i : ι)
  | release (i : ι)
  | expire (gone : Finset ι)

variable [DecidableEq ι] {cap : ℕ} {live : Finset ι}

def next (cap : ℕ) (live : Finset ι) : Event ι → Finset ι
  | .acquire i => if live.card < cap then insert i live else live
  | .release i => live.erase i
  | .expire gone => live \ gone

theorem card_next_le (h : live.card ≤ cap) (e : Event ι) : (next cap live e).card ≤ cap := by
  cases e with
  | acquire i =>
    simp only [next]
    split_ifs with hroom
    · have := card_insert_le i live
      omega
    · exact h
  | release i => exact (card_erase_le).trans h
  | expire gone => exact (card_le_card sdiff_subset).trans h

theorem next_expire_empty (cap : ℕ) (live : Finset ι) : next cap live (.expire ∅) = live :=
  sdiff_empty

variable {σ α : Type*}

/-- Every allowed step from an invariant state is one event on the leases that the state shows. -/
structure Implements (cap : ℕ) (step : σ → α → σ) (P : σ → α → Prop) (I : σ → Prop)
    (view : σ → Finset ι) : Prop where
  inv : ∀ s a, I s → P s a → I (step s a)
  event : ∀ s a, I s → P s a → ∃ e, view (step s a) = next cap (view s) e

/-- **Cap**: an implementation never shows more live leases than the cap. -/
theorem Implements.card_le {step : σ → α → σ} {P : σ → α → Prop} {I : σ → Prop}
    {view : σ → Finset ι} (h : Implements cap step P I view) {s : σ} {as : List α} (hI : I s)
    (hcard : (view s).card ≤ cap) (has : StepSys.Along step P s as) :
    I (StepSys.run step s as) ∧ (view (StepSys.run step s as)).card ≤ cap := by
  refine StepSys.run_inv (I := fun s => I s ∧ (view s).card ≤ cap) ?_ ⟨hI, hcard⟩ has
  rintro s a ⟨hI, hcard⟩ hP
  obtain ⟨e, he⟩ := h.event s a hI hP
  refine ⟨h.inv s a hI hP, ?_⟩
  rw [he]
  exact card_next_le hcard e

end Abstract

section Places

variable {β : Type*} {p q : β → Bool} {l : List β} {i : ℕ} {x y : β}

def places (p : β → Bool) (l : List β) : Finset ℕ :=
  (Finset.range l.length).filter fun i => l[i]?.any p = true

theorem mem_places : i ∈ places p l ↔ ∃ x, l[i]? = some x ∧ p x = true := by
  unfold places
  rw [mem_filter, mem_range]
  constructor
  · rintro ⟨hi, hp⟩
    rw [List.getElem?_eq_getElem hi] at hp ⊢
    exact ⟨_, rfl, hp⟩
  · rintro ⟨x, hx, hp⟩
    refine ⟨(List.getElem?_eq_some_iff.mp hx).1, ?_⟩
    rw [hx]
    exact hp

theorem getElem?_concat_of_ne (hi : i ≠ l.length) : (l ++ [x])[i]? = l[i]? := by
  rcases lt_or_gt_of_ne hi with hlt | hgt
  · exact List.getElem?_append_left hlt
  · rw [List.getElem?_eq_none_iff.mpr hgt.le, List.getElem?_eq_none_iff, List.length_append,
      List.length_singleton]
    omega

theorem places_append_of_true (h : p x = true) : places p (l ++ [x]) = insert l.length (places p l) := by
  ext i
  rw [mem_insert, mem_places, mem_places]
  by_cases hi : i = l.length
  · subst hi
    simp [h]
  · rw [getElem?_concat_of_ne hi]
    simp [hi]

theorem places_append_of_false (h : p x = false) : places p (l ++ [x]) = places p l := by
  ext i
  rw [mem_places, mem_places]
  by_cases hi : i = l.length
  · subst hi
    simp [h]
  · rw [getElem?_concat_of_ne hi]

theorem length_notMem_places : l.length ∉ places p l := by
  rw [mem_places]
  simp

theorem places_set (hy : p y = false) : places p (l.set i y) = (places p l).erase i := by
  ext j
  rw [mem_erase, mem_places, mem_places]
  by_cases hj : j = i
  · subst hj
    constructor
    · rintro ⟨z, hz, hp⟩
      rw [List.getElem?_set_self'] at hz
      cases hl : l[j]? with
      | none => simp [hl] at hz
      | some w =>
        rw [hl] at hz
        obtain rfl : y = z := Option.some.inj hz
        rw [hy] at hp
        cases hp
    · rintro ⟨hne, -⟩
      exact absurd rfl hne
  · rw [List.getElem?_set_ne (Ne.symm hj)]
    simp [hj]

theorem places_filter (h : ∀ x, q x = true → p x = true) :
    places q l = places p l \ (places p l).filter fun i => l[i]?.any q = false := by
  ext i
  rw [mem_sdiff, mem_filter, mem_places, mem_places]
  constructor
  · rintro ⟨x, hx, hq⟩
    refine ⟨⟨x, hx, h x hq⟩, ?_⟩
    rintro ⟨-, hno⟩
    simp [hx, hq] at hno
  · rintro ⟨⟨x, hx, hp⟩, hno⟩
    refine ⟨x, hx, ?_⟩
    by_contra hq
    exact hno ⟨⟨x, hx, hp⟩, by simpa [hx] using hq⟩

end Places

end Semaphore

import Mathlib.Data.List.Basic
import Mathlib.Order.MinMax

/-!
# The greatest and the least value along a list

`l.foldl (fun m a => max m (g a)) b` is an upper bound of `b` and of the values, and is one of them; for `min`
the order is turned round.
-/

namespace Fold

open List

variable {α β : Type} [LinearOrder β] {g : α → β} {b : β} {l : List α}

/-- A greatest value is at least its start. -/
theorem le_foldl_max : b ≤ l.foldl (fun m a => max m (g a)) b := by
  induction l generalizing b with
  | nil => exact le_rfl
  | cons a l ih => exact (le_max_left _ _).trans ih

variable {a : α}

/-- It is at least every value. -/
theorem le_foldl_max_of_mem (h : a ∈ l) : g a ≤ l.foldl (fun m a => max m (g a)) b := by
  induction l generalizing b with
  | nil => exact absurd h not_mem_nil
  | cons a' l ih =>
    rcases mem_cons.mp h with rfl | hin
    · exact (le_max_right _ _).trans le_foldl_max
    · exact ih hin

/-- It is the start or one of the values. -/
theorem foldl_max_eq : l.foldl (fun m a => max m (g a)) b = b ∨ ∃ a ∈ l, l.foldl (fun m a => max m (g a)) b = g a := by
  induction l generalizing b with
  | nil => exact .inl rfl
  | cons a l ih =>
    rw [foldl_cons]
    rcases @ih (max b (g a)) with hfirst | ⟨a', hin, hval⟩
    · rcases max_choice b (g a) with hb | ha
      · exact .inl (hfirst.trans hb)
      · exact .inr ⟨a, mem_cons_self, hfirst.trans ha⟩
    · exact .inr ⟨a', mem_cons_of_mem a hin, hval⟩

/-- Started inside the list, it does not depend on where. -/
theorem foldl_max_start {l : List β} {a b : β} (ha : a ∈ l) (hb : b ∈ l) : l.foldl max a = l.foldl max b := by
  have hle : ∀ a b, a ∈ l → l.foldl max a ≤ l.foldl max b := by
    intro a b ha
    rcases foldl_max_eq (g := id) (b := a) (l := l) with hval | ⟨x, hx, hval⟩
    · exact hval.le.trans (le_foldl_max_of_mem (g := id) ha)
    · exact hval.le.trans (le_foldl_max_of_mem (g := id) hx)
  exact le_antisymm (hle a b ha) (hle b a hb)

theorem foldl_min_le : l.foldl (fun m a => min m (g a)) b ≤ b := @le_foldl_max α βᵒᵈ _ g b l

theorem foldl_min_le_of_mem (h : a ∈ l) : l.foldl (fun m a => min m (g a)) b ≤ g a :=
  @le_foldl_max_of_mem α βᵒᵈ _ g b l a h

/-- A least value is the greatest lower bound. -/
theorem le_foldl_min {x : β} (hb : x ≤ b) (h : ∀ a ∈ l, x ≤ g a) : x ≤ l.foldl (fun m a => min m (g a)) b := by
  induction l generalizing b with
  | nil => exact hb
  | cons a l ih =>
    exact ih (le_min hb (h a mem_cons_self)) fun a' ha' => h a' (mem_cons_of_mem a ha')

section

variable {σ : Type} {step : σ → α → σ} {s : σ} {I P : σ → Prop}

/-- **Reach rule**: some step brings `P` about and none takes it away. -/
theorem foldl_reach (ha : a ∈ l) (hI : ∀ s, I s → ∀ a ∈ l, I (step s a))
    (hreach : ∀ s, I s → P (step s a)) (hkeep : ∀ s, I s → P s → ∀ a ∈ l, P (step s a)) (hs : I s) :
    P (l.foldl step s) := by
  obtain ⟨pre, post, rfl⟩ := append_of_mem ha
  rw [foldl_append, foldl_cons]
  have hpre : I (pre.foldl step s) :=
    List.foldlRecOn pre step hs fun s hs a ha => hI s hs a (mem_append_left _ ha)
  have hmid : I (step (pre.foldl step s) a) ∧ P (step (pre.foldl step s) a) :=
    ⟨hI _ hpre a ha, hreach _ hpre⟩
  refine (List.foldlRecOn (motive := fun s => I s ∧ P s) post step hmid ?_).2
  intro s hs a' ha'
  have hin : a' ∈ pre ++ a :: post := mem_append_right _ (mem_cons_of_mem a ha')
  exact ⟨hI s hs.1 a' hin, hkeep s hs.1 hs.2 a' hin⟩

end

end Fold

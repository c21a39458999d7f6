import Mathlib.Data.Int.Order.Basic
import WynthApi.Lib.Fold
import WynthApi.Lib.Sweep

/-!
# Longest paths along a list

`longest rel w d l x` is the length of the longest path down from `x`, in one pass over `l`: a step to a related
element before `x` counts `d`, and a path may end at an element `y` with `w y`.  `longest_spec` holds where the
list has the related elements of each element before it, and `longest_map` renames the elements.
-/

namespace Longest

open Sweep Fold List

variable {ι : Type} [DecidableEq ι]

def longest (rel : ι → ι → Bool) (w : ι → Int) (d : Int) (l : List ι) : ι → Int :=
  sweep (fun before x v => (before.filter fun y => rel x y).foldl (fun m y => max m (v y + d)) (w x)) l fun _ => 0

def Downward (rel : ι → ι → Bool) (l : List ι) : Prop :=
  ∀ pre x post, l = pre ++ x :: post → ∀ y ∈ l, rel x y = true → y ∈ pre

variable {rel : ι → ι → Bool} {w : ι → Int} {d : Int} {l : List ι}

/-- **The value of an element**: it is over what it ends with and over every step, and is one of them. -/
theorem longest_spec (hnodup : l.Nodup) (hdown : Downward rel l) {x : ι} (hx : x ∈ l) :
    w x ≤ longest rel w d l x ∧ (∀ y ∈ l, rel x y = true → longest rel w d l y + d ≤ longest rel w d l x) ∧
      (longest rel w d l x = w x ∨ ∃ y ∈ l, rel x y = true ∧ longest rel w d l x = longest rel w d l y + d) := by
  obtain ⟨pre, post, heq⟩ := append_of_mem hx
  obtain ⟨s, hdone, -, hval⟩ := sweep_eq (f := fun before x v =>
    (before.filter fun y => rel x y).foldl (fun m y => max m (v y + d)) (w x)) (r := fun _ => (0 : Int)) heq hnodup
  have hlongest : longest rel w d l x = (pre.filter fun y => rel x y).foldl (fun m y => max m (s y + d)) (w x) := hval
  rw [hlongest]
  refine ⟨le_foldl_max (g := fun y => s y + d), ?_, ?_⟩
  · intro y hy hrel
    have hpre := hdown pre x post heq y hy hrel
    rw [show longest rel w d l y = s y from (hdone y hpre).symm]
    exact le_foldl_max_of_mem (g := fun y => s y + d) (mem_filter.mpr ⟨hpre, hrel⟩)
  · rcases foldl_max_eq (g := fun y => s y + d) (b := w x) (l := pre.filter fun y => rel x y)
      with hend | ⟨y, hy, hmax⟩
    · exact .inl hend
    · obtain ⟨hpre, hrel⟩ := mem_filter.mp hy
      refine .inr ⟨y, ?_, hrel, ?_⟩
      · rw [heq]
        exact mem_append_left _ hpre
      · rw [hmax, hdone y hpre]
        rfl

/-- What holds of every end and goes over every step holds of every value. -/
theorem longest_induct (hnodup : l.Nodup) (hdown : Downward rel l) {P : ι → Int → Prop} (hend : ∀ x ∈ l, P x (w x))
    (hstep : ∀ x ∈ l, ∀ y ∈ l, rel x y = true → P y (longest rel w d l y) → P x (longest rel w d l y + d)) :
    ∀ x ∈ l, P x (longest rel w d l x) := by
  refine induct_along fun pre x post heq ih => ?_
  have hx := (mem_of_split heq hnodup).1
  rcases (longest_spec hnodup hdown hx).2.2 with hval | ⟨y, hy, hrel, hval⟩
  · rw [hval]
    exact hend x hx
  · rw [hval]
    exact hstep x hx y hy hrel (ih y (hdown pre x post heq y hy hrel))

theorem longest_map {κ : Type} [DecidableEq κ] {φ : ι → κ} (hφ : Function.Injective φ) {rel' : κ → κ → Bool}
    {w' : κ → Int} (hrel : ∀ x y, rel' (φ x) (φ y) = rel x y) (hw : ∀ x, w' (φ x) = w x) (x : ι) :
    longest rel' w' d (l.map φ) (φ x) = longest rel w d l x := by
  refine sweep_map hφ (S := x :: l) ?_ (fun y hy => mem_cons_of_mem x hy) (fun _ _ => rfl) x mem_cons_self
  intro pre y s s' _ hs
  rw [filter_map, foldl_map, hw]
  have hfilter : (fun z => rel' (φ y) z) ∘ φ = fun z => rel y z := funext (hrel y)
  rw [hfilter]
  refine foldl_ext _ _ _ fun m z hz => ?_
  rw [hs z (mem_append_left _ (mem_filter.mp hz).1)]

end Longest

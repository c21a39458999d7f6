import Mathlib.Data.List.Basic
import Mathlib.Data.List.Induction
import Mathlib.Logic.Function.Basic

/-!
# One pass over a list of cells, in place

`sweep f l r` goes through the indexes `l` and sets the cell of each to `f before x r`, where `before` are the
indexes it has passed and `r` the cells as they are when it comes to `x`.  If no index comes twice, the cells it
has passed are final: `sweep_eq` is the equation of a final cell.
-/

namespace Sweep

open List Function

variable {ι κ α : Type} [DecidableEq ι] [DecidableEq κ]

def sweepFrom (f : List ι → ι → (ι → α) → α) (before : List ι) : List ι → (ι → α) → ι → α
  | [], r => r
  | x :: rest, r => sweepFrom f (before ++ [x]) rest (Function.update r x (f before x r))

def sweep (f : List ι → ι → (ι → α) → α) (l : List ι) (r : ι → α) : ι → α := sweepFrom f [] l r

variable {f : List ι → ι → (ι → α) → α} {before l : List ι} {r : ι → α} {x : ι}

theorem sweepFrom_of_not_mem (h : x ∉ l) : sweepFrom f before l r x = r x := by
  induction l generalizing before r with
  | nil => rfl
  | cons y rest ih =>
    rw [sweepFrom, ih fun hin => h (mem_cons_of_mem y hin), update_of_ne]
    rintro rfl
    exact h mem_cons_self

theorem sweep_of_not_mem (h : x ∉ l) : sweep f l r x = r x := sweepFrom_of_not_mem h

variable {pre post : List ι}

omit [DecidableEq ι] in
theorem mem_of_split (hl : l = pre ++ x :: post) (hnodup : l.Nodup) : x ∈ l ∧ x ∉ pre ∧ ∀ y ∈ pre, y ∈ l := by
  subst hl
  refine ⟨mem_append_right _ mem_cons_self, fun hin => ?_, fun y hy => mem_append_left _ hy⟩
  exact (nodup_append.mp hnodup).2.2 x hin x mem_cons_self rfl

/-- **The equation of a cell**: it was set from cells before it that are final and cells that are not set. -/
theorem sweepFrom_eq (hl : l = pre ++ x :: post) (hnodup : l.Nodup) :
    ∃ s, (∀ y ∈ pre, s y = sweepFrom f before l r y) ∧ (∀ y ∉ pre, s y = r y) ∧
      sweepFrom f before l r x = f (before ++ pre) x s := by
  induction pre generalizing before l r with
  | nil =>
    subst hl
    refine ⟨r, fun y hy => absurd hy not_mem_nil, fun y _ => rfl, ?_⟩
    have hx : x ∉ post := (nodup_cons.mp hnodup).1
    rw [nil_append, sweepFrom, sweepFrom_of_not_mem hx, update_self, append_nil]
  | cons z pre ih =>
    subst hl
    obtain ⟨hz, hnodup'⟩ := nodup_cons.mp hnodup
    have hz' : z ∉ pre ++ x :: post := hz
    obtain ⟨s, hdone, hrest, heq⟩ :=
      @ih (before ++ [z]) (pre ++ x :: post) (update r z (f before z r)) rfl hnodup'
    refine ⟨s, ?_, ?_, ?_⟩
    · intro y hy
      show s y = sweepFrom f (before ++ [z]) (pre ++ x :: post) (update r z (f before z r)) y
      by_cases hpre : y ∈ pre
      · exact hdone y hpre
      · have hyz : y = z := (mem_cons.mp hy).resolve_right hpre
        rw [hrest y hpre, hyz, sweepFrom_of_not_mem hz']
    · intro y hy
      have hne : y ≠ z := fun hyz => hy (hyz ▸ mem_cons_self)
      rw [hrest y fun hin => hy (mem_cons_of_mem z hin), update_of_ne hne]
    · rw [append_assoc] at heq
      exact heq

theorem sweep_eq (hl : l = pre ++ x :: post) (hnodup : l.Nodup) :
    ∃ s, (∀ y ∈ pre, s y = sweep f l r y) ∧ (∀ y ∉ pre, s y = r y) ∧ sweep f l r x = f pre x s :=
  sweepFrom_eq hl hnodup

omit [DecidableEq ι] in
/-- What holds of an element once it holds of all before it holds of every element. -/
theorem induct_along {P : ι → Prop} (h : ∀ pre x post, l = pre ++ x :: post → (∀ y ∈ pre, P y) → P x) :
    ∀ x ∈ l, P x := by
  have hpre : ∀ pre post, l = pre ++ post → ∀ y ∈ pre, P y := by
    intro pre
    induction pre using List.reverseRecOn with
    | nil => exact fun _ _ y hy => absurd hy not_mem_nil
    | append_singleton pre x ih =>
      intro post hl y hy
      rw [append_assoc, singleton_append] at hl
      rcases mem_append.mp hy with hold | hnew
      · exact ih (x :: post) hl y hold
      · obtain rfl := mem_singleton.mp hnew
        exact h pre y post hl fun z hz => ih (y :: post) hl z hz
  exact fun x hx => hpre l [] (append_nil l).symm x hx

/-- **Induction along a pass**: what every cell gets from the cells before it, every cell has. -/
theorem sweep_induct {P : ι → α → Prop} (hnodup : l.Nodup)
    (h : ∀ pre x post s, l = pre ++ x :: post → (∀ y ∈ pre, P y (s y)) → s x = r x → P x (f pre x s)) :
    ∀ x ∈ l, P x (sweep f l r x) := by
  refine induct_along fun pre x post hl ih => ?_
  obtain ⟨s, hdone, hrest, heq⟩ := sweep_eq (f := f) (r := r) hl hnodup
  rw [heq]
  refine h pre x post s hl (fun y hy => ?_) (hrest x (mem_of_split hl hnodup).2.1)
  rw [hdone y hy]
  exact ih y hy

variable {φ : ι → κ} {g : List κ → κ → (κ → α) → α} {r' : κ → α} {S : List ι}

section

variable (hφ : Function.Injective φ)
  (hfg : ∀ pre x s s', (∀ y ∈ pre ++ [x], y ∈ S) → (∀ y ∈ pre ++ [x], s' (φ y) = s y) →
    g (pre.map φ) (φ x) s' = f pre x s)

include hφ hfg

/-- **Renaming**: a pass over renamed indexes leaves the renamed cells. -/
theorem sweepFrom_map (before : List ι) (hS : ∀ y ∈ before ++ l, y ∈ S) (hr : ∀ y ∈ S, r' (φ y) = r y) :
    ∀ y ∈ S, sweepFrom g (before.map φ) (l.map φ) r' (φ y) = sweepFrom f before l r y := by
  induction l generalizing before r r' with
  | nil => exact hr
  | cons x rest ih =>
    rw [map_cons, sweepFrom, sweepFrom]
    have hmap : before.map φ ++ [φ x] = (before ++ [x]).map φ := by rw [map_append]; rfl
    rw [hmap]
    have hin : ∀ y ∈ before ++ [x], y ∈ S := by
      intro y hy
      refine hS y ?_
      rcases mem_append.mp hy with hb | hx
      · exact mem_append_left _ hb
      · exact mem_append_right _ (mem_singleton.mp hx ▸ mem_cons_self)
    refine ih (before ++ [x]) (fun y hy => hS y ?_) ?_
    · rw [append_assoc] at hy
      exact hy
    · intro y hy
      by_cases hyx : y = x
      · subst hyx
        rw [update_self, update_self]
        exact hfg before y r r' hin fun z hz => hr z (hin z hz)
      · rw [update_of_ne hyx, update_of_ne fun h => hyx (hφ h)]
        exact hr y hy

theorem sweep_map (hS : ∀ y ∈ l, y ∈ S) (hr : ∀ y ∈ S, r' (φ y) = r y) :
    ∀ y ∈ S, sweep g (l.map φ) r' (φ y) = sweep f l r y :=
  sweepFrom_map hφ hfg [] hS hr

end

end Sweep

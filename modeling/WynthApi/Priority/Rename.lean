import WynthApi.Priority.Dominance

/-!
# The names of the channels do not matter

Both passes over a cohort read its channels only through their inputs and their place in the order.  Let `φ`
rename the channels, one to one.  Each definition of `Priority.Dominance` at the renamed cohort is the one at the
cohort itself; `dominateCohort_rename` says so of both passes.
-/

namespace WynthApi.Priority

open Sweep Longest List

def Cohort.rename {ι κ : Type} (φ : ι → κ) (C : Cohort ι) : Cohort κ where
  list := C.list.map φ
  priceFloor := C.priceFloor
  maxPriority := C.maxPriority

section

variable {ι κ : Type} [DecidableEq ι] [DecidableEq κ] {A : Arith} {inputs : κ → AutoPriorityScoreInput}
  {φ : ι → κ} (hφ : Function.Injective φ) {C : Cohort ι}

include hφ

/-! ### Chains and margins -/

theorem height_rename (l : List ι) (x : ι) : height inputs (l.map φ) (φ x) = height (inputs ∘ φ) l x := by
  rw [height, ← map_reverse]
  exact longest_map hφ (fun _ _ => rfl) (fun _ => rfl) x

theorem maxDepth_rename (l : List ι) : maxDepth inputs (l.map φ) = maxDepth (inputs ∘ φ) l := by
  rw [maxDepth, foldl_map]
  refine foldl_ext _ _ _ fun d x _ => ?_
  rw [depth, longest_map hφ (fun _ _ => rfl) (fun _ => rfl) x]
  rfl

theorem scoreBound_rename (i : ι) : scoreBound inputs (C.rename φ) (φ i) = scoreBound (inputs ∘ φ) C i := by
  rw [scoreBound, show (C.rename φ).list = C.list.map φ from rfl, height_rename hφ]
  rfl

theorem priorityBound_rename (i : ι) :
    priorityBound A inputs (C.rename φ) (φ i) = priorityBound A (inputs ∘ φ) C i := by
  rw [priorityBound, show (C.rename φ).list = C.list.map φ from rfl, height_rename hφ]
  rfl

theorem scoreSynthetic_rename (i : ι) : scoreSynthetic inputs (C.rename φ) (φ i) = scoreSynthetic (inputs ∘ φ) C i := by
  rw [scoreSynthetic, scoreBound_rename hφ]
  rfl

theorem prioritySynthetic_rename (i : ι) :
    prioritySynthetic A inputs (C.rename φ) (φ i) = prioritySynthetic A (inputs ∘ φ) C i := by
  rw [prioritySynthetic, priorityBound_rename hφ]
  rfl

theorem scoreMargin_rename : scoreMargin inputs (C.rename φ) = scoreMargin (inputs ∘ φ) C := by
  rw [scoreMargin, show (C.rename φ).list = C.list.map φ from rfl, foldl_map, maxDepth_rename hφ]
  refine foldl_ext _ _ _ fun m x _ => ?_
  rw [scoreSynthetic_rename hφ, scoreBound_rename hφ]

theorem priorityMargin_rename : priorityMargin A inputs (C.rename φ) = priorityMargin A (inputs ∘ φ) C := by
  rw [priorityMargin, show (C.rename φ).list = C.list.map φ from rfl, foldl_map, maxDepth_rename hφ]
  refine foldl_ext _ _ _ fun m x _ => ?_
  rw [prioritySynthetic_rename hφ, priorityBound_rename hφ]

/-! ### The pass that raises -/

section

variable {before : List ι} {x : ι} {cells : ι → Cell} {cells' : κ → Cell}

omit [DecidableEq ι] [DecidableEq κ] hφ in
theorem peers_rename : peers inputs (before.map φ) (φ x) = (peers (inputs ∘ φ) before x).map φ :=
  filter_map

omit [DecidableEq ι] [DecidableEq κ] hφ in
theorem cheaps_rename : cheaps inputs (before.map φ) (φ x) = (cheaps (inputs ∘ φ) before x).map φ :=
  filter_map

theorem hasScoreDominance_rename : hasScoreDominance inputs (C.rename φ) (before.map φ) (φ x) =
    hasScoreDominance (inputs ∘ φ) C before x := by
  rw [hasScoreDominance, hasScoreDominance, peers_rename, scoreSynthetic_rename hφ]
  simp

theorem hasPriorityDominance_rename : hasPriorityDominance A inputs (C.rename φ) (before.map φ) (φ x) =
    hasPriorityDominance A (inputs ∘ φ) C before x := by
  rw [hasPriorityDominance, hasPriorityDominance, peers_rename, prioritySynthetic_rename hφ, priorityMargin_rename hφ]
  simp

section

variable (hcells : ∀ y ∈ before, cells' (φ y) = cells y)

include hcells

omit [DecidableEq ι] [DecidableEq κ] hφ in
theorem peers_foldl_rename {M : Type} (f : M → Cell → M) (b : M) :
    (peers inputs (before.map φ) (φ x)).foldl (fun m e => f m (cells' e)) b =
      (peers (inputs ∘ φ) before x).foldl (fun m e => f m (cells e)) b := by
  rw [peers_rename, foldl_map]
  refine foldl_ext _ _ _ fun m y hy => ?_
  rw [hcells y (mem_filter.mp hy).1]

theorem peerFinalScore_rename :
    peerFinalScore inputs (C.rename φ) (before.map φ) (φ x) cells' = peerFinalScore (inputs ∘ φ) C before x cells := by
  rw [peerFinalScore, peers_foldl_rename hcells fun m c => max m c.result.finalScore, scoreSynthetic_rename hφ]
  rfl

theorem peerPriority_rename :
    peerPriority A inputs (C.rename φ) (before.map φ) (φ x) cells' = peerPriority A (inputs ∘ φ) C before x cells := by
  rw [peerPriority, peers_foldl_rename hcells fun m c => max m c.result.computedPriority, prioritySynthetic_rename hφ]
  rfl

end

section

variable (hcells : ∀ y ∈ before, cells' (φ y) = cells y) (hx : cells' (φ x) = cells x)

include hcells hx

theorem targetFinalScore_rename : targetFinalScore inputs (C.rename φ) (before.map φ) (φ x) cells' =
      targetFinalScore (inputs ∘ φ) C before x cells := by
  rw [targetFinalScore, hasScoreDominance_rename hφ, hx, scoreMargin_rename hφ, peerFinalScore_rename hφ hcells]
  rfl

theorem targetPriority_rename : targetPriority A inputs (C.rename φ) (before.map φ) (φ x) cells' =
      targetPriority A (inputs ∘ φ) C before x cells := by
  rw [targetPriority, hx, priorityMargin_rename hφ, peerPriority_rename hφ hcells, targetFinalScore_rename hφ hcells hx]
  rfl

theorem raise_rename :
    raise A inputs (C.rename φ) (before.map φ) (φ x) cells' = raise A (inputs ∘ φ) C before x cells := by
  rw [raise, hasScoreDominance_rename hφ, hasPriorityDominance_rename hφ, hx,
    targetFinalScore_rename hφ hcells hx, targetPriority_rename hφ hcells hx]
  rfl

/-! ### The pass that lowers -/

theorem maxAllowedFinalScore_rename : maxAllowedFinalScore inputs (C.rename φ) (before.map φ) (φ x) cells' =
      maxAllowedFinalScore (inputs ∘ φ) C before x cells := by
  rw [maxAllowedFinalScore, cheaps_rename, foldl_map, hx, scoreMargin_rename hφ]
  refine foldl_ext _ _ _ fun m y hy => ?_
  rw [hcells y (mem_filter.mp hy).1]

theorem maxAllowedPriority_rename : maxAllowedPriority A inputs (C.rename φ) (before.map φ) (φ x) cells' =
      maxAllowedPriority A (inputs ∘ φ) C before x cells := by
  have hfold : (cheaps inputs (before.map φ) (φ x)).foldl
      (fun m c => min m ((cells' c).result.computedPriority - priorityMargin A (inputs ∘ φ) C))
      (cells x).result.computedPriority = (cheaps (inputs ∘ φ) before x).foldl
        (fun m c => min m ((cells c).result.computedPriority - priorityMargin A (inputs ∘ φ) C))
        (cells x).result.computedPriority := by
    rw [cheaps_rename, foldl_map]
    refine foldl_ext _ _ _ fun m y hy => ?_
    rw [hcells y (mem_filter.mp hy).1]
  rw [maxAllowedPriority, priorityMargin_rename hφ, hx, hfold]
  rfl

theorem lower_rename :
    lower A inputs (C.rename φ) (before.map φ) (φ x) cells' = lower A (inputs ∘ φ) C before x cells := by
  have hmin : minAllowedFinalScore inputs (C.rename φ) (φ x) = minAllowedFinalScore (inputs ∘ φ) C x := by
    rw [minAllowedFinalScore, scoreSynthetic_rename hφ, scoreMargin_rename hφ]
    rfl
  have hmin' : minAllowedPriority A inputs (C.rename φ) (φ x) = minAllowedPriority A (inputs ∘ φ) C x := by
    rw [minAllowedPriority, prioritySynthetic_rename hφ, priorityMargin_rename hφ]
    rfl
  rw [lower, lower, hx, hmin, hmin', maxAllowedFinalScore_rename hφ hcells hx, maxAllowedPriority_rename hφ hcells hx]
  simp only [map_eq_nil_iff]
  rfl

end

end

/-- **Both passes** over the renamed cohort leave the renamed cells. -/
theorem dominateCohort_rename {cells : ι → Cell} {cells' : κ → Cell} (hcells : ∀ x ∈ C.list, cells' (φ x) = cells x) :
    ∀ x ∈ C.list, dominateCohort A inputs (C.rename φ) cells' (φ x) = dominateCohort A (inputs ∘ φ) C cells x := by
  have hraise : ∀ x ∈ C.list, sweep (raise A inputs (C.rename φ)) (C.list.map φ) cells' (φ x) =
      sweep (raise A (inputs ∘ φ) C) C.list cells x := by
    refine sweep_map hφ ?_ (fun y hy => hy) hcells
    intro pre x s s' _ hs
    exact raise_rename hφ (fun y hy => hs y (mem_append_left _ hy)) (hs x (mem_append_right _ mem_cons_self))
  rw [dominateCohort, show (C.rename φ).list = C.list.map φ from rfl, ← map_reverse]
  refine sweep_map hφ ?_ (fun y hy => mem_reverse.mp hy) hraise
  intro pre x s s' _ hs
  exact lower_rename hφ (fun y hy => hs y (mem_append_left _ hy)) (hs x (mem_append_right _ mem_cons_self))

end

end WynthApi.Priority

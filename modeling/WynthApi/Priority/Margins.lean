import Mathlib.Tactic.Linarith
import WynthApi.Priority.Dominance

/-!
# Both passes over a cohort keep the margin

Let a cohort be in order, and its margin positive.  `least` is the least priority that the chains below a
channel and its synthetic peer allow.  The longest chain above and below fits under the maximum
(`least_le`), so the pass that raises reaches these priorities, the pass that lowers never goes below them,
and no cut at zero or at the maximum takes the margin away: `dominateCohort_margin`.
-/

namespace WynthApi.Priority

open Sweep Fold Longest List

section

variable {ι : Type} {A : Arith} {inputs : ι → AutoPriorityScoreInput}

/-! ### Dominance and the order of the passes -/

theorem rate_lt_of_advantage {cheap expensive : ℚ}
    (h : hasAutoPriorityExtremeNominalRateAdvantage cheap expensive = true) : cheap < expensive := by
  rw [hasAutoPriorityExtremeNominalRateAdvantage] at h
  split_ifs at h with hvalid
  simp only [isValidAutoPriorityMultiplier, decide_eq_false_iff_not, not_or, not_not] at hvalid
  have hratio : 8 * cheap ≤ expensive := (le_div_iff₀ hvalid.1).mp (by simpa using h)
  linarith [hvalid.1]

variable {c e x : ι} {before l post pre : List ι} {cells : ι → Cell} {p : Int}

theorem dominates_iff : dominates inputs c e = true ↔ gate inputs c = 1 ∧ (inputs e).hardUnavailable = false ∧
    hasAutoPriorityExtremeNominalRateAdvantage (rate inputs c) (rate inputs e) = true := by
  simp [dominates, and_assoc]

theorem rate_lt_of_dominates (h : dominates inputs c e = true) : rate inputs c < rate inputs e :=
  rate_lt_of_advantage (dominates_iff.mp h).2.2

theorem mem_peers : e ∈ peers inputs before c ↔ e ∈ before ∧ dominates inputs c e = true :=
  mem_filter

theorem mem_cheaps : c ∈ cheaps inputs before e ↔ c ∈ before ∧ dominates inputs c e = true :=
  mem_filter

structure InOrder (inputs : ι → AutoPriorityScoreInput) (l : List ι) : Prop where
  nodup : l.Nodup
  sorted : l.Pairwise (Precedes inputs)

theorem not_precedes_of_dominates (h : dominates inputs c e = true) : ¬ Precedes inputs c e := by
  have hrate := rate_lt_of_dominates h
  rintro (hlt | ⟨hrate', -⟩)
  · exact absurd hrate (not_lt.mpr hlt.le)
  · exact absurd hrate (by rw [hrate']; exact lt_irrefl _)

theorem InOrder.mem_pre (hl : InOrder inputs l) (heq : l = pre ++ c :: post) (he : e ∈ l)
    (h : dominates inputs c e = true) : e ∈ pre := by
  subst heq
  rcases mem_append.mp he with hpre | hrest
  · exact hpre
  · rcases mem_cons.mp hrest with rfl | hpost
    · exact absurd (rate_lt_of_dominates h) (lt_irrefl _)
    · have hsorted := (pairwise_cons.mp (pairwise_append.mp hl.sorted).2.1).1 e hpost
      exact absurd hsorted (not_precedes_of_dominates h)

theorem InOrder.mem_pre_reverse (hl : InOrder inputs l) (heq : l.reverse = pre ++ e :: post) (hc : c ∈ l)
    (h : dominates inputs c e = true) : c ∈ pre := by
  have hl' : l = post.reverse ++ e :: pre.reverse := by
    have hrev := congrArg List.reverse heq
    rw [reverse_reverse, reverse_append, reverse_cons, append_assoc, singleton_append] at hrev
    exact hrev
  subst hl'
  rcases mem_append.mp hc with hpost | hrest
  · have hsorted := (pairwise_append.mp hl.sorted).2.2 c hpost e mem_cons_self
    exact absurd hsorted (not_precedes_of_dominates h)
  · rcases mem_cons.mp hrest with rfl | hpre
    · exact absurd (rate_lt_of_dominates h) (lt_irrefl _)
    · exact mem_reverse.mp hpre

theorem InOrder.downward (hl : InOrder inputs l) : Downward (dominates inputs) l :=
  fun _ _ _ heq _ he h => hl.mem_pre heq he h

theorem InOrder.downward_reverse (hl : InOrder inputs l) : Downward (fun e c => dominates inputs c e) l.reverse :=
  fun _ _ _ heq _ hc h => hl.mem_pre_reverse heq (mem_reverse.mp hc) h

/-! ### Depths and heights -/

variable [DecidableEq ι] {l : List ι}

theorem depth_le_maxDepth (hx : x ∈ l) : depth inputs l x ≤ maxDepth inputs l :=
  le_foldl_max_of_mem (g := depth inputs l) hx

theorem maxDepth_nonneg : 0 ≤ maxDepth inputs l := le_foldl_max (g := depth inputs l)

section

variable (hl : InOrder inputs l)

include hl

theorem depth_nonneg (hx : x ∈ l) : 0 ≤ depth inputs l x :=
  (longest_spec hl.nodup hl.downward hx).1

theorem depth_lt (hc : c ∈ l) (he : e ∈ l) (h : dominates inputs c e = true) :
    depth inputs l e + 1 ≤ depth inputs l c :=
  (longest_spec hl.nodup hl.downward hc).2.1 e he h

theorem height_nonneg (hx : x ∈ l) : 0 ≤ height inputs l x :=
  (longest_spec (nodup_reverse.mpr hl.nodup) hl.downward_reverse (mem_reverse.mpr hx)).1

theorem height_lt (hc : c ∈ l) (he : e ∈ l) (h : dominates inputs c e = true) :
    height inputs l c + 1 ≤ height inputs l e :=
  (longest_spec (nodup_reverse.mpr hl.nodup) hl.downward_reverse (mem_reverse.mpr he)).2.1 c
    (mem_reverse.mpr hc) h

/-- The top of the longest chain above a channel is as deep as that chain and the one below together. -/
theorem exists_depth (hx : x ∈ l) : ∃ y ∈ l, depth inputs l x + height inputs l x ≤ depth inputs l y := by
  refine longest_induct (P := fun x h => ∃ y ∈ l, depth inputs l x + h ≤ depth inputs l y)
    (nodup_reverse.mpr hl.nodup) hl.downward_reverse ?_ ?_ x (mem_reverse.mpr hx)
  · intro x hx
    exact ⟨x, mem_reverse.mp hx, by omega⟩
  · rintro e he c hc hdom ⟨y, hy, hle⟩
    have hdepth := depth_lt hl (mem_reverse.mp hc) (mem_reverse.mp he) hdom
    exact ⟨y, hy, by omega⟩

theorem height_le_maxDepth (hx : x ∈ l) : height inputs l x ≤ maxDepth inputs l := by
  obtain ⟨y, hy, hle⟩ := exists_depth hl hx
  have hmax : depth inputs l y ≤ maxDepth inputs l := depth_le_maxDepth hy
  have hzero := depth_nonneg hl hx
  omega

end

/-! ### The margin -/

variable {C : Cohort ι}

theorem priorityMargin_eq : priorityMargin A inputs C =
    (C.list.filter (prioritySynthetic A inputs C)).foldl (fun m i => min m (priorityBound A inputs C i))
      (if 0 < maxDepth inputs C.list then min 10 (C.maxPriority / maxDepth inputs C.list) else 10) := by
  rw [foldl_filter]
  rfl

theorem priorityMargin_le_bound (hx : x ∈ C.list) (h : prioritySynthetic A inputs C x = true) :
    priorityMargin A inputs C ≤ priorityBound A inputs C x := by
  rw [priorityMargin_eq]
  exact foldl_min_le_of_mem (g := priorityBound A inputs C) (mem_filter.mpr ⟨hx, h⟩)

theorem priorityMargin_mul_maxDepth_le (hcap : 0 ≤ C.maxPriority) :
    priorityMargin A inputs C * maxDepth inputs C.list ≤ C.maxPriority := by
  have hdepth : 0 ≤ maxDepth inputs C.list := maxDepth_nonneg
  by_cases hpos : 0 < maxDepth inputs C.list
  · have hle : priorityMargin A inputs C ≤ C.maxPriority / maxDepth inputs C.list := by
      rw [priorityMargin_eq, if_pos hpos]
      exact (foldl_min_le (g := priorityBound A inputs C)).trans (min_le_right _ _)
    exact (Int.le_ediv_iff_mul_le hpos).mp hle
  · have hzero : maxDepth inputs C.list = 0 := by omega
    rw [hzero, mul_zero]
    exact hcap

/-- **The margin is positive** if the longest chain has a step of one for each edge; a bound of a synthetic peer
that would make it zero is not applied. -/
theorem priorityMargin_pos (h : maxDepth inputs C.list ≤ C.maxPriority) : 0 < priorityMargin A inputs C := by
  rw [priorityMargin_eq]
  refine Int.lt_iff_add_one_le.mpr (le_foldl_min (g := priorityBound A inputs C) ?_ ?_)
  · by_cases hpos : 0 < maxDepth inputs C.list
    · have hone : 1 ≤ C.maxPriority / maxDepth inputs C.list := (Int.le_ediv_iff_mul_le hpos).mpr (by omega)
      rw [if_pos hpos]
      omega
    · rw [if_neg hpos]
      omega
  · intro x hx
    have hsyn := (mem_filter.mp hx).2
    rw [prioritySynthetic, Bool.and_eq_true, decide_eq_true_eq] at hsyn
    have hbound := hsyn.2
    omega

theorem exists_chain (hl : InOrder inputs l) (hx : x ∈ l) :
    ∃ chain : List ι, (∀ y ∈ chain, y ∈ l) ∧ List.IsChain (fun c e => dominates inputs c e = true) (x :: chain) ∧
      (chain.length : Int) = depth inputs l x := by
  refine longest_induct (P := fun x d => ∃ chain : List ι, (∀ y ∈ chain, y ∈ l) ∧
    List.IsChain (fun c e => dominates inputs c e = true) (x :: chain) ∧ (chain.length : Int) = d)
    hl.nodup hl.downward ?_ ?_ x hx
  · intro x _
    exact ⟨[], fun y hy => absurd hy not_mem_nil, List.IsChain.singleton x, rfl⟩
  · rintro c hc e he hdom ⟨chain, hin, hchain, hlen⟩
    refine ⟨e :: chain, ?_, isChain_cons_cons.mpr ⟨hdom, hchain⟩, ?_⟩
    · intro y hy
      rcases mem_cons.mp hy with rfl | hy
      · exact he
      · exact hin y hy
    · rw [length_cons, ← hlen, Nat.cast_add, Nat.cast_one]

theorem maxDepth_le (hl : InOrder inputs l) {n : Int} (hn : 0 ≤ n) (h : ∀ x chain, x ∈ l → (∀ y ∈ chain, y ∈ l) →
      List.IsChain (fun c e => dominates inputs c e = true) (x :: chain) → (chain.length : Int) ≤ n) :
    maxDepth inputs l ≤ n := by
  rcases foldl_max_eq (g := depth inputs l) (b := 0) (l := l) with hzero | ⟨x, hx, hval⟩
  · exact (show maxDepth inputs l = 0 from hzero) ▸ hn
  · obtain ⟨chain, hin, hchain, hlen⟩ := exists_chain hl hx
    rw [show maxDepth inputs l = depth inputs l x from hval, ← hlen]
    exact h x chain hx hin hchain

/-! ### The least priorities -/

variable (A inputs C) in
/-- The priority that a channel must have at least: the margin over its synthetic peer, and over the least
priorities of the peers it dominates. -/
def least : ι → Int :=
  longest (dominates inputs)
    (fun x => if prioritySynthetic A inputs C x then syntheticPriority A inputs C x + priorityMargin A inputs C else 0)
    (priorityMargin A inputs C) C.list

structure Roomy (A : Arith) (inputs : ι → AutoPriorityScoreInput) (C : Cohort ι) : Prop where
  inOrder : InOrder inputs C.list
  cap_nonneg : 0 ≤ C.maxPriority
  margin_pos : 0 < priorityMargin A inputs C

theorem least_add_le (h : InOrder inputs C.list) (hc : c ∈ C.list) (he : e ∈ C.list)
    (hdom : dominates inputs c e = true) : least A inputs C e + priorityMargin A inputs C ≤ least A inputs C c :=
  (longest_spec h.nodup h.downward hc).2.1 e he hdom

theorem synthetic_add_le_least (h : InOrder inputs C.list) (hx : x ∈ C.list)
    (hsyn : prioritySynthetic A inputs C x = true) :
    syntheticPriority A inputs C x + priorityMargin A inputs C ≤ least A inputs C x := by
  have hend := (longest_spec (w := fun x => if prioritySynthetic A inputs C x then
    syntheticPriority A inputs C x + priorityMargin A inputs C else 0)
    (d := priorityMargin A inputs C) h.nodup h.downward hx).1
  simp only [if_pos hsyn] at hend
  exact hend

omit [DecidableEq ι] in
theorem syntheticPriority_nonneg (hcap : 0 ≤ C.maxPriority) (x : ι) : 0 ≤ syntheticPriority A inputs C x :=
  (clamp_mem hcap).1

theorem least_nonneg (h : Roomy A inputs C) : ∀ x ∈ C.list, 0 ≤ least A inputs C x := by
  have hm := h.margin_pos
  refine longest_induct (P := fun _ v => 0 ≤ v) h.inOrder.nodup h.inOrder.downward ?_ ?_
  · intro x _
    have hsyn : 0 ≤ syntheticPriority A inputs C x := syntheticPriority_nonneg h.cap_nonneg x
    split_ifs <;> omega
  · intro x _ y _ _ hy
    omega

/-- **The least priorities fit**, with the longest chain above them. -/
theorem least_le (h : Roomy A inputs C) :
    ∀ x ∈ C.list, least A inputs C x + priorityMargin A inputs C * height inputs C.list x ≤ C.maxPriority := by
  have hm := h.margin_pos
  refine longest_induct (P := fun x v => v + priorityMargin A inputs C * height inputs C.list x ≤ C.maxPriority)
    h.inOrder.nodup h.inOrder.downward ?_ ?_
  · intro x hx
    have hheight := height_nonneg h.inOrder hx
    split_ifs with hsyn
    · have hbound : priorityMargin A inputs C ≤
          (C.maxPriority - syntheticPriority A inputs C x) / (height inputs C.list x + 1) :=
        priorityMargin_le_bound hx hsyn
      have hmul := (Int.le_ediv_iff_mul_le (by omega)).mp hbound
      linarith [mul_add (priorityMargin A inputs C) (height inputs C.list x) 1,
        mul_one (priorityMargin A inputs C)]
    · rw [zero_add]
      have hmax := height_le_maxDepth h.inOrder hx
      exact (Int.mul_le_mul_of_nonneg_left hmax hm.le).trans (priorityMargin_mul_maxDepth_le h.cap_nonneg)
  · intro c hc e he hdom hle
    have hheight := height_lt h.inOrder hc he hdom
    have hmul := Int.mul_le_mul_of_nonneg_left hheight hm.le
    rw [mul_add, mul_one] at hmul
    linarith

theorem least_le_cap (h : Roomy A inputs C) (hx : x ∈ C.list) : least A inputs C x ≤ C.maxPriority := by
  have hle := least_le h x hx
  have hmul := Int.mul_nonneg h.margin_pos.le (height_nonneg h.inOrder hx)
  omega

/-! ### The pass that raises -/

variable {margin cap : Int}

theorem le_addAutoPriorityDominanceMargin {q : Int} (hpq : p ≤ q) (hle : p + margin ≤ cap) :
    p + margin ≤ addAutoPriorityDominanceMargin q margin cap := by
  rw [addAutoPriorityDominanceMargin, clampAutoPriorityPriority]
  split_ifs <;> omega

theorem addAutoPriorityDominanceMargin_mem (hcap : 0 ≤ cap) :
    0 ≤ addAutoPriorityDominanceMargin p margin cap ∧ addAutoPriorityDominanceMargin p margin cap ≤ cap :=
  clamp_mem hcap

theorem hasPriorityDominance_of_mem (hm : 0 < priorityMargin A inputs C) (he : e ∈ peers inputs before c) :
    hasPriorityDominance A inputs C before c = true := by
  have hne : peers inputs before c ≠ [] := ne_nil_of_mem he
  simp [hasPriorityDominance, hm, hne]

theorem hasPriorityDominance_of_synthetic (hm : 0 < priorityMargin A inputs C)
    (hsyn : prioritySynthetic A inputs C c = true) : hasPriorityDominance A inputs C before c = true := by
  simp [hasPriorityDominance, hm, hsyn]

omit [DecidableEq ι] in
theorem gate_of_synthetic (hsyn : synthetic inputs c = true) : gate inputs c = 1 := by
  rw [synthetic, Bool.and_eq_true, decide_eq_true_eq] at hsyn
  exact hsyn.1

theorem gate_of_hasPriorityDominance (h : hasPriorityDominance A inputs C before c = true) : gate inputs c = 1 := by
  rw [hasPriorityDominance, Bool.and_eq_true, Bool.or_eq_true, decide_eq_true_eq] at h
  rcases h.1 with hne | hsyn
  · obtain ⟨e, he⟩ := exists_mem_of_ne_nil _ hne
    exact (dominates_iff.mp (mem_peers.mp he).2).1
  · rw [prioritySynthetic, Bool.and_eq_true] at hsyn
    exact gate_of_synthetic hsyn.1

theorem raise_of_hasPriorityDominance (h : hasPriorityDominance A inputs C before c = true) :
    raise A inputs C before c cells =
      { result :=
          (cells c).result.withPriority (targetFinalScore inputs C before c cells)
            (targetPriority A inputs C before c cells)
        isProtected := true } := by
  have hvisit : ¬ (gate inputs c ≠ 1 ∨
      (hasScoreDominance inputs C before c = false ∧ hasPriorityDominance A inputs C before c = false)) := by
    rw [h]
    simp [gate_of_hasPriorityDominance h]
  rw [raise, if_neg hvisit, if_pos h]

theorem raise_of_not_hasPriorityDominance (cells : ι → Cell) (h : ¬ hasPriorityDominance A inputs C before c = true) :
    ∃ score, (raise A inputs C before c cells).result = { (cells c).result with finalScore := score } := by
  rw [raise]
  split_ifs <;> exact ⟨_, rfl⟩

theorem le_peerPriority (he : e ∈ peers inputs before c) :
    (cells e).result.computedPriority ≤ peerPriority A inputs C before c cells := by
  have hpeer := le_foldl_max_of_mem (g := fun e => (cells e).result.computedPriority) (b := 0) he
  rw [peerPriority]
  split_ifs
  · exact hpeer.trans (le_max_left _ _)
  · exact hpeer

theorem syntheticPriority_le_peerPriority (hsyn : prioritySynthetic A inputs C c = true) :
    syntheticPriority A inputs C c ≤ peerPriority A inputs C before c cells := by
  rw [peerPriority, if_pos hsyn]
  exact le_max_right _ _

theorem le_targetPriority (hp : p ≤ peerPriority A inputs C before c cells)
    (hle : p + priorityMargin A inputs C ≤ C.maxPriority) :
    p + priorityMargin A inputs C ≤ targetPriority A inputs C before c cells :=
  (le_addAutoPriorityDominanceMargin hp hle).trans ((le_max_right _ _).trans (le_max_left _ _))

theorem targetPriority_mem (hcap : 0 ≤ C.maxPriority) : 0 ≤ targetPriority A inputs C before c cells ∧
      targetPriority A inputs C before c cells ≤ C.maxPriority := by
  refine ⟨(clamp_mem hcap).1.trans (le_max_right _ _), max_le (max_le ?_ ?_) (clamp_mem hcap).2⟩
  · exact (addAutoPriorityDominanceMargin_mem hcap).2
  · exact (addAutoPriorityDominanceMargin_mem hcap).2

def Between (A : Arith) (inputs : ι → AutoPriorityScoreInput) (C : Cohort ι) (x : ι) (cell : Cell) : Prop :=
  least A inputs C x ≤ cell.result.computedPriority ∧ cell.result.computedPriority ≤ C.maxPriority

theorem least_cases (h : InOrder inputs C.list) (hx : x ∈ C.list) : least A inputs C x = 0 ∨
      (prioritySynthetic A inputs C x = true ∧
        least A inputs C x = syntheticPriority A inputs C x + priorityMargin A inputs C) ∨
      ∃ e ∈ C.list, dominates inputs x e = true ∧
        least A inputs C x = least A inputs C e + priorityMargin A inputs C := by
  rcases (longest_spec (w := fun x => if prioritySynthetic A inputs C x then
    syntheticPriority A inputs C x + priorityMargin A inputs C else 0)
    (d := priorityMargin A inputs C) h.nodup h.downward hx).2.2 with hend | hstep
  · by_cases hsyn : prioritySynthetic A inputs C x = true
    · simp only [if_pos hsyn] at hend
      exact .inr (.inl ⟨hsyn, hend⟩)
    · simp only [if_neg hsyn] at hend
      exact .inl hend
  · exact .inr (.inr hstep)

theorem raise_between (h : Roomy A inputs C) (heq : C.list = pre ++ x :: post)
    (hpre : ∀ y ∈ pre, Between A inputs C y (cells y))
    (hx : 0 ≤ (cells x).result.computedPriority ∧ (cells x).result.computedPriority ≤ C.maxPriority) :
    Between A inputs C x (raise A inputs C pre x cells) := by
  have hmem := (mem_of_split heq h.inOrder.nodup).1
  have hcap := least_le_cap h hmem
  have hm := h.margin_pos
  by_cases hdom : hasPriorityDominance A inputs C pre x = true
  · rw [raise_of_hasPriorityDominance hdom]
    refine ⟨?_, (targetPriority_mem h.cap_nonneg).2⟩
    show least A inputs C x ≤ targetPriority A inputs C pre x cells
    rcases least_cases h.inOrder hmem with hzero | ⟨hsyn, hval⟩ | ⟨e, he, hdom', hval⟩
    · rw [hzero]
      exact (targetPriority_mem h.cap_nonneg).1
    · rw [hval] at hcap ⊢
      exact le_targetPriority (syntheticPriority_le_peerPriority hsyn) hcap
    · have hpre' := h.inOrder.mem_pre heq he hdom'
      rw [hval] at hcap ⊢
      exact le_targetPriority ((hpre e hpre').1.trans (le_peerPriority (mem_peers.mpr ⟨hpre', hdom'⟩))) hcap
  · obtain ⟨score, hresult⟩ := raise_of_not_hasPriorityDominance cells hdom
    rw [Between, hresult]
    refine ⟨?_, hx.2⟩
    show least A inputs C x ≤ (cells x).result.computedPriority
    rcases least_cases h.inOrder hmem with hzero | ⟨hsyn, -⟩ | ⟨e, he, hdom', -⟩
    · rw [hzero]
      exact hx.1
    · exact absurd (hasPriorityDominance_of_synthetic hm hsyn) hdom
    · have hpeer := mem_peers.mpr ⟨h.inOrder.mem_pre heq he hdom', hdom'⟩
      exact absurd (hasPriorityDominance_of_mem hm hpeer) hdom

/-! ### The pass that lowers -/

theorem lower_eq (hbefore : before ≠ []) (hard : (inputs e).hardUnavailable = false) :
    (lower A inputs C before e cells).result = (cells e).result.withPriority
        (max (minAllowedFinalScore inputs C e) (max 0 (maxAllowedFinalScore inputs C before e cells)))
        (clampAutoPriorityPriority
          (max (minAllowedPriority A inputs C e) (maxAllowedPriority A inputs C before e cells)) 0 C.maxPriority) := by
  rw [lower, if_neg (by simp [hbefore, hard])]

theorem maxAllowedPriority_spec (h : Roomy A inputs C) (hx : x ∈ C.list) (hsub : ∀ y ∈ pre, y ∈ C.list)
    (hpre : ∀ y ∈ pre, Between A inputs C y (cells y)) (hcell : Between A inputs C x (cells x)) :
    least A inputs C x ≤ maxAllowedPriority A inputs C pre x cells ∧
      maxAllowedPriority A inputs C pre x cells ≤ C.maxPriority := by
  rw [maxAllowedPriority, if_pos h.margin_pos]
  refine ⟨le_foldl_min (g := fun c => (cells c).result.computedPriority - priorityMargin A inputs C) hcell.1 ?_,
    (foldl_min_le (g := fun c => (cells c).result.computedPriority - priorityMargin A inputs C)).trans hcell.2⟩
  intro c hc
  obtain ⟨hin, hdom⟩ := mem_cheaps.mp hc
  have hleast := least_add_le (A := A) h.inOrder (hsub c hin) hx hdom
  have hcheap := (hpre c hin).1
  omega

theorem minAllowedPriority_le_least (h : Roomy A inputs C) (hx : x ∈ C.list) :
    minAllowedPriority A inputs C x ≤ least A inputs C x := by
  rw [minAllowedPriority]
  split_ifs with hsyn
  · have hleast := synthetic_add_le_least h.inOrder hx hsyn.1
    have hnonneg : 0 ≤ syntheticPriority A inputs C x := syntheticPriority_nonneg h.cap_nonneg x
    have hm := h.margin_pos
    rw [addAutoPriorityDominanceMargin, clampAutoPriorityPriority]
    split_ifs <;> omega
  · exact least_nonneg h x hx

section

variable (h : Roomy A inputs C) (hx : x ∈ C.list) (hsub : ∀ y ∈ pre, y ∈ C.list)
  (hpre : ∀ y ∈ pre, Between A inputs C y (cells y)) (hcell : Between A inputs C x (cells x))

include h hx hsub hpre hcell

/-- The cuts do nothing: a lowered channel gets exactly what the channels above leave it. -/
theorem lower_computedPriority (hne : pre ≠ []) (hard : (inputs x).hardUnavailable = false) :
    (lower A inputs C pre x cells).result.computedPriority = maxAllowedPriority A inputs C pre x cells := by
  obtain ⟨hleast, hcap⟩ := maxAllowedPriority_spec h hx hsub hpre hcell
  have hmin := minAllowedPriority_le_least h hx
  have hzero := least_nonneg h x hx
  rw [lower_eq hne hard]
  show clampAutoPriorityPriority
    (max (minAllowedPriority A inputs C x) (maxAllowedPriority A inputs C pre x cells)) 0 C.maxPriority = _
  rw [max_eq_right (hmin.trans hleast), clampAutoPriorityPriority, if_neg (by omega), if_neg (by omega)]

theorem lower_between : Between A inputs C x (lower A inputs C pre x cells) := by
  by_cases hstay : pre = [] ∨ (inputs x).hardUnavailable = true
  · rw [lower, if_pos hstay]
    exact hcell
  · rw [not_or, Bool.not_eq_true] at hstay
    rw [Between, lower_computedPriority h hx hsub hpre hcell hstay.1 hstay.2]
    exact maxAllowedPriority_spec h hx hsub hpre hcell

end

/-! ### Both passes -/

def InRange (C : Cohort ι) (cells : ι → Cell) : Prop :=
  ∀ x ∈ C.list, 0 ≤ (cells x).result.computedPriority ∧ (cells x).result.computedPriority ≤ C.maxPriority

theorem sweep_raise_between (h : Roomy A inputs C) (hcells : InRange C cells) :
    ∀ x ∈ C.list, Between A inputs C x (sweep (raise A inputs C) C.list cells x) := by
  refine sweep_induct h.inOrder.nodup ?_
  intro pre x post s heq hpre hsame
  refine raise_between h heq hpre ?_
  rw [hsame]
  exact hcells x (mem_of_split heq h.inOrder.nodup).1

theorem dominateCohort_between (h : Roomy A inputs C) (hcells : InRange C cells) :
    ∀ x ∈ C.list, Between A inputs C x (dominateCohort A inputs C cells x) := by
  intro x hx
  have hnodup := nodup_reverse.mpr h.inOrder.nodup
  refine sweep_induct (P := Between A inputs C) hnodup ?_ x (mem_reverse.mpr hx)
  intro pre x post s heq hpre hsame
  obtain ⟨hmem, -, hsub⟩ := mem_of_split heq hnodup
  refine lower_between h (mem_reverse.mp hmem) (fun y hy => mem_reverse.mp (hsub y hy)) hpre ?_
  rw [hsame]
  exact sweep_raise_between h hcells x (mem_reverse.mp hmem)

/-- **The margin**: after both passes a channel is the margin above each peer it dominates. -/
theorem dominateCohort_margin (h : Roomy A inputs C) (hcells : InRange C cells) (hc : c ∈ C.list)
    (he : e ∈ C.list) (hdom : dominates inputs c e = true) :
    (dominateCohort A inputs C cells e).result.computedPriority + priorityMargin A inputs C ≤
      (dominateCohort A inputs C cells c).result.computedPriority := by
  have hnodup := nodup_reverse.mpr h.inOrder.nodup
  obtain ⟨pre, post, heq⟩ := append_of_mem (mem_reverse.mpr he)
  obtain ⟨s, hdone, hrest, hval⟩ := sweep_eq (f := lower A inputs C)
    (r := sweep (raise A inputs C) C.list cells) heq hnodup
  obtain ⟨hmem, hnot, hsub⟩ := mem_of_split heq hnodup
  have hcpre := h.inOrder.mem_pre_reverse heq hc hdom
  have hbetween : ∀ y ∈ pre, Between A inputs C y (s y) := by
    intro y hy
    rw [hdone y hy]
    exact dominateCohort_between h hcells y (mem_reverse.mp (hsub y hy))
  have hself : Between A inputs C e (s e) := by
    rw [hrest e hnot]
    exact sweep_raise_between h hcells e he
  have hlowered := lower_computedPriority h he (fun y hy => mem_reverse.mp (hsub y hy)) hbetween hself
    (ne_nil_of_mem hcpre) (dominates_iff.mp hdom).2.1
  have hallowed : maxAllowedPriority A inputs C pre e s ≤
      (s c).result.computedPriority - priorityMargin A inputs C := by
    rw [maxAllowedPriority, if_pos h.margin_pos]
    exact foldl_min_le_of_mem (g := fun c => (s c).result.computedPriority - priorityMargin A inputs C)
      (mem_cheaps.mpr ⟨hcpre, hdom⟩)
  have hcheap : s c = dominateCohort A inputs C cells c := hdone c hcpre
  have hpeer : dominateCohort A inputs C cells e = lower A inputs C pre e s := hval
  rw [hpeer, hlowered, ← hcheap]
  omega

/-! ### What both passes keep -/

theorem dominateCohort_of_not_mem (hx : x ∉ C.list) : dominateCohort A inputs C cells x = cells x := by
  rw [dominateCohort, sweep_of_not_mem (fun hin => hx (mem_reverse.mp hin)), sweep_of_not_mem hx]

theorem dominateCohort_induct (h : InOrder inputs C.list) {P : ι → Cell → Prop}
    (hcells : ∀ x ∈ C.list, P x (cells x)) (hraise : ∀ pre x s, P x (s x) → P x (raise A inputs C pre x s))
    (hlower : ∀ pre x s, P x (s x) → P x (lower A inputs C pre x s)) :
    ∀ x ∈ C.list, P x (dominateCohort A inputs C cells x) := by
  intro x hx
  have hnodup := nodup_reverse.mpr h.nodup
  refine sweep_induct (P := P) hnodup ?_ x (mem_reverse.mpr hx)
  intro pre x post s heq _ hsame
  refine hlower pre x s ?_
  rw [hsame]
  refine sweep_induct (P := P) h.nodup ?_ x (mem_reverse.mp (mem_of_split heq hnodup).1)
  intro pre x post s heq _ hsame
  refine hraise pre x s ?_
  rw [hsame]
  exact hcells x (mem_of_split heq h.nodup).1

def Reranked (result result' : AutoPriorityScoreResult) : Prop :=
  result' = { result with
    finalScore := result'.finalScore
    computedPriority := result'.computedPriority
    newPriority := result'.newPriority }

theorem Reranked.trans {a b c : AutoPriorityScoreResult} (hab : Reranked a b) (hbc : Reranked b c) : Reranked a c := by
  rw [Reranked] at hbc ⊢
  rw [hbc, hab]

theorem reranked_raise (before : List ι) (c : ι) (cells : ι → Cell) :
    Reranked (cells c).result (raise A inputs C before c cells).result := by
  rw [raise]
  split_ifs <;> rfl

theorem reranked_lower (before : List ι) (e : ι) (cells : ι → Cell) :
    Reranked (cells e).result (lower A inputs C before e cells).result := by
  rw [lower]
  split_ifs <;> rfl

theorem reranked_dominateCohort (h : InOrder inputs C.list) (x : ι) :
    Reranked (cells x).result (dominateCohort A inputs C cells x).result := by
  by_cases hx : x ∈ C.list
  · exact dominateCohort_induct (P := fun x cell => Reranked (cells x).result cell.result) h (fun x _ => rfl)
      (fun pre x s hs => hs.trans (reranked_raise pre x s))
      (fun pre x s hs => hs.trans (reranked_lower pre x s)) x hx
  · rw [dominateCohort_of_not_mem hx]
    rfl

theorem dominateCohort_newPriority (h : InOrder inputs C.list)
    (hx : (cells x).result.newPriority = (cells x).result.computedPriority) :
    (dominateCohort A inputs C cells x).result.newPriority =
      (dominateCohort A inputs C cells x).result.computedPriority := by
  by_cases hin : x ∈ C.list
  · refine dominateCohort_induct (P := fun y cell => y = x →
      cell.result.newPriority = cell.result.computedPriority) h ?_ ?_ ?_ x hin rfl
    · rintro y _ rfl
      exact hx
    · intro pre y s hs hyx
      rw [raise]
      split_ifs
      · exact hs hyx
      · rfl
      · exact hs hyx
    · intro pre y s hs hyx
      rw [lower]
      split_ifs
      · exact hs hyx
      · rfl
  · rw [dominateCohort_of_not_mem hin]
    exact hx

theorem dominateCohort_isProtected (h : Roomy A inputs C) (hc : c ∈ C.list) (he : e ∈ C.list)
    (hdom : dominates inputs c e = true) : (dominateCohort A inputs C cells c).isProtected = true := by
  have hraised : (sweep (raise A inputs C) C.list cells c).isProtected = true := by
    obtain ⟨pre, post, heq⟩ := append_of_mem hc
    obtain ⟨s, -, -, hval⟩ := sweep_eq (f := raise A inputs C) (r := cells) heq h.inOrder.nodup
    have hpeer := mem_peers.mpr ⟨h.inOrder.mem_pre heq he hdom, hdom⟩
    rw [hval, raise_of_hasPriorityDominance (hasPriorityDominance_of_mem h.margin_pos hpeer)]
  have hnodup := nodup_reverse.mpr h.inOrder.nodup
  refine sweep_induct (P := fun x (cell : Cell) => x = c → cell.isProtected = true) hnodup ?_ c (mem_reverse.mpr hc) rfl
  rintro pre x post s _ _ hsame rfl
  rw [lower]
  split_ifs
  · rw [hsame]
    exact hraised
  · show (s x).isProtected = true
    rw [hsame]
    exact hraised

end

end WynthApi.Priority

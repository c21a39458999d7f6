import WynthApi.Priority.Hysteresis
import WynthApi.Priority.Margins

/-!
# What each pass leaves

A result is settled if its priority is the computed one, or is held back within nine of it; every pass keeps
that.  When the reconciliation stops, two channels that are apart by the threshold are in their order
(`inRank_of_stable`), and it stops after at most one iteration for each channel, and one (`reconcile_some`).

The repair goes over the pairs of a cohort one by one and changes the results under its own comparisons.  A channel
over one that is held back has its computed priority already, so the repair releases exactly the channels that violate
the margin when it begins (`repair_eq`).
-/

namespace WynthApi.Priority

open Until Fold List Function

section

variable {ι : Type} {A : Arith} {inputs : ι → AutoPriorityScoreInput} {idx : List ι}

/-! ### Cohorts and scores -/

instance : Std.Total (Precedes inputs) where
  total i j := by
    rcases lt_trichotomy (rate inputs i) (rate inputs j) with hlt | heq | hgt
    · exact .inr (.inl hlt)
    · rcases le_total (inputs i).channelID (inputs j).channelID with hle | hle
      · exact .inl (.inr ⟨heq, hle⟩)
      · exact .inr (.inr ⟨heq.symm, hle⟩)
    · exact .inl (.inl hgt)

instance : IsTrans ι (Precedes inputs) where
  trans i j k := by
    rintro (hij | ⟨hij, hid⟩) (hjk | ⟨hjk, hid'⟩)
    · exact .inl (hjk.trans hij)
    · exact .inl (hjk ▸ hij)
    · exact .inl (hij ▸ hjk)
    · exact .inr ⟨hij.trans hjk, hid.trans hid'⟩

variable {margin maxPriority : Int} {c e i : ι} {fuel : Nat} {key : String}

theorem mem_cohortAt : i ∈ (cohortAt inputs idx maxPriority key).list ↔ i ∈ members inputs idx key :=
  mem_insertionSort (Precedes inputs)

theorem inOrder_cohortAt (hidx : idx.Nodup) (maxPriority : Int) (key : String) :
    InOrder inputs (cohortAt inputs idx maxPriority key).list where
  nodup := (perm_insertionSort (Precedes inputs) _).nodup_iff.mpr (hidx.filter _)
  sorted := pairwise_insertionSort (Precedes inputs) _

theorem initialResult_reason (input : AutoPriorityScoreInput) : (initialResult A input).reason =
    if isValidAutoPriorityMultiplier input.effectiveRateMultiplier = false then
      .missingEffectiveRateMultiplier else .applied := by
  rw [initialResult]
  split_ifs <;> rfl

variable [DecidableEq ι]

theorem pricePass_reason (order : List String) (results : ι → AutoPriorityScoreResult) (i : ι) :
    (pricePass inputs idx order results i).reason = (results i).reason := by
  refine foldlRecOn (motive := fun r : ι → AutoPriorityScoreResult => (r i).reason = (results i).reason) order _ rfl ?_
  intro r hr key _
  show (if i ∈ members inputs idx key then withPrice (priceOf inputs idx key) (r i) else r i).reason = _
  split_ifs <;> exact hr

theorem scored_reason (order : List String) (maxPriority : Int) (i : ι) :
    (scored A inputs idx order maxPriority i).reason =
      if isValidAutoPriorityMultiplier (rate inputs i) = false then .missingEffectiveRateMultiplier
      else if (inputs i).hardUnavailable then .channelAutoDisabled else .applied := by
  have hreason : (pricePass inputs idx order (fun i => initialResult A (inputs i)) i).reason =
      if isValidAutoPriorityMultiplier (rate inputs i) = false then .missingEffectiveRateMultiplier
      else .applied := by
    rw [pricePass_reason]
    exact initialResult_reason (inputs i)
  rw [scored, withScore]
  by_cases hvalid : isValidAutoPriorityMultiplier (rate inputs i) = false
  · rw [if_pos hvalid] at hreason ⊢
    rw [if_pos (by rw [hreason]; decide), hreason]
  · rw [if_neg hvalid] at hreason ⊢
    rw [if_neg (by rw [hreason]; decide)]
    split_ifs
    · rfl
    · exact hreason

theorem scored_newPriority {order : List String} (h : (scored A inputs idx order maxPriority i).reason = .applied) :
    (scored A inputs idx order maxPriority i).newPriority =
      (scored A inputs idx order maxPriority i).computedPriority := by
  rw [scored, withScore] at h ⊢
  split_ifs at h ⊢ with hreason
  · exact absurd h hreason
  · rfl

theorem scored_computedPriority {order : List String} (hmax : 0 ≤ maxPriority)
    (hvalid : isValidAutoPriorityMultiplier (rate inputs i) = true) :
    0 ≤ (scored A inputs idx order maxPriority i).computedPriority ∧
      (scored A inputs idx order maxPriority i).computedPriority ≤ maxPriority := by
  have hreason : (pricePass inputs idx order (fun i => initialResult A (inputs i)) i).reason = .applied := by
    rw [pricePass_reason, initialResult_reason]
    exact if_neg (by rw [show (inputs i).effectiveRateMultiplier = rate inputs i from rfl, hvalid]; decide)
  rw [scored, withScore, if_neg (by rw [hreason]; decide)]
  split_ifs
  · exact ⟨le_refl 0, hmax⟩
  · exact clamp_mem hmax

/-! ### The cells after dominance -/

section

variable {order : List String} {maxPriority : Int} {results : ι → AutoPriorityScoreResult}

/-- The passes over the cohorts `keys`, from `cells` on. -/
theorem foldl_dominateCohort_of_not_mem {keys : List String} {cells : ι → Cell} (h : cohortOf inputs i ∉ keys) :
    keys.foldl (fun cells key => dominateCohort A inputs (cohortAt inputs idx maxPriority key) cells) cells i =
      cells i := by
  refine foldlRecOn (motive := fun s : ι → Cell => s i = cells i) keys _ rfl ?_
  intro s hs key hkey
  rw [dominateCohort_of_not_mem, hs]
  intro hin
  rw [mem_cohortAt, mem_members] at hin
  exact h (hin.2.2 ▸ hkey)

/-- **The cells of one cohort** come from both passes over it; the other cohorts leave them alone. -/
theorem dominance_of_mem (hnodup : order.Nodup) (hkey : key ∈ order) : ∃ cells : ι → Cell,
      (∀ i ∈ members inputs idx key, cells i = { result := results i, isProtected := false }) ∧
      ∀ i ∈ members inputs idx key, applyAutoPriorityExtremeCostDominance A inputs idx order maxPriority results i =
          dominateCohort A inputs (cohortAt inputs idx maxPriority key) cells i := by
  obtain ⟨pre, post, rfl⟩ := append_of_mem hkey
  have hpre : key ∉ pre := fun hin =>
    (nodup_append.mp hnodup).2.2 key hin key mem_cons_self rfl
  have hpost : key ∉ post := (nodup_cons.mp (nodup_append.mp hnodup).2.1).1
  refine ⟨pre.foldl (fun cells key => dominateCohort A inputs (cohortAt inputs idx maxPriority key) cells)
    fun i => { result := results i, isProtected := false }, fun i hi => ?_, fun i hi => ?_⟩
  · obtain rfl := (mem_members.mp hi).2.2
    exact foldl_dominateCohort_of_not_mem hpre
  · obtain rfl := (mem_members.mp hi).2.2
    rw [applyAutoPriorityExtremeCostDominance, foldl_append, foldl_cons]
    exact foldl_dominateCohort_of_not_mem hpost

theorem dominance_reason (hidx : idx.Nodup) (i : ι) :
    (applyAutoPriorityExtremeCostDominance A inputs idx order maxPriority results i).result.reason =
      (results i).reason := by
  refine foldlRecOn (motive := fun s : ι → Cell => (s i).result.reason = (results i).reason) order _ rfl ?_
  intro s hs key _
  rw [reranked_dominateCohort (inOrder_cohortAt hidx maxPriority key) i]
  exact hs

theorem dominance_newPriority (hidx : idx.Nodup) (h : (results i).newPriority = (results i).computedPriority) :
    (applyAutoPriorityExtremeCostDominance A inputs idx order maxPriority results i).result.newPriority =
      (applyAutoPriorityExtremeCostDominance A inputs idx order maxPriority results i).result.computedPriority :=
  foldlRecOn
    (motive := fun s : ι → Cell => (s i).result.newPriority = (s i).result.computedPriority) order _ h
    fun _ hs key _ => dominateCohort_newPriority (inOrder_cohortAt hidx maxPriority key) hs

end

/-! ### Settled results -/

/-- The priority is the computed one, or is held back within nine of it. -/
structure Settled (result : AutoPriorityScoreResult) : Prop where
  applied : result.reason = .applied → result.newPriority = result.computedPriority
  held : result.reason = .hysteresisDeltaBelowThreshold →
    result.newPriority - 9 ≤ result.computedPriority ∧ result.computedPriority ≤ result.newPriority + 9

theorem settled_released (result : AutoPriorityScoreResult) : Settled result.released where
  applied := fun _ => rfl
  held := fun h => absurd h nofun

variable {result : AutoPriorityScoreResult}

theorem Settled.near (h : Settled result) (hranked : result.ranked = true) :
    result.newPriority - 9 ≤ result.computedPriority ∧ result.computedPriority ≤ result.newPriority + 9 := by
  rw [AutoPriorityScoreResult.ranked, decide_eq_true_eq] at hranked
  rcases hranked with happlied | hheld
  · have heq := h.applied happlied
    omega
  · exact h.held hheld

theorem Settled.eq_of_not_movable (h : Settled result)
    (hranked : result.ranked = true) (hmovable : result.movable = false) :
    result.newPriority = result.computedPriority := by
  rw [AutoPriorityScoreResult.ranked, decide_eq_true_eq] at hranked
  rw [AutoPriorityScoreResult.movable, decide_eq_false_iff_not] at hmovable
  rcases hranked with happlied | hheld
  · exact h.applied happlied
  · by_contra hne
    exact hmovable ⟨hheld, hne⟩

theorem hold_settled {input : AutoPriorityScoreInput} {cell : Cell}
    (hnew : cell.result.reason = .applied → cell.result.newPriority = cell.result.computedPriority)
    (hreason : cell.result.reason ≠ .hysteresisDeltaBelowThreshold) : Settled (hold input cell) := by
  rw [hold]
  split_ifs with hother hprotected hbelow
  · exact ⟨hnew, fun h => absurd h hreason⟩
  · exact ⟨hnew, fun h => absurd h hreason⟩
  · refine ⟨fun h => absurd h nofun, fun _ => ?_⟩
    have hnear := near_of_below hbelow.2
    exact hnear
  · exact ⟨fun _ => hnew (not_not.mp hother), fun h => absurd h nofun⟩

theorem held_settled (hidx : idx.Nodup) (orders : Orders inputs idx) (maxPriority : Int) (i : ι) :
    Settled (hold (inputs i) (dominated A inputs idx orders maxPriority i)) := by
  refine hold_settled (fun happlied => ?_) ?_
  · rw [dominated, dominance_reason hidx] at happlied
    exact dominance_newPriority hidx (scored_newPriority happlied)
  · rw [dominated, dominance_reason hidx, scored_reason]
    split_ifs <;> decide

/-! ### The reconciliation -/

variable {order : List String} {results results' : ι → AutoPriorityScoreResult}

theorem release_movable (h : release inputs idx order results i = true) : (results i).movable = true := by
  rw [release, Bool.and_eq_true] at h
  exact h.1

theorem releaseAll_settled (h : ∀ i, Settled (results i)) (i : ι) :
    Settled (releaseAll inputs idx order results i) := by
  rw [releaseAll]
  split_ifs
  · exact settled_released _
  · exact h i

def heldCount (idx : List ι) (results : ι → AutoPriorityScoreResult) : Nat :=
  idx.countP fun i => (results i).reason = .hysteresisDeltaBelowThreshold

theorem heldCount_releaseAll (hi : i ∈ idx) (h : release inputs idx order results i = true) :
    heldCount idx (releaseAll inputs idx order results) < heldCount idx results := by
  have hmono : ∀ l : List ι, heldCount l (releaseAll inputs idx order results) ≤ heldCount l results := by
    intro l
    refine countP_mono_left fun j _ hj => ?_
    rw [decide_eq_true_eq, releaseAll] at hj
    rw [decide_eq_true_eq]
    split_ifs at hj
    · exact absurd hj nofun
    · exact hj
  have hheld : (results i).reason = .hysteresisDeltaBelowThreshold := by
    have hmovable := release_movable h
    rw [AutoPriorityScoreResult.movable, decide_eq_true_eq] at hmovable
    exact hmovable.1
  have hfree : (releaseAll inputs idx order results i).reason = .applied := by
    rw [releaseAll, if_pos h]
    rfl
  obtain ⟨pre, post, heq⟩ := append_of_mem hi
  have hpre := hmono pre
  have hpost := hmono post
  rw [heldCount, heldCount] at hpre hpost ⊢
  generalize releaseAll inputs idx order results = after at *
  rw [heq, countP_append, countP_append, countP_cons_of_neg (by simp [hfree]), countP_cons_of_pos (by simp [hheld])]
  omega

/-- **The loop ends** after at most one iteration for each channel, and one. -/
theorem reconcile_some (results : ι → AutoPriorityScoreResult) :
    ∃ results', reconcileAutoPriorityHysteresisOrdering inputs idx order (idx.length + 1) results = some results' := by
  refine untilStop_some (μ := heldCount idx) ?_ (Nat.lt_succ_of_le countP_le_length)
  intro results hstop
  rw [Bool.not_eq_false'] at hstop
  obtain ⟨i, hi, hrelease⟩ := any_eq_true.mp hstop
  exact heldCount_releaseAll hi hrelease

def InRank (inputs : ι → AutoPriorityScoreInput) (idx : List ι) (results : ι → AutoPriorityScoreResult) : Prop :=
  ∀ key, ∀ i ∈ members inputs idx key, ∀ j ∈ members inputs idx key, (results i).ranked = true →
    (results j).ranked = true → (results i).computedPriority + 10 ≤ (results j).computedPriority →
    (results i).newPriority < (results j).newPriority

theorem inverted_iff {higher lower : AutoPriorityScoreResult}
    (hapart : lower.computedPriority + 10 ≤ higher.computedPriority) (hhigher : higher.ranked = true)
    (hlower : lower.ranked = true) : inverted higher lower = true ↔ higher.newPriority ≤ lower.newPriority := by
  have hlt : lower.computedPriority < higher.computedPriority := by omega
  simp [inverted, hhigher, hlower, not_below hapart, hlt]

theorem inRank_of_stable (horder : ∀ key, members inputs idx key ≠ [] → key ∈ order)
    (hsettled : ∀ i, Settled (results i)) (hstable : ∀ i ∈ idx, release inputs idx order results i = false) :
    InRank inputs idx results := by
  intro key i hi j hj hri hrj hapart
  by_contra hle
  have hinv := (inverted_iff hapart hrj hri).mpr (not_lt.mp hle)
  have hkey := horder key (ne_nil_of_mem hi)
  have hstay : ∀ x ∈ members inputs idx key, ∀ y ∈ members inputs idx key,
      (inverted (results x) (results y) || inverted (results y) (results x)) = true → (results x).movable = false := by
    intro x hx y hy hxy
    have hfalse := hstable x (mem_members.mp hx).1
    rw [release, Bool.and_eq_false_iff] at hfalse
    refine hfalse.resolve_right ?_
    rw [Bool.not_eq_false, any_eq_true]
    refine ⟨key, hkey, ?_⟩
    rw [Bool.and_eq_true, decide_eq_true_eq, any_eq_true]
    exact ⟨hx, y, hy, hxy⟩
  have hnewi := (hsettled i).eq_of_not_movable hri (hstay i hi j hj (by simp [hinv]))
  have hnewj := (hsettled j).eq_of_not_movable hrj (hstay j hj i hi (by simp [hinv]))
  omega

theorem reconcile_spec (hsettled : ∀ i, Settled (results i))
    (h : reconcileAutoPriorityHysteresisOrdering inputs idx order fuel results = some results') :
    (∀ i, Settled (results' i)) ∧ ∀ i ∈ idx, release inputs idx order results' i = false := by
  obtain ⟨hkeep, hstop⟩ := untilStop_inv (I := fun r : ι → AutoPriorityScoreResult => ∀ i, Settled (r i))
    (fun _ hr => releaseAll_settled hr) hsettled h
  refine ⟨hkeep, ?_⟩
  rw [Bool.not_eq_true', any_eq_false] at hstop
  exact fun i hi => Bool.eq_false_iff.mpr (hstop i hi)

section

variable (h : reconcileAutoPriorityHysteresisOrdering inputs idx order fuel results = some results')

include h

theorem reconcile_released (i : ι) : results' i = results i ∨ results' i = (results i).released := by
  refine (untilStop_inv (I := fun r : ι → AutoPriorityScoreResult =>
    r i = results i ∨ r i = (results i).released) ?_ (.inl rfl) h).1
  intro r hr
  rw [releaseAll]
  split_ifs
  · right
    rcases hr with hsame | hfree
    · rw [hsame]
    · rw [hfree]
      rfl
  · exact hr

theorem reconcile_applied (hi : (results i).reason = .applied) : results' i = results i := by
  refine (untilStop_inv (I := fun r : ι → AutoPriorityScoreResult => r i = results i) ?_ rfl h).1
  intro r hr
  rw [releaseAll, if_neg, hr]
  intro hrelease
  have hmovable := release_movable hrelease
  rw [hr, AutoPriorityScoreResult.movable, decide_eq_true_eq, hi] at hmovable
  exact absurd hmovable.1 nofun

/-! ### The repair -/

end

section

variable (A inputs idx) (maxPriority : Int)

def marginOf (key : String) : Int := priorityMargin A inputs (cohortAt inputs idx maxPriority key)

def violated (results : ι → AutoPriorityScoreResult) (e : ι) : Bool :=
  (results e).reason = .hysteresisDeltaBelowThreshold &&
    decide (e ∈ members inputs idx (cohortOf inputs e)) &&
    0 < marginOf A inputs idx maxPriority (cohortOf inputs e) &&
    (members inputs idx (cohortOf inputs e)).any fun c =>
      gate inputs c = 1 && hasAutoPriorityExtremeNominalRateAdvantage (rate inputs c) (rate inputs e) &&
        !keepsMargin (marginOf A inputs idx maxPriority (cohortOf inputs e)) (results c) (results e)

/-- A channel over one that is held back has its computed priority. -/
def Guarded (results : ι → AutoPriorityScoreResult) : Prop :=
  ∀ key, 0 < marginOf A inputs idx maxPriority key → ∀ c ∈ members inputs idx key,
    ∀ e ∈ members inputs idx key, gate inputs c = 1 →
    hasAutoPriorityExtremeNominalRateAdvantage (rate inputs c) (rate inputs e) = true →
    (results e).reason = .hysteresisDeltaBelowThreshold → (results c).newPriority = (results c).computedPriority

def Repairing (start now : ι → AutoPriorityScoreResult) : Prop :=
  ∀ i, now i = start i ∨ (violated A inputs idx maxPriority start i = true ∧ now i = (start i).released)

end

variable {maxPriority : Int} {start now : ι → AutoPriorityScoreResult}

theorem violated_iff (he : e ∈ members inputs idx key) : violated A inputs idx maxPriority start e = true ↔
      (start e).reason = .hysteresisDeltaBelowThreshold ∧ 0 < marginOf A inputs idx maxPriority key ∧
      ∃ c ∈ members inputs idx key, gate inputs c = 1 ∧
        hasAutoPriorityExtremeNominalRateAdvantage (rate inputs c) (rate inputs e) = true ∧
        keepsMargin (marginOf A inputs idx maxPriority key) (start c) (start e) = false := by
  obtain rfl := (mem_members.mp he).2.2
  simp [violated, he, and_assoc]

theorem keepsMargin_congr {cheap cheap' expensive : AutoPriorityScoreResult}
    (h : cheap'.newPriority = cheap.newPriority) :
    keepsMargin margin cheap' expensive = keepsMargin margin cheap expensive := by
  rw [keepsMargin, keepsMargin, h]

theorem Repairing.newPriority_eq (h : Repairing A inputs idx maxPriority start now)
    (hc : (start c).newPriority = (start c).computedPriority) : (now c).newPriority = (start c).newPriority := by
  rcases h c with hsame | ⟨-, hfree⟩
  · rw [hsame]
  · rw [hfree, hc]
    rfl

variable (hguard : Guarded A inputs idx maxPriority start) (h : Repairing A inputs idx maxPriority start now)

include h in
include hguard in
/-- **One comparison of the repair** releases only channels that violate the margin as the repair began. -/
theorem repairing_repairPair (hmargin : 0 < marginOf A inputs idx maxPriority key)
    (hc : c ∈ members inputs idx key) (hgate : gate inputs c = 1) (he : e ∈ members inputs idx key) :
    Repairing A inputs idx maxPriority start (repairPair inputs (marginOf A inputs idx maxPriority key) c now e) := by
  rw [repairPair]
  split_ifs with hstay
  · exact h
  · simp only [not_or, Bool.not_eq_false, not_not, Bool.not_eq_true] at hstay
    obtain ⟨hadv, hheld, hbroken⟩ := hstay
    have hsame : now e = start e := by
      refine (h e).resolve_right fun hfree => ?_
      rw [hfree.2] at hheld
      exact absurd hheld nofun
    rw [hsame] at hheld hbroken
    have hcheap := h.newPriority_eq (hguard key hmargin c hc e he hgate hadv hheld)
    rw [keepsMargin_congr hcheap] at hbroken
    intro i
    by_cases hi : i = e
    · subst hi
      rw [update_self, hsame]
      exact .inr ⟨(violated_iff he).mpr ⟨hheld, hmargin, c, hc, hgate, hadv, hbroken⟩, rfl⟩
    · rw [update_of_ne hi]
      exact h i

theorem repairPair_released (h : (now i).reason = .applied) : repairPair inputs margin c now e i = now i := by
  rw [repairPair]
  split_ifs with hstay
  · rfl
  · by_cases hi : i = e
    · subst hi
      rw [h] at hstay
      exact absurd (.inr (.inl nofun)) hstay
    · exact update_of_ne hi _ _

include h in
include hguard in
theorem repairing_row (hmargin : 0 < marginOf A inputs idx maxPriority key)
    (hc : c ∈ members inputs idx key) : Repairing A inputs idx maxPriority start (if gate inputs c ≠ 1 then now
        else (members inputs idx key).foldl (repairPair inputs (marginOf A inputs idx maxPriority key) c) now) := by
  split_ifs with hgate
  · exact h
  · exact foldlRecOn (motive := Repairing A inputs idx maxPriority start) _ _ h
      fun _ hnow _ he => repairing_repairPair hguard hnow hmargin hc (not_not.mp hgate) he

variable {indexes : List ι}

theorem row_released (h : now i = (start i).released) :
    (if gate inputs c ≠ 1 then now else indexes.foldl (repairPair inputs margin c) now) i = (start i).released := by
  split_ifs
  · exact h
  · refine foldlRecOn (motive := fun now : ι → AutoPriorityScoreResult => now i = (start i).released) _ _ h ?_
    intro now hnow e _
    rw [repairPair_released (by rw [hnow]; rfl), hnow]

include h in
include hguard in
theorem repairing_repairCohort (key : String) : Repairing A inputs idx maxPriority start
      (repairCohort inputs (marginOf A inputs idx maxPriority key) (members inputs idx key) now) := by
  rw [repairCohort]
  split_ifs with hmargin
  · exact h
  · exact foldlRecOn (motive := Repairing A inputs idx maxPriority start) _ _ h
      fun _ hnow _ hc => repairing_row hguard hnow (not_le.mp hmargin) hc

theorem repairCohort_released (h : now i = (start i).released) :
    repairCohort inputs margin indexes now i = (start i).released := by
  rw [repairCohort]
  split_ifs
  · exact h
  · exact foldlRecOn (motive := fun now : ι → AutoPriorityScoreResult => now i = (start i).released) _ _ h
      fun _ hnow _ _ => row_released hnow

include h in
include hguard in
theorem repairPair_of_violating (hmargin : 0 < marginOf A inputs idx maxPriority key)
    (hc : c ∈ members inputs idx key) (he : e ∈ members inputs idx key) (hgate : gate inputs c = 1)
    (hadv : hasAutoPriorityExtremeNominalRateAdvantage (rate inputs c) (rate inputs e) = true)
    (hheld : (start e).reason = .hysteresisDeltaBelowThreshold)
    (hbroken : keepsMargin (marginOf A inputs idx maxPriority key) (start c) (start e) = false) :
    repairPair inputs (marginOf A inputs idx maxPriority key) c now e e = (start e).released := by
  rcases h e with hsame | ⟨-, hfree⟩
  · have hcheap := h.newPriority_eq (hguard key hmargin c hc e he hgate hadv hheld)
    rw [repairPair, if_neg, update_self, hsame]
    rw [hsame, keepsMargin_congr hcheap, hadv, hheld, hbroken]
    simp
  · rw [repairPair_released (by rw [hfree]; rfl), hfree]

include h in
include hguard in
theorem repairCohort_of_violated (he : e ∈ members inputs idx key)
    (hviolated : violated A inputs idx maxPriority start e = true) :
    repairCohort inputs (marginOf A inputs idx maxPriority key) (members inputs idx key) now e =
      (start e).released := by
  obtain ⟨hheld, hmargin, c, hc, hgate, hadv, hbroken⟩ := (violated_iff he).mp hviolated
  rw [repairCohort, if_neg (not_le.mpr hmargin)]
  refine foldl_reach (I := Repairing A inputs idx maxPriority start)
    (P := fun now : ι → AutoPriorityScoreResult => now e = (start e).released) hc
    (fun _ hnow _ hc => repairing_row hguard hnow hmargin hc) ?_ (fun _ _ hnow _ _ => row_released hnow) h
  intro now hnow
  rw [if_neg (not_not.mpr hgate)]
  refine foldl_reach (I := Repairing A inputs idx maxPriority start)
    (P := fun now : ι → AutoPriorityScoreResult => now e = (start e).released) he
    (fun _ hnow _ he => repairing_repairPair hguard hnow hmargin hc hgate he) ?_ ?_ hnow
  · intro now hnow
    exact repairPair_of_violating hguard hnow hmargin hc he hgate hadv hheld hbroken
  · intro now _ hfree e' _
    rw [repairPair_released (by rw [hfree]; rfl), hfree]

include hguard in
/-- **The repair** releases exactly the channels that violate the margin when it begins, in any order. -/
theorem repair_eq (horder : ∀ key, members inputs idx key ≠ [] → key ∈ order) (i : ι) :
    removeAutoPriorityHysteresisDominanceViolations A inputs idx order maxPriority start i =
      if violated A inputs idx maxPriority start i then (start i).released else start i := by
  have hstep : ∀ now, Repairing A inputs idx maxPriority start now → ∀ key ∈ order,
      Repairing A inputs idx maxPriority start
        (repairCohort inputs (marginOf A inputs idx maxPriority key) (members inputs idx key) now) :=
    fun now hnow key _ => repairing_repairCohort hguard hnow key
  have hstart : Repairing A inputs idx maxPriority start start := fun i => .inl rfl
  split_ifs with hviolated
  · have hi : i ∈ members inputs idx (cohortOf inputs i) := by
      rw [violated, Bool.and_eq_true, Bool.and_eq_true, Bool.and_eq_true, decide_eq_true_eq,
        decide_eq_true_eq] at hviolated
      exact hviolated.1.1.2
    exact foldl_reach (I := Repairing A inputs idx maxPriority start)
      (P := fun now : ι → AutoPriorityScoreResult => now i = (start i).released) (horder _ (ne_nil_of_mem hi)) hstep
      (fun now hnow => repairCohort_of_violated hguard hnow hi hviolated)
      (fun _ _ hfree _ _ => repairCohort_released hfree) hstart
  · have hend : Repairing A inputs idx maxPriority start
        (removeAutoPriorityHysteresisDominanceViolations A inputs idx order maxPriority start) :=
      foldlRecOn (motive := Repairing A inputs idx maxPriority start) order _ hstart hstep
    exact (hend i).resolve_right fun hfree => hviolated hfree.1

end

end WynthApi.Priority

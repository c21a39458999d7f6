import WynthApi.Priority.Ranking

/-!
# The priorities that are returned

A channel that dominates a peer is protected: its priority is the computed one throughout.  The repair compares the
peer with it: either the margin is there, or the peer goes to its own computed priority, which has it.  The order of
two channels that are clearly apart survives, because a held priority is within nine of the computed one.
-/

namespace WynthApi.Priority

open List

section

variable {ι : Type} [DecidableEq ι] {A : Arith} {inputs : ι → AutoPriorityScoreInput} {idx : List ι}
  {orders : Orders inputs idx} {maxPriority : Int}

/-! ### After dominance -/

variable {key : String} {mid : ι → AutoPriorityScoreResult} {cell : Cell} {c e : ι}
  {input : AutoPriorityScoreInput}

theorem roomy_cohortAt (hidx : idx.Nodup) (hmax : 0 ≤ maxPriority)
    (hmargin : 0 < marginOf A inputs idx maxPriority key) : Roomy A inputs (cohortAt inputs idx maxPriority key) where
  inOrder := inOrder_cohortAt hidx maxPriority key
  cap_nonneg := hmax
  margin_pos := hmargin

theorem dominated_eq (orders : Orders inputs idx) (hkey : members inputs idx key ≠ []) : ∃ cells : ι → Cell,
      (∀ i ∈ members inputs idx key,
        cells i = { result := scored A inputs idx orders.price.keys maxPriority i, isProtected := false }) ∧
      ∀ i ∈ members inputs idx key, dominated A inputs idx orders maxPriority i =
        dominateCohort A inputs (cohortAt inputs idx maxPriority key) cells i :=
  dominance_of_mem orders.dominance.nodup ((orders.dominance.mem_iff key).mpr hkey)

section

variable (hidx : idx.Nodup) (hmax : 0 ≤ maxPriority)
  (hmargin : 0 < marginOf A inputs idx maxPriority key) (hc : c ∈ members inputs idx key)
  (he : e ∈ members inputs idx key) (hdom : dominates inputs c e = true)

include hidx hmax hmargin hc he hdom

theorem dominated_isProtected : (dominated A inputs idx orders maxPriority c).isProtected = true := by
  obtain ⟨cells, -, hcells⟩ := dominated_eq orders (ne_nil_of_mem hc)
  rw [hcells c hc]
  exact dominateCohort_isProtected (roomy_cohortAt hidx hmax hmargin) (mem_cohortAt.mpr hc) (mem_cohortAt.mpr he) hdom

theorem dominated_margin : (dominated A inputs idx orders maxPriority e).result.computedPriority +
        marginOf A inputs idx maxPriority key ≤
      (dominated A inputs idx orders maxPriority c).result.computedPriority := by
  obtain ⟨cells, hinit, hcells⟩ := dominated_eq orders (ne_nil_of_mem hc)
  rw [hcells c hc, hcells e he]
  refine dominateCohort_margin (roomy_cohortAt hidx hmax hmargin) ?_ (mem_cohortAt.mpr hc) (mem_cohortAt.mpr he) hdom
  intro x hx
  have hx' := mem_cohortAt.mp hx
  rw [hinit x hx']
  exact scored_computedPriority hmax (mem_members.mp hx').2.1

end

theorem dominated_reason (hidx : idx.Nodup) (i : ι) :
    (dominated A inputs idx orders maxPriority i).result.reason =
      if isValidAutoPriorityMultiplier (rate inputs i) = false then .missingEffectiveRateMultiplier
      else if (inputs i).hardUnavailable then .channelAutoDisabled else .applied := by
  rw [dominated, dominance_reason hidx, scored_reason]

/-! ### After the hysteresis -/

theorem hold_computedPriority (input : AutoPriorityScoreInput) (cell : Cell) :
    (hold input cell).computedPriority = cell.result.computedPriority := by
  rw [hold]
  split_ifs <;> rfl

theorem hold_of_isProtected (happlied : cell.result.reason = .applied) (h : cell.isProtected = true) :
    (hold input cell).reason = .applied := by
  rw [hold, if_neg (not_not.mpr happlied), if_pos h]
  exact happlied

theorem applied_of_hold (hnot : cell.result.reason ≠ .hysteresisDeltaBelowThreshold)
    (h : (hold input cell).reason = .hysteresisDeltaBelowThreshold) : cell.result.reason = .applied := by
  rw [hold] at h
  split_ifs at h with hother
  · exact absurd h hnot
  · exact absurd h hnot
  · exact not_not.mp hother

theorem ranked_hold (h : cell.result.reason = .applied) : (hold input cell).ranked = true := by
  rw [AutoPriorityScoreResult.ranked, decide_eq_true_eq, hold, if_neg (not_not.mpr h)]
  split_ifs
  · exact .inl h
  · exact .inr rfl
  · exact .inl rfl

theorem hold_of_dominates (hidx : idx.Nodup) (hmax : 0 ≤ maxPriority)
    (hmargin : 0 < marginOf A inputs idx maxPriority key) (hc : c ∈ members inputs idx key)
    (he : e ∈ members inputs idx key) (hdom : dominates inputs c e = true) :
    (hold (inputs c) (dominated A inputs idx orders maxPriority c)).reason = .applied := by
  refine hold_of_isProtected ?_ (dominated_isProtected hidx hmax hmargin hc he hdom)
  have hgate := (dominates_iff.mp hdom).1
  rw [gate] at hgate
  rw [dominated_reason hidx]
  split_ifs at hgate ⊢
  · exact absurd hgate (by norm_num)
  · exact absurd hgate (by norm_num)
  · rfl

/-! ### The passes in a row -/

structure Midway (A : Arith) (inputs : ι → AutoPriorityScoreInput) (idx : List ι) (orders : Orders inputs idx)
    (maxPriority : Int) (mid : ι → AutoPriorityScoreResult) : Prop where
  settled : ∀ i, Settled (mid i)
  inRank : InRank inputs idx mid
  guarded : Guarded A inputs idx maxPriority mid
  released : ∀ i, mid i = hold (inputs i) (dominated A inputs idx orders maxPriority i) ∨
    mid i = (hold (inputs i) (dominated A inputs idx orders maxPriority i)).released
  applied : ∀ i, (hold (inputs i) (dominated A inputs idx orders maxPriority i)).reason = .applied →
    mid i = hold (inputs i) (dominated A inputs idx orders maxPriority i)

theorem guarded_of_hold (hidx : idx.Nodup) (hmax : 0 ≤ maxPriority) (hsettled : ∀ i, Settled (mid i))
    (hreleased : ∀ i, mid i = hold (inputs i) (dominated A inputs idx orders maxPriority i) ∨
      mid i = (hold (inputs i) (dominated A inputs idx orders maxPriority i)).released)
    (happlied : ∀ i, (hold (inputs i) (dominated A inputs idx orders maxPriority i)).reason = .applied →
      mid i = hold (inputs i) (dominated A inputs idx orders maxPriority i)) :
    Guarded A inputs idx maxPriority mid := by
  intro key hmargin c hc e he hgate hadv hheld
  have hreason : (hold (inputs e) (dominated A inputs idx orders maxPriority e)).reason =
      .hysteresisDeltaBelowThreshold := by
    rcases hreleased e with hsame | hfree
    · rw [← hsame]
      exact hheld
    · rw [hfree] at hheld
      exact absurd hheld nofun
  have hpeer : (inputs e).hardUnavailable = false := by
    have hcell : (dominated A inputs idx orders maxPriority e).result.reason = .applied := by
      refine applied_of_hold ?_ hreason
      rw [dominated_reason hidx]
      split_ifs <;> decide
    rw [dominated_reason hidx] at hcell
    split_ifs at hcell with _ hhard
    exact Bool.eq_false_iff.mpr hhard
  have hstart : (hold (inputs c) (dominated A inputs idx orders maxPriority c)).reason = .applied :=
    hold_of_dominates hidx hmax hmargin hc he (dominates_iff.mpr ⟨hgate, hpeer, hadv⟩)
  refine (hsettled c).applied ?_
  rw [happlied c hstart]
  exact hstart

variable (A inputs idx maxPriority) in
def repaired (mid : ι → AutoPriorityScoreResult) (i : ι) : AutoPriorityScoreResult :=
  if violated A inputs idx maxPriority mid i then (mid i).released else mid i

/-- **All passes** give a result: the repair of settled results that are in their order. -/
theorem scoreAll_some (A : Arith) (orders : Orders inputs idx) (hidx : idx.Nodup) (hmax : 0 ≤ maxPriority) :
    ∃ mid, reconcileAutoPriorityHysteresisOrdering inputs idx orders.reconcile.keys (idx.length + 1)
        (fun i => hold (inputs i) (dominated A inputs idx orders maxPriority i)) = some mid ∧
      Midway A inputs idx orders maxPriority mid ∧
      scoreAll A inputs idx orders maxPriority = some (repaired A inputs idx maxPriority mid) := by
  obtain ⟨mid, hmid⟩ : ∃ mid, reconcileAutoPriorityHysteresisOrdering inputs idx orders.reconcile.keys
      (idx.length + 1) (fun i => hold (inputs i) (dominated A inputs idx orders maxPriority i)) = some mid :=
    reconcile_some _
  obtain ⟨hsettled, hstable⟩ := reconcile_spec (held_settled hidx orders maxPriority) hmid
  have hreleased := reconcile_released hmid
  have happlied : ∀ i, (hold (inputs i) (dominated A inputs idx orders maxPriority i)).reason = .applied →
      mid i = hold (inputs i) (dominated A inputs idx orders maxPriority i) :=
    fun i hi => reconcile_applied hmid hi
  have hguarded := guarded_of_hold hidx hmax hsettled hreleased happlied
  refine ⟨mid, hmid, ⟨hsettled, ?_, hguarded, hreleased, happlied⟩, ?_⟩
  · exact inRank_of_stable (fun key hkey => (orders.reconcile.mem_iff key).mpr hkey) hsettled hstable
  · rw [scoreAll, hmid, Option.map_some]
    refine congrArg some (funext fun i => ?_)
    exact repair_eq hguarded (fun key hkey => (orders.repair.mem_iff key).mpr hkey) i

theorem Midway.computedPriority (h : Midway A inputs idx orders maxPriority mid) (i : ι) :
    (mid i).computedPriority = (dominated A inputs idx orders maxPriority i).result.computedPriority := by
  rw [← hold_computedPriority (inputs i)]
  rcases h.released i with hsame | hfree
  · rw [hsame]
  · rw [hfree]
    rfl

theorem repaired_computedPriority (mid : ι → AutoPriorityScoreResult) (i : ι) :
    (repaired A inputs idx maxPriority mid i).computedPriority = (mid i).computedPriority := by
  rw [repaired]
  split_ifs <;> rfl

theorem repaired_cases (mid : ι → AutoPriorityScoreResult) (i : ι) :
    (repaired A inputs idx maxPriority mid i).newPriority = (mid i).computedPriority ∨
      repaired A inputs idx maxPriority mid i = mid i := by
  rw [repaired]
  split_ifs
  · exact .inl rfl
  · exact .inr rfl

theorem inRank_repaired (hsettled : ∀ i, Settled (mid i)) (h : InRank inputs idx mid) :
    InRank inputs idx (repaired A inputs idx maxPriority mid) := by
  intro key i hi j hj hri hrj hapart
  rw [repaired_computedPriority, repaired_computedPriority] at hapart
  rcases repaired_cases mid i with hnewi | hsamei
  · rw [hnewi]
    rcases repaired_cases mid j with hnewj | hsamej
    · rw [hnewj]
      omega
    · rw [hsamej] at hrj ⊢
      have hnear := (hsettled j).near hrj
      omega
  · rw [hsamei] at hri ⊢
    rcases repaired_cases mid j with hnewj | hsamej
    · rw [hnewj]
      have hnear := (hsettled i).near hri
      omega
    · rw [hsamej] at hrj ⊢
      exact h key i hi j hj hri hrj hapart

theorem le_of_keepsMargin {margin : Int} {cheap expensive : AutoPriorityScoreResult}
    (h : keepsMargin margin cheap expensive = true) : expensive.newPriority + margin ≤ cheap.newPriority := by
  rw [keepsMargin, safeAddInt64] at h
  split_ifs at h
  exact of_decide_eq_true h

/-- **The margin at the end**: a peer that is dominated keeps it, or was released to a priority that has it. -/
theorem margin_repaired (hidx : idx.Nodup) (hmax : 0 ≤ maxPriority)
    (h : Midway A inputs idx orders maxPriority mid) (hmargin : 0 < marginOf A inputs idx maxPriority key)
    (hc : c ∈ members inputs idx key) (he : e ∈ members inputs idx key) (hdom : dominates inputs c e = true) :
    (repaired A inputs idx maxPriority mid e).newPriority + marginOf A inputs idx maxPriority key ≤
      (repaired A inputs idx maxPriority mid c).newPriority := by
  obtain ⟨hgate, hpeer, hadv⟩ := dominates_iff.mp hdom
  have hmid : (mid e).computedPriority + marginOf A inputs idx maxPriority key ≤ (mid c).computedPriority := by
    rw [h.computedPriority, h.computedPriority]
    exact dominated_margin hidx hmax hmargin hc he hdom
  have happlied : (mid c).reason = .applied := by
    have hstart : (hold (inputs c) (dominated A inputs idx orders maxPriority c)).reason = .applied :=
      hold_of_dominates hidx hmax hmargin hc he hdom
    rw [h.applied c hstart]
    exact hstart
  have hcheap : (repaired A inputs idx maxPriority mid c).newPriority = (mid c).computedPriority := by
    rcases repaired_cases mid c with hnew | hsame
    · exact hnew
    · rw [hsame]
      exact (h.settled c).applied happlied
  rw [hcheap, repaired]
  split_ifs with hviolated
  · exact hmid
  · rw [violated_iff he] at hviolated
    by_cases hheld : (mid e).reason = .hysteresisDeltaBelowThreshold
    · have hkeeps : keepsMargin (marginOf A inputs idx maxPriority key) (mid c) (mid e) = true := by
        by_contra hbroken
        exact hviolated ⟨hheld, hmargin, c, hc, hgate, hadv, Bool.eq_false_iff.mpr hbroken⟩
      rw [← (h.settled c).applied happlied]
      exact le_of_keepsMargin hkeeps
    · have hranked : (mid e).ranked = true := by
        have hcell : (dominated A inputs idx orders maxPriority e).result.reason = .applied := by
          rw [dominated_reason hidx, if_neg (by rw [(mem_members.mp he).2.1]; decide), if_neg (by rw [hpeer]; decide)]
        rcases h.released e with hsame | hfree
        · rw [hsame]
          exact ranked_hold hcell
        · rw [hfree]
          rfl
      rw [AutoPriorityScoreResult.ranked, decide_eq_true_eq] at hranked
      rw [(h.settled e).applied (hranked.resolve_right hheld)]
      exact hmid

end

/-! ### The function -/

theorem effectiveMaxPriority_pos (maxPriority : Int) : 0 < effectiveMaxPriority maxPriority := by
  rw [effectiveMaxPriority]
  split_ifs <;> omega

theorem advantage_of_le {cheap expensive : ℚ} (hcheap : 0 < cheap) (h : 8 * cheap ≤ expensive) :
    hasAutoPriorityExtremeNominalRateAdvantage cheap expensive = true := by
  have hexpensive : 0 < expensive := by linarith
  rw [hasAutoPriorityExtremeNominalRateAdvantage, if_neg (by
    simp [isValidAutoPriorityMultiplier, hcheap, hexpensive])]
  rw [decide_eq_true_eq]
  exact (le_div_iff₀ hcheap).mpr h

def cohortMembers (inputs : List AutoPriorityScoreInput) (key : String) : List (Fin inputs.length) :=
  members inputs.get (List.finRange inputs.length) key

variable (A : Arith) (inputs : List AutoPriorityScoreInput)

def sliceMargin (maxPriority : Int) (key : String) : Int :=
  marginOf A inputs.get (List.finRange inputs.length) maxPriority key

/-- **Clear rankings stay**: the loop that reconciles ends within one iteration for each result, and one, and the
priorities of two members of a cohort are in the order of the computed ones if these are ten apart. -/
theorem hysteresis_keeps_clear_ranking
    (orders : SliceOrders inputs) (maxPriority : Int) :
    (∀ start, ∃ mid, reconcileAutoPriorityHysteresisOrdering inputs.get (List.finRange inputs.length)
      orders.reconcile.keys (inputs.length + 1) start = some mid) ∧
    ∃ r : Fin inputs.length → AutoPriorityScoreResult,
      scoreAutoPriorityCandidates A inputs orders maxPriority = some (List.ofFn r) ∧
      ∀ key, ∀ i ∈ cohortMembers inputs key, ∀ j ∈ cohortMembers inputs key,
        ((r i).reason = .applied ∨ (r i).reason = .hysteresisDeltaBelowThreshold) →
        ((r j).reason = .applied ∨ (r j).reason = .hysteresisDeltaBelowThreshold) →
        (r i).computedPriority + 10 ≤ (r j).computedPriority → (r i).newPriority < (r j).newPriority := by
  have hidx := nodup_finRange inputs.length
  have hmax := (effectiveMaxPriority_pos maxPriority).le
  constructor
  · intro start
    have hsome : ∃ mid, reconcileAutoPriorityHysteresisOrdering inputs.get (finRange inputs.length)
        orders.reconcile.keys ((finRange inputs.length).length + 1) start = some mid := reconcile_some start
    rw [length_finRange] at hsome
    exact hsome
  · obtain ⟨mid, -, hmid, hscore⟩ := scoreAll_some A orders hidx hmax
    refine ⟨repaired A inputs.get (finRange inputs.length) (effectiveMaxPriority maxPriority) mid, ?_, ?_⟩
    · rw [scoreAutoPriorityCandidates, hscore, Option.map_some]
    · intro key i hi j hj hri hrj hapart
      exact inRank_repaired hmid.settled hmid.inRank key i hi j hj (decide_eq_true hri) (decide_eq_true hrj)
        hapart

/-- **Extreme cost dominance**: where the cohort's margin is positive, a healthy channel ends the margin above
every peer that costs eight times as much.  The margin is positive if the maximum is at least the number of
edges of every chain of dominance in the cohort. -/
theorem extreme_cost_dominance (orders : SliceOrders inputs)
    {maxPriority : Int} (hmax : 0 < maxPriority) : ∃ r : Fin inputs.length → AutoPriorityScoreResult,
      scoreAutoPriorityCandidates A inputs orders maxPriority = some (List.ofFn r) ∧ ∀ key,
        (0 < sliceMargin A inputs maxPriority key →
          ∀ i ∈ cohortMembers inputs key, ∀ j ∈ cohortMembers inputs key,
            (inputs.get i).hardUnavailable = false → (inputs.get j).hardUnavailable = false →
            gate inputs.get i = 1 →
            8 * (inputs.get i).effectiveRateMultiplier ≤ (inputs.get j).effectiveRateMultiplier →
            (r j).newPriority + sliceMargin A inputs maxPriority key ≤ (r i).newPriority) ∧
        ((∀ chain : List (Fin inputs.length), (∀ i ∈ chain, i ∈ cohortMembers inputs key) →
            List.IsChain (fun cheap expensive => dominates inputs.get cheap expensive = true) chain →
            (chain.length : Int) - 1 ≤ maxPriority) → 0 < sliceMargin A inputs maxPriority key) := by
  have hidx := nodup_finRange inputs.length
  have heff : effectiveMaxPriority maxPriority = maxPriority := if_neg (not_le.mpr hmax)
  obtain ⟨mid, -, hmid, hscore⟩ := scoreAll_some A orders hidx hmax.le
  refine ⟨repaired A inputs.get (finRange inputs.length) maxPriority mid, ?_, fun key => ⟨?_, ?_⟩⟩
  · rw [scoreAutoPriorityCandidates, heff, hscore, Option.map_some]
  · intro hmargin i hi j hj _ hpeer hgate hrate
    have hvalid := (mem_members.mp hi).2.1
    rw [isValidAutoPriorityMultiplier, decide_eq_true_eq] at hvalid
    exact margin_repaired hidx hmax.le hmid hmargin hi hj
      (dominates_iff.mpr ⟨hgate, hpeer, advantage_of_le hvalid hrate⟩)
  · intro hchains
    refine priorityMargin_pos (maxDepth_le (inOrder_cohortAt hidx maxPriority key) hmax.le ?_)
    intro x chain hx hin hchain
    have hlen := hchains (x :: chain) ?_ hchain
    · rw [length_cons] at hlen
      push_cast at hlen
      show (chain.length : Int) ≤ maxPriority
      omega
    · intro i hi
      rcases mem_cons.mp hi with rfl | hi
      · exact mem_cohortAt.mp hx
      · exact mem_cohortAt.mp (hin i hi)

def cheapAndDear : List AutoPriorityScoreInput :=
  [{ channelID := 1, localGroup := "default", channelType := 1, currentPriority := 900
     effectiveRateMultiplier := 1, cacheAdjustedCostFactor := 1, previousCacheAdjustedCostFactor := 0
     previousEffectiveCostMultiplier := 0, availability := some 1, firstTokenLatencyMS := 0, throughputTps := 0
     usageLogCount := 0, monitorCheckCount := 5, firstTokenSampleCount := 0, throughputSampleCount := 0
     hasPreviousSnapshot := true, hardUnavailable := false, cohortCostFloor := 0, cohortCostCeil := 0 },
   { channelID := 2, localGroup := "default", channelType := 1, currentPriority := 330
     effectiveRateMultiplier := 8, cacheAdjustedCostFactor := 1, previousCacheAdjustedCostFactor := 0
     previousEffectiveCostMultiplier := 0, availability := some 1, firstTokenLatencyMS := 0, throughputTps := 0
     usageLogCount := 0, monitorCheckCount := 5, firstTokenSampleCount := 0, throughputSampleCount := 0
     hasPreviousSnapshot := true, hardUnavailable := false, cohortCostFloor := 0, cohortCostCeil := 0 }]

def cheapAndDearOrders : SliceOrders cheapAndDear where
  price := .firstSeen _ _
  dominance := .firstSeen _ _
  reconcile := .firstSeen _ _
  repair := .firstSeen _ _

theorem cheap_ends_above_dear : ∃ r : Fin 2 → AutoPriorityScoreResult,
      scoreAutoPriorityCandidates (.exact fun x => x) cheapAndDear cheapAndDearOrders 1000 = some (List.ofFn r) ∧
      sliceMargin (.exact fun x => x) cheapAndDear 1000 "default#1" = 10 ∧
      (r 1).newPriority + 10 ≤ (r 0).newPriority := by
  have hmargin : sliceMargin (.exact fun x => x) cheapAndDear 1000 "default#1" = 10 := by decide +kernel
  obtain ⟨r, hscore, hkeys⟩ :=
    extreme_cost_dominance (.exact fun x => x) cheapAndDear cheapAndDearOrders (by decide : (0 : Int) < 1000)
  refine ⟨r, hscore, hmargin, ?_⟩
  have hcohort : ∀ i : Fin cheapAndDear.length,
      isValidAutoPriorityMultiplier (rate cheapAndDear.get i) = true ∧
        cohortOf cheapAndDear.get i = "default#1" := by decide +kernel
  have hin : ∀ i, i ∈ cohortMembers cheapAndDear "default#1" :=
    fun i => mem_members.mpr ⟨mem_finRange i, hcohort i⟩
  have hnew := (hkeys "default#1").1 (by rw [hmargin]; decide) (0 : Fin 2) (hin (0 : Fin 2)) (1 : Fin 2)
    (hin (1 : Fin 2)) rfl rfl
    (by decide +kernel) (by decide +kernel)
  rw [hmargin] at hnew
  exact hnew

end WynthApi.Priority

import Mathlib.Data.List.Dedup
import WynthApi.Lib.Until
import WynthApi.Priority.Dominance

/-!
# Small changes are held back

A channel with a snapshot keeps its old priority if the computed one is nearer than the threshold.  Holding
channels back may turn a clear ranking round, so `reconcileAutoPriorityHysteresisOrdering` releases them until no
two channels that are apart by the threshold are in the wrong order, and
`removeAutoPriorityHysteresisDominanceViolations` releases those that take a margin of dominance away.

A `CohortOrder` is any order that a range over the map of cohorts may have.
-/

namespace WynthApi.Priority

open Until Option

/-! ### Thresholds -/

def minInt64 : Int := -9223372036854775808

def maxInt64 : Int := 9223372036854775807

def safeAddInt64 (a b : Int) : Option Int :=
  if 0 < b ∧ maxInt64 - b < a then none
  else if b < 0 ∧ a < minInt64 - b then none
  else some (a + b)

def autoPriorityHysteresisThreshold : Int := 10

def autoPriorityDeltaBelowThreshold (oldPriority computedPriority threshold : Int) : Bool :=
  if threshold ≤ 0 then false
  else
    let delta := threshold - 1
    let lower := (safeAddInt64 oldPriority (-delta)).getD minInt64
    let upper := (safeAddInt64 oldPriority delta).getD maxInt64
    lower ≤ computedPriority ∧ computedPriority ≤ upper

variable {a b : Int}

theorem safeAddInt64_upper (hb : 0 < b) : (safeAddInt64 a b).getD maxInt64 = min maxInt64 (a + b) := by
  rw [safeAddInt64]
  split_ifs with hover hunder
  · rw [getD_none]
    omega
  · omega
  · rw [getD_some]
    omega

theorem safeAddInt64_lower (hb : b < 0) : (safeAddInt64 a b).getD minInt64 = max minInt64 (a + b) := by
  rw [safeAddInt64]
  split_ifs with hover hunder
  · omega
  · rw [getD_none]
    omega
  · rw [getD_some]
    omega

variable {old computed : Int}

theorem below_iff : autoPriorityDeltaBelowThreshold old computed autoPriorityHysteresisThreshold = true ↔
      max minInt64 (old + -9) ≤ computed ∧ computed ≤ min maxInt64 (old + 9) := by
  rw [← safeAddInt64_upper (by omega), ← safeAddInt64_lower (by omega), autoPriorityDeltaBelowThreshold,
    if_neg (by decide)]
  exact decide_eq_true_iff

/-- Below the threshold means at most nine away, whether or not the bounds overflow. -/
theorem near_of_below (h : autoPriorityDeltaBelowThreshold old computed autoPriorityHysteresisThreshold = true) :
    old - 9 ≤ computed ∧ computed ≤ old + 9 := by
  have hbounds := below_iff.mp h
  omega

theorem not_below {lower higher : Int} (h : lower + 10 ≤ higher) :
    autoPriorityDeltaBelowThreshold lower higher autoPriorityHysteresisThreshold = false := by
  rw [Bool.eq_false_iff, ne_eq, below_iff]
  omega

/-! ### Holding and releasing -/

def hold (input : AutoPriorityScoreInput) (cell : Cell) : AutoPriorityScoreResult :=
  if cell.result.reason ≠ .applied then cell.result
  else if cell.isProtected then { cell.result with applied := true }
  else if input.hasPreviousSnapshot ∧
      autoPriorityDeltaBelowThreshold cell.result.oldPriority cell.result.computedPriority
        autoPriorityHysteresisThreshold then
    { cell.result with
      applied := false, newPriority := cell.result.oldPriority, reason := .hysteresisDeltaBelowThreshold }
  else { cell.result with applied := true, reason := .applied }

variable (result : AutoPriorityScoreResult)

def AutoPriorityScoreResult.released : AutoPriorityScoreResult :=
  { result with applied := true, newPriority := result.computedPriority, reason := .applied }

def AutoPriorityScoreResult.ranked : Bool :=
  result.reason = .applied ∨ result.reason = .hysteresisDeltaBelowThreshold

def AutoPriorityScoreResult.movable : Bool :=
  result.reason = .hysteresisDeltaBelowThreshold ∧ result.newPriority ≠ result.computedPriority

/-- `higher` is clearly above `lower` as computed, and not above it as it stands. -/
def inverted (higher lower : AutoPriorityScoreResult) : Bool :=
  higher.ranked && lower.ranked && lower.computedPriority < higher.computedPriority &&
    !autoPriorityDeltaBelowThreshold lower.computedPriority higher.computedPriority
      autoPriorityHysteresisThreshold &&
    higher.newPriority ≤ lower.newPriority

section

variable {ι : Type} [DecidableEq ι] (A : Arith) (inputs : ι → AutoPriorityScoreInput) (idx : List ι)

/-- An order of a range over `priceCohorts`: every cohort, once. -/
structure CohortOrder where
  keys : List String
  nodup : keys.Nodup
  mem_iff : ∀ key, key ∈ keys ↔ members inputs idx key ≠ []

def CohortOrder.firstSeen : CohortOrder inputs idx where
  keys := ((idx.filter fun i => isValidAutoPriorityMultiplier (rate inputs i)).map (cohortOf inputs)).dedup
  nodup := List.nodup_dedup _
  mem_iff := by
    intro key
    rw [List.mem_dedup, List.mem_map]
    constructor
    · rintro ⟨i, hi, rfl⟩
      obtain ⟨hin, hvalid⟩ := List.mem_filter.mp hi
      exact List.ne_nil_of_mem (mem_members.mpr ⟨hin, hvalid, rfl⟩)
    · intro hne
      obtain ⟨i, hi⟩ := List.exists_mem_of_ne_nil _ hne
      obtain ⟨hin, hvalid, rfl⟩ := mem_members.mp hi
      exact ⟨i, List.mem_filter.mpr ⟨hin, hvalid⟩, rfl⟩

variable (order : List String)

def release (results : ι → AutoPriorityScoreResult) (i : ι) : Bool :=
  (results i).movable && order.any fun key =>
    decide (i ∈ members inputs idx key) && (members inputs idx key).any fun j =>
      inverted (results i) (results j) || inverted (results j) (results i)

def releaseAll (results : ι → AutoPriorityScoreResult) (i : ι) : AutoPriorityScoreResult :=
  if release inputs idx order results i then (results i).released else results i

/-- `reconcileAutoPriorityHysteresisOrdering`, with one unit of fuel for each iteration. -/
def reconcileAutoPriorityHysteresisOrdering (fuel : Nat)
    (results : ι → AutoPriorityScoreResult) : Option (ι → AutoPriorityScoreResult) :=
  untilStop (fun results => !idx.any fun i => release inputs idx order results i)
    (fun results => releaseAll inputs idx order results) fuel results

variable (margin : Int)

def keepsMargin (cheap expensive : AutoPriorityScoreResult) : Bool :=
  match safeAddInt64 expensive.newPriority margin with
  | some requiredCheapPriority => requiredCheapPriority ≤ cheap.newPriority
  | none => false

def repairPair (cheap : ι) (results : ι → AutoPriorityScoreResult) (expensive : ι) :
    ι → AutoPriorityScoreResult :=
  if hasAutoPriorityExtremeNominalRateAdvantage (rate inputs cheap) (rate inputs expensive) = false ∨
      (results expensive).reason ≠ .hysteresisDeltaBelowThreshold ∨
      keepsMargin margin (results cheap) (results expensive) then results
  else Function.update results expensive (results expensive).released

def repairCohort (indexes : List ι) (results : ι → AutoPriorityScoreResult) : ι → AutoPriorityScoreResult :=
  if margin ≤ 0 then results
  else indexes.foldl (fun results cheap =>
    if gate inputs cheap ≠ 1 then results else indexes.foldl (repairPair inputs margin cheap) results) results

def removeAutoPriorityHysteresisDominanceViolations (maxPriority : Int)
    (results : ι → AutoPriorityScoreResult) : ι → AutoPriorityScoreResult :=
  order.foldl (fun results key =>
    repairCohort inputs (priorityMargin A inputs (cohortAt inputs idx maxPriority key)) (members inputs idx key)
      results) results

/-! ### The whole function -/

/-- The orders of the ranges over the cohorts, one for each pass. -/
structure Orders where
  (price dominance reconcile repair : CohortOrder inputs idx)

variable (orders : Orders inputs idx) (maxPriority : Int)

def dominated : ι → Cell :=
  applyAutoPriorityExtremeCostDominance A inputs idx orders.dominance.keys maxPriority
    (scored A inputs idx orders.price.keys maxPriority)

def scoreAll : Option (ι → AutoPriorityScoreResult) :=
  (reconcileAutoPriorityHysteresisOrdering inputs idx orders.reconcile.keys (idx.length + 1)
      fun i => hold (inputs i) (dominated A inputs idx orders maxPriority i)).map
    (removeAutoPriorityHysteresisDominanceViolations A inputs idx orders.repair.keys maxPriority)

end

def effectiveMaxPriority (maxPriority : Int) : Int := if maxPriority ≤ 0 then 1000 else maxPriority

abbrev SliceOrders (inputs : List AutoPriorityScoreInput) := Orders inputs.get (List.finRange inputs.length)

def scoreAutoPriorityCandidates (A : Arith) (inputs : List AutoPriorityScoreInput) (orders : SliceOrders inputs)
    (maxPriority : Int) : Option (List AutoPriorityScoreResult) :=
  (scoreAll A inputs.get (List.finRange inputs.length) orders (effectiveMaxPriority maxPriority)).map List.ofFn

end WynthApi.Priority

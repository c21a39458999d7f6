import WynthApi.Lib.Longest
import WynthApi.Priority.Score

/-!
# Channels that cost eight times as much stay below

A channel dominates a peer of its cohort that costs at least eight times as much, if its own availability is not gated
and the peer is not switched off.  `applyAutoPriorityExtremeCostDominance` goes through the cohort from its most
expensive channel on and raises each over the peers it dominates, then back and lowers each below those that dominate
it.  Some channels must also stay above a synthetic peer with the group's ceiling as its rate.  The step is the
cohort's margin, small enough for the longest chain of dominance to fit between zero and the maximum.
-/

namespace WynthApi.Priority

open Sweep Longest

structure Cell where
  result : AutoPriorityScoreResult
  isProtected : Bool
  deriving DecidableEq

def AutoPriorityScoreResult.withPriority (result : AutoPriorityScoreResult) (score : ℚ) (priority : Int) :
    AutoPriorityScoreResult :=
  { result with finalScore := score, computedPriority := priority, newPriority := priority }

section

variable {ι : Type} [DecidableEq ι] (A : Arith) (inputs : ι → AutoPriorityScoreInput)

/-- The order of the passes: from high rates to low ones, and by id where the rates are equal. -/
def Precedes (i j : ι) : Prop :=
  rate inputs j < rate inputs i ∨
    rate inputs i = rate inputs j ∧ (inputs i).channelID ≤ (inputs j).channelID

instance : DecidableRel (Precedes inputs) := fun _ _ =>
  inferInstanceAs (Decidable (_ < _ ∨ _ = _ ∧ _ ≤ _))

def ordered (indexes : List ι) : List ι := indexes.insertionSort (Precedes inputs)

def dominates (cheap expensive : ι) : Bool :=
  gate inputs cheap = 1 && !(inputs expensive).hardUnavailable &&
    hasAutoPriorityExtremeNominalRateAdvantage (rate inputs cheap) (rate inputs expensive)

/-! ### Depths, heights and margins -/

/-- `dominanceDepths`: the longest chain of dominance below a channel. -/
def depth (l : List ι) : ι → Int := longest (dominates inputs) (fun _ => 0) 1 l

/-- `dominanceHeights`: the longest chain of dominance above a channel. -/
def height (l : List ι) : ι → Int := longest (fun e c => dominates inputs c e) (fun _ => 0) 1 l.reverse

def maxDepth (l : List ι) : Int := l.foldl (fun d x => max d (depth inputs l x)) 0

def synthetic (i : ι) : Bool :=
  gate inputs i = 1 &&
    hasAutoPriorityExtremeNominalRateAdvantage (rate inputs i) (inputs i).cohortCostCeil

/-- `addAutoPriorityDominanceMargin`; a sum beyond the machine range is cut to the maximum like any other. -/
def addAutoPriorityDominanceMargin (priority margin maxPriority : Int) : Int :=
  clampAutoPriorityPriority (priority + margin) 0 maxPriority

structure Cohort (ι : Type) where
  list : List ι
  priceFloor : ℚ
  maxPriority : Int

variable (C : Cohort ι)

def syntheticFinalScore (i : ι) : ℚ :=
  weightedAutoPriorityFinalScore 1
    (relativeAutoPriorityPriceScore (inputs i).cohortCostCeil C.priceFloor) 100 100 100 100

def syntheticPriority (i : ι) : Int :=
  clampAutoPriorityPriority (A.round (inputs i).channelID (syntheticFinalScore inputs C i)) 0 C.maxPriority

/-- The margin of scores that leaves room for the chain above the synthetic peer. -/
def scoreBound (i : ι) : ℚ := (100 - syntheticFinalScore inputs C i) / (height inputs C.list i + 1)

def priorityBound (i : ι) : Int := (C.maxPriority - syntheticPriority A inputs C i) / (height inputs C.list i + 1)

/-- The spacing of floating-point numbers right below 100. -/
def minimumRepresentableMargin : ℚ := 1 / 2 ^ 46

def scoreSynthetic (i : ι) : Bool :=
  synthetic inputs i && 0 < scoreBound inputs C i && minimumRepresentableMargin ≤ scoreBound inputs C i

def prioritySynthetic (i : ι) : Bool := synthetic inputs i && 0 < priorityBound A inputs C i

def scoreMargin : ℚ :=
  C.list.foldl (fun m i => if scoreSynthetic inputs C i then min m (scoreBound inputs C i) else m)
    (if 0 < maxDepth inputs C.list then min 1 (100 / maxDepth inputs C.list) else 1)

def priorityMargin : Int :=
  C.list.foldl (fun m i => if prioritySynthetic A inputs C i then min m (priorityBound A inputs C i) else m)
    (if 0 < maxDepth inputs C.list then min 10 (C.maxPriority / maxDepth inputs C.list) else 10)

/-! ### The pass that raises -/

section

variable (before : List ι) (c : ι) (cells : ι → Cell)

/-- The peers that `c` dominates among the channels before it, which are at least as expensive. -/
def peers : List ι := before.filter fun e => dominates inputs c e

def hasScoreDominance : Bool := peers inputs before c ≠ [] || scoreSynthetic inputs C c

def hasPriorityDominance : Bool :=
  (peers inputs before c ≠ [] || prioritySynthetic A inputs C c) && 0 < priorityMargin A inputs C

def peerFinalScore : ℚ :=
  let peerFinalScore := (peers inputs before c).foldl (fun m e => max m (cells e).result.finalScore) 0
  if scoreSynthetic inputs C c then max peerFinalScore (syntheticFinalScore inputs C c) else peerFinalScore

def peerPriority : Int :=
  let peerPriority := (peers inputs before c).foldl (fun m e => max m (cells e).result.computedPriority) 0
  if prioritySynthetic A inputs C c then max peerPriority (syntheticPriority A inputs C c) else peerPriority

def targetFinalScore : ℚ :=
  if hasScoreDominance inputs C before c then
    min 100 (max ((cells c).result.finalScore + scoreMargin inputs C)
      (peerFinalScore inputs C before c cells + scoreMargin inputs C))
  else (cells c).result.finalScore

def targetPriority : Int :=
  max
    (max (addAutoPriorityDominanceMargin (cells c).result.computedPriority (priorityMargin A inputs C) C.maxPriority)
      (addAutoPriorityDominanceMargin (peerPriority A inputs C before c cells) (priorityMargin A inputs C)
        C.maxPriority))
    (clampAutoPriorityPriority (A.round (inputs c).channelID (targetFinalScore inputs C before c cells)) 0
      C.maxPriority)

def raise : Cell :=
  if gate inputs c ≠ 1 ∨
      (hasScoreDominance inputs C before c = false ∧ hasPriorityDominance A inputs C before c = false) then cells c
  else if hasPriorityDominance A inputs C before c then
    { result :=
        (cells c).result.withPriority (targetFinalScore inputs C before c cells)
          (targetPriority A inputs C before c cells)
      isProtected := true }
  else
    { result := { (cells c).result with finalScore := targetFinalScore inputs C before c cells }
      isProtected := false }

end

/-! ### The pass that lowers -/

section

variable (before : List ι) (e : ι) (cells : ι → Cell)

/-- The channels that dominate `e` among those before it, which are at most as expensive. -/
def cheaps : List ι := before.filter fun c => dominates inputs c e

def maxAllowedFinalScore : ℚ :=
  (cheaps inputs before e).foldl (fun m c => min m ((cells c).result.finalScore - scoreMargin inputs C))
    (cells e).result.finalScore

def maxAllowedPriority : Int :=
  if 0 < priorityMargin A inputs C then
    (cheaps inputs before e).foldl
      (fun m c => min m ((cells c).result.computedPriority - priorityMargin A inputs C))
      (cells e).result.computedPriority
  else (cells e).result.computedPriority

def minAllowedFinalScore : ℚ :=
  if scoreSynthetic inputs C e then syntheticFinalScore inputs C e + scoreMargin inputs C else 0

def minAllowedPriority : Int :=
  if prioritySynthetic A inputs C e ∧ 0 < priorityMargin A inputs C then
    addAutoPriorityDominanceMargin (syntheticPriority A inputs C e) (priorityMargin A inputs C) C.maxPriority
  else 0

/-- A channel in the pass that lowers; the cheapest channel is not visited. -/
def lower : Cell :=
  if before = [] ∨ (inputs e).hardUnavailable then cells e
  else
    { result :=
        (cells e).result.withPriority
          (max (minAllowedFinalScore inputs C e) (max 0 (maxAllowedFinalScore inputs C before e cells)))
          (clampAutoPriorityPriority
            (max (minAllowedPriority A inputs C e) (maxAllowedPriority A inputs C before e cells)) 0 C.maxPriority)
      isProtected := (cells e).isProtected }

end

/-! ### The cohorts -/

def dominateCohort (cells : ι → Cell) : ι → Cell :=
  sweep (lower A inputs C) C.list.reverse (sweep (raise A inputs C) C.list cells)

variable (idx : List ι)

def cohortAt (maxPriority : Int) (key : String) : Cohort ι where
  list := ordered inputs (members inputs idx key)
  priceFloor := (priceOf inputs idx key).ordinaryFloor
  maxPriority := maxPriority

def applyAutoPriorityExtremeCostDominance (order : List String) (maxPriority : Int)
    (results : ι → AutoPriorityScoreResult) : ι → Cell :=
  order.foldl (fun cells key => dominateCohort A inputs (cohortAt inputs idx maxPriority key) cells)
    fun i => { result := results i, isProtected := false }

end

end WynthApi.Priority

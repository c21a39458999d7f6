import Mathlib.Algebra.Order.Floor.Ring
import Mathlib.Data.List.Sort
import Mathlib.Data.Rat.Floor
import WynthApi.Lib.GoText

/-!
# The score of a channel (service/channel_auto_priority_score.go)

A score weighs the price within the cohort (the channels of one group and type that have a rate), what caching saves,
the availability, the latency and the throughput.

Numbers are exact.  The two logarithmic curves are over any function `log1p`, and a score is turned into a priority by
any function `round`, which may depend on the channel: `Arith.exact` rounds as the source does.  Slices are functions
of an index.
-/

namespace WynthApi.Priority

/-! ### Inputs and results -/

structure AutoPriorityScoreInput where
  channelID : Int
  localGroup : String
  (channelType currentPriority : Int)
  (effectiveRateMultiplier cacheAdjustedCostFactor previousCacheAdjustedCostFactor : ℚ)
  previousEffectiveCostMultiplier : ℚ
  availability : Option ℚ
  (firstTokenLatencyMS throughputTps : ℚ)
  (usageLogCount monitorCheckCount firstTokenSampleCount throughputSampleCount : Int)
  (hasPreviousSnapshot hardUnavailable : Bool)
  (cohortCostFloor cohortCostCeil : ℚ)
  deriving DecidableEq

inductive Reason where
  | applied
  | missingEffectiveRateMultiplier
  | channelAutoDisabled
  | hysteresisDeltaBelowThreshold
  deriving DecidableEq

inductive PriceFloorSource where
  | unset
  | cohortFloor
  | ordinaryBand
  deriving DecidableEq

inductive CacheFactorSource where
  | default95
  | ownBlend
  | own
  deriving DecidableEq

structure AutoPriorityScoreResult where
  channelID : Int
  cohort : String
  (cohortFloor cohortCeil : ℚ)
  cohortMemberCount : Nat
  ordinaryPriceFloor : ℚ
  effectivePriceFloorSource : PriceFloorSource
  (effectiveRateMultiplier nominalRateMultiplier cacheAdjustedCostFactor effectiveCostMultiplier : ℚ)
  (effectivePriceScore nominalPriceScore cacheScore availabilityScore firstTokenScore : ℚ)
  (throughputScore finalScore : ℚ)
  (oldPriority computedPriority newPriority : Int)
  applied : Bool
  reason : Reason
  (usageLogCount monitorCheckCount firstTokenSampleCount throughputSampleCount : Int)
  cacheFactorSource : CacheFactorSource
  (cacheFactorPrior cacheFactorOwnConfidence : ℚ)
  deriving DecidableEq

/-- `math.Round`: halves go away from zero. -/
def roundHalfAway (x : ℚ) : Int := if 0 ≤ x then ⌊x + 1 / 2⌋ else ⌈x - 1 / 2⌉

structure Arith where
  log1p : ℚ → ℚ
  /-- `int64(math.Round(score * 10))` for the channel with the given id. -/
  round : Int → ℚ → Int

def Arith.exact (log1p : ℚ → ℚ) : Arith where
  log1p := log1p
  round := fun _ score => roundHalfAway (score * 10)

/-! ### Components -/

def isValidAutoPriorityMultiplier (v : ℚ) : Bool := 0 < v

def maxFloat64 : ℚ := (2 ^ 53 - 1) * 2 ^ 971

def boundedAutoPriorityMultiplierProduct (left right : ℚ) : ℚ :=
  if isValidAutoPriorityMultiplier left = false ∨ isValidAutoPriorityMultiplier right = false then left * right
  else if maxFloat64 / right ≤ left then maxFloat64
  else left * right

def autoPriorityMinCacheCostFactor : ℚ := 35 / 100

def autoPriorityDefaultCacheScore : ℚ := 95

def autoPriorityDefaultCacheFactor : ℚ :=
  1 - (autoPriorityDefaultCacheScore / 100) * (1 - autoPriorityMinCacheCostFactor)

def normalizedAutoPriorityCacheFactor (v : ℚ) : ℚ := if v ≤ 0 then 1 else v

def autoPriorityCacheScore (cacheFactor : ℚ) : ℚ :=
  let cacheFactor := normalizedAutoPriorityCacheFactor cacheFactor
  if cacheFactor = autoPriorityDefaultCacheFactor then autoPriorityDefaultCacheScore
  else if 1 ≤ cacheFactor then 0
  else if cacheFactor ≤ autoPriorityMinCacheCostFactor then 100
  else 100 * (1 - cacheFactor) / (1 - autoPriorityMinCacheCostFactor)

structure CacheFactor where
  (factor prior ownConfidence : ℚ)
  source : CacheFactorSource

def autoPriorityFullCacheSampleCount : Int := 20

def autoPriorityGuardedCacheFactor (v : ℚ) (usageLogCount : Int) : CacheFactor :=
  let cacheFactor := normalizedAutoPriorityCacheFactor v
  let cacheFactor :=
    if cacheFactor < autoPriorityMinCacheCostFactor then autoPriorityMinCacheCostFactor else cacheFactor
  if usageLogCount ≤ 0 then ⟨autoPriorityDefaultCacheFactor, autoPriorityDefaultCacheFactor, 0, .default95⟩
  else if usageLogCount < autoPriorityFullCacheSampleCount then
    let confidence := (usageLogCount : ℚ) / autoPriorityFullCacheSampleCount
    ⟨autoPriorityDefaultCacheFactor + (cacheFactor - autoPriorityDefaultCacheFactor) * confidence,
      autoPriorityDefaultCacheFactor, confidence, .ownBlend⟩
  else ⟨cacheFactor, autoPriorityDefaultCacheFactor, 1, .own⟩

def cutScore (score : ℚ) : ℚ := if score < 0 then 0 else if 100 < score then 100 else score

def autoPriorityAvailabilityScore : Option ℚ → ℚ
  | none => 70
  | some avail => cutScore (avail * 100)

def autoPriorityAvailabilityGateKnee : ℚ := 1 / 2

def autoPriorityAvailabilityGate (avail : Option ℚ) (monitorCheckCount : Int) : ℚ :=
  match avail with
  | none => 1
  | some avail =>
    if monitorCheckCount < 3 then 1
    else if autoPriorityAvailabilityGateKnee ≤ avail then 1
    else if avail ≤ 0 then 0
    else avail / autoPriorityAvailabilityGateKnee

def hasSampledFirstTokenLatency (sampleCount : Int) (latencyMS : ℚ) : Bool := 0 < sampleCount ∧ 0 ≤ latencyMS

def hasSampledThroughput (sampleCount : Int) (tps : ℚ) : Bool := 0 < sampleCount ∧ 0 < tps

section

variable (A : Arith)

def absoluteAutoPriorityAscendingScore (value slowAnchor fastAnchor : ℚ) : ℚ :=
  if fastAnchor ≤ slowAnchor then 100
  else if value ≤ slowAnchor then 0
  else if fastAnchor ≤ value then 100
  else
    let logDenominator := A.log1p (fastAnchor - slowAnchor)
    if logDenominator ≤ 0 then 100
    else cutScore (100 * (A.log1p (value - slowAnchor) / logDenominator))

def nearlyEqual (a b : ℚ) : Bool := |a - b| ≤ 1 / 10 ^ 12

def normalizedAutoPriorityDescendingScore (value minValue maxValue : ℚ) : ℚ :=
  if maxValue ≤ minValue ∨ nearlyEqual minValue maxValue then 100
  else
    let value := min (max value minValue) maxValue
    let logDenominator := A.log1p (maxValue - minValue)
    if logDenominator ≤ 0 then 100
    else cutScore (100 * (1 - max 0 (A.log1p (value - minValue)) / logDenominator))

def weightedAutoPriorityFinalScore (gate price cache availability firstToken throughput : ℚ) : ℚ :=
  gate * (75 / 100 * price + 10 / 100 * cache + 8 / 100 * availability + 3 / 100 * firstToken +
    4 / 100 * throughput)

def clampAutoPriorityPriority (value minValue maxValue : Int) : Int :=
  if value < minValue then minValue else if maxValue < value then maxValue else value

theorem clamp_mem {value maxValue : Int} (h : 0 ≤ maxValue) :
    0 ≤ clampAutoPriorityPriority value 0 maxValue ∧ clampAutoPriorityPriority value 0 maxValue ≤ maxValue := by
  rw [clampAutoPriorityPriority]
  split_ifs <;> omega

/-! ### Cohorts -/

def autoPriorityCohortKey (localGroup : String) (channelType : Int) : String :=
  GoText.trimSpace localGroup ++ "#" ++ GoText.itoa channelType

def autoPriorityNeutralPerfScore : ℚ := 70

def effectiveCost (input : AutoPriorityScoreInput) (cacheFactor : ℚ) : ℚ :=
  let cost := boundedAutoPriorityMultiplierProduct input.effectiveRateMultiplier cacheFactor
  if input.hasPreviousSnapshot = false then cost
  else if isValidAutoPriorityMultiplier input.previousCacheAdjustedCostFactor then
    boundedAutoPriorityMultiplierProduct input.effectiveRateMultiplier
      (65 / 100 * cacheFactor + 35 / 100 * input.previousCacheAdjustedCostFactor)
  else if isValidAutoPriorityMultiplier input.previousEffectiveCostMultiplier then
    65 / 100 * cost + 35 / 100 * input.previousEffectiveCostMultiplier
  else cost

def initialResult (input : AutoPriorityScoreInput) : AutoPriorityScoreResult :=
  let cache := autoPriorityGuardedCacheFactor input.cacheAdjustedCostFactor input.usageLogCount
  let result : AutoPriorityScoreResult :=
    { channelID := input.channelID
      cohort := autoPriorityCohortKey input.localGroup input.channelType
      cohortFloor := 0, cohortCeil := 0, cohortMemberCount := 0
      ordinaryPriceFloor := 0, effectivePriceFloorSource := .unset
      effectiveRateMultiplier := input.effectiveRateMultiplier
      nominalRateMultiplier := input.effectiveRateMultiplier
      cacheAdjustedCostFactor := cache.factor
      effectiveCostMultiplier := 0, effectivePriceScore := 0, nominalPriceScore := 0
      cacheScore := autoPriorityCacheScore cache.factor
      availabilityScore := autoPriorityAvailabilityScore input.availability
      firstTokenScore := autoPriorityNeutralPerfScore
      throughputScore := autoPriorityNeutralPerfScore
      finalScore := 0
      oldPriority := input.currentPriority
      computedPriority := 0, newPriority := 0
      applied := false, reason := .applied
      usageLogCount := input.usageLogCount
      monitorCheckCount := input.monitorCheckCount
      firstTokenSampleCount := input.firstTokenSampleCount
      throughputSampleCount := input.throughputSampleCount
      cacheFactorSource := cache.source
      cacheFactorPrior := cache.prior
      cacheFactorOwnConfidence := cache.ownConfidence }
  if isValidAutoPriorityMultiplier input.effectiveRateMultiplier = false then
    { result with
      reason := .missingEffectiveRateMultiplier
      computedPriority := input.currentPriority
      newPriority := input.currentPriority }
  else
    { result with
      effectiveCostMultiplier := effectiveCost input cache.factor
      firstTokenScore :=
        if hasSampledFirstTokenLatency input.firstTokenSampleCount input.firstTokenLatencyMS then
          normalizedAutoPriorityDescendingScore A input.firstTokenLatencyMS 5000 60000
        else autoPriorityNeutralPerfScore
      throughputScore :=
        if hasSampledThroughput input.throughputSampleCount input.throughputTps then
          absoluteAutoPriorityAscendingScore A input.throughputTps 1 20
        else autoPriorityNeutralPerfScore }

def hasAutoPriorityExtremeNominalRateAdvantage (cheapRate expensiveRate : ℚ) : Bool :=
  if isValidAutoPriorityMultiplier cheapRate = false ∨ isValidAutoPriorityMultiplier expensiveRate = false then
    false
  else 8 ≤ expensiveRate / cheapRate

/-- The loop of `autoPriorityOrdinaryPriceFloor` from position `idx` of the `count` sorted rates on. -/
def ordinaryFloorFrom (count : Nat) : Nat → List ℚ → ℚ → ℚ
  | idx, low :: high :: rates, floor =>
    if count - (idx + 1) ≤ idx + 1 then floor
    else
      ordinaryFloorFrom count (idx + 1) (high :: rates)
        (if hasAutoPriorityExtremeNominalRateAdvantage low high then high else floor)
  | _, _, floor => floor

def autoPriorityOrdinaryPriceFloor (sortedNominalRates : List ℚ) : ℚ :=
  match sortedNominalRates with
  | [] => 0
  | rate :: _ => ordinaryFloorFrom sortedNominalRates.length 0 sortedNominalRates rate

def relativeAutoPriorityPriceScore (cost cohortFloor : ℚ) : ℚ :=
  if isValidAutoPriorityMultiplier cost = false ∨ isValidAutoPriorityMultiplier cohortFloor = false then 0
  else if cost ≤ cohortFloor then 100
  else cutScore (cohortFloor * 100 / cost)

structure CohortPrice where
  (floor ceil : ℚ)
  memberCount : Nat
  ordinaryFloor : ℚ
  source : PriceFloorSource
  deriving DecidableEq

section

variable {ι : Type} (inputs : ι → AutoPriorityScoreInput) (i : ι)

def rate : ℚ := (inputs i).effectiveRateMultiplier

def cohortOf : String := autoPriorityCohortKey (inputs i).localGroup (inputs i).channelType

variable (idx : List ι) (key : String)

def members : List ι :=
  idx.filter fun i => isValidAutoPriorityMultiplier (rate inputs i) ∧ cohortOf inputs i = key

theorem mem_members {inputs : ι → AutoPriorityScoreInput} {idx : List ι} {key : String} {i : ι} :
    i ∈ members inputs idx key ↔
      i ∈ idx ∧ isValidAutoPriorityMultiplier (rate inputs i) = true ∧ cohortOf inputs i = key := by
  simp [members]

variable (first : ℚ) (rates : List ℚ)

def lowest : ℚ := rates.foldl min first

def highest : ℚ := rates.foldl max first

/-- The bounds of a cohort and its ordinary floor; `first` is the rate of its first member. -/
def cohortPrice (indexes : List ι) : CohortPrice :=
  let rates := indexes.map (rate inputs)
  let observedMin := lowest first rates
  let observedMax := highest first rates
  let floors := (indexes.map fun i => (inputs i).cohortCostFloor).filter isValidAutoPriorityMultiplier
  let ceils := (indexes.map fun i => (inputs i).cohortCostCeil).filter isValidAutoPriorityMultiplier
  let minRate := lowest observedMin floors
  let maxRate := highest observedMax ceils
  let nominalRates := rates ++ (if minRate < observedMin then [minRate] else []) ++
    (if observedMax < maxRate then [maxRate] else [])
  let ordinary := autoPriorityOrdinaryPriceFloor (nominalRates.insertionSort (· ≤ ·))
  { floor := minRate, ceil := maxRate, memberCount := indexes.length, ordinaryFloor := ordinary
    source := if minRate < ordinary then .ordinaryBand else .cohortFloor }

def priceOf : CohortPrice :=
  match members inputs idx key with
  | [] => { floor := 0, ceil := 0, memberCount := 0, ordinaryFloor := 0, source := .unset }
  | i :: indexes => cohortPrice inputs (rate inputs i) (i :: indexes)

def withPrice (price : CohortPrice) (result : AutoPriorityScoreResult) : AutoPriorityScoreResult :=
  let priceScore := relativeAutoPriorityPriceScore result.nominalRateMultiplier price.ordinaryFloor
  { result with
    effectivePriceScore := priceScore
    nominalPriceScore := priceScore
    cohortFloor := price.floor
    cohortCeil := price.ceil
    cohortMemberCount := price.memberCount
    ordinaryPriceFloor := price.ordinaryFloor
    effectivePriceFloorSource := price.source }

def pricePass [DecidableEq ι] (idx : List ι) (order : List String) (results : ι → AutoPriorityScoreResult) :
    ι → AutoPriorityScoreResult :=
  order.foldl (fun results key => fun i =>
    if i ∈ members inputs idx key then withPrice (priceOf inputs idx key) (results i) else results i) results

def gate : ℚ :=
  if isValidAutoPriorityMultiplier (rate inputs i) = false then 0
  else if (inputs i).hardUnavailable then 0
  else autoPriorityAvailabilityGate (inputs i).availability (inputs i).monitorCheckCount

def withScore (maxPriority : Int) (i : ι) (result : AutoPriorityScoreResult) : AutoPriorityScoreResult :=
  if result.reason ≠ .applied then result
  else if (inputs i).hardUnavailable then
    { result with
      availabilityScore := 0, finalScore := 0, computedPriority := 0
      newPriority := result.oldPriority, applied := false, reason := .channelAutoDisabled }
  else
    let finalScore := weightedAutoPriorityFinalScore (gate inputs i) result.nominalPriceScore result.cacheScore
      result.availabilityScore result.firstTokenScore result.throughputScore
    let computedPriority :=
      clampAutoPriorityPriority (A.round (inputs i).channelID finalScore) 0 maxPriority
    { result with
      finalScore, computedPriority, newPriority := computedPriority }

def scored [DecidableEq ι] (idx : List ι) (order : List String) (maxPriority : Int) (i : ι) :
    AutoPriorityScoreResult :=
  withScore A inputs maxPriority i
    (pricePass inputs idx order (fun i => initialResult A (inputs i)) i)

end

end

end WynthApi.Priority

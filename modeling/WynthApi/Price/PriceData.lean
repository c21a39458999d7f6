import Mathlib.Data.List.AList
import Mathlib.Algebra.Order.BigOperators.GroupWithZero.List
import WynthApi.Lib.Truncate

/-!
# Quota conversion and other-ratios (common/quota_math.go, types/price_data.go)

Prices and ratios are rational numbers and all products are exact; the `NaN` and infinity checks of
the source have no counterpart.  A Go map of ratios is an `AList`; its iteration order does not
matter for what is modelled here.
-/

namespace WynthApi.Price

open Truncate List

/-! ### Quota conversion -/

/-- `MaxQuota`, `MinQuota`: the range of a 32-bit column. -/
def maxQuota : Int := 2147483647

def minQuota : Int := -2147483648

inductive QuotaClampKind where
  | overflow
  | underflow
  deriving DecidableEq

structure QuotaClamp where
  op : String
  kind : QuotaClampKind
  original : ℚ
  clamped : Int
  deriving DecidableEq

variable (value : ℚ)

def saturateQuota (op : String) : Int × Option QuotaClamp :=
  if maxQuota ≤ value then (maxQuota, some ⟨op, .overflow, value, maxQuota⟩)
  else if value ≤ minQuota then (minQuota, some ⟨op, .underflow, value, minQuota⟩)
  else (truncate value, none)

def quotaFromFloatChecked : Int × Option QuotaClamp := saturateQuota value "QuotaFromFloat"

def quotaFromFloat : Int := (quotaFromFloatChecked value).1

def quotaFromFloatStrict : Except QuotaClamp Int :=
  match quotaFromFloatChecked value with
  | (_, some clamp) => .error clamp
  | (quota, none) => .ok quota

def InRange (quota : Int) : Prop := minQuota < quota ∧ quota < maxQuota

variable {quota : Int}

theorem quotaFromFloatChecked_intCast (h : InRange quota) : quotaFromFloatChecked quota = (quota, none) := by
  have h1 : ¬ (maxQuota : ℚ) ≤ quota := by
    rw [not_le]
    exact_mod_cast h.2
  have h2 : ¬ (quota : ℚ) ≤ minQuota := by
    rw [not_le]
    exact_mod_cast h.1
  simp only [quotaFromFloatChecked, saturateQuota, if_neg h1, if_neg h2, truncate_intCast]

theorem inRange_of_strict {value : ℚ} (h : quotaFromFloatStrict value = .ok quota) : InRange quota := by
  unfold quotaFromFloatStrict quotaFromFloatChecked saturateQuota at h
  by_cases h1 : (maxQuota : ℚ) ≤ value
  · simp [if_pos h1] at h
  by_cases h2 : value ≤ minQuota
  · simp [if_neg h1, if_pos h2] at h
  simp only [if_neg h1, if_neg h2, Except.ok.injEq] at h
  subst h
  exact truncate_mem (not_le.mp h2) (not_le.mp h1) (by decide) (by decide)

/-- **Scaled quota**: a positive factor leaves a quota in range unchanged exactly if it adds less than
one to its size; saturation never hits the quota by accident. -/
theorem quotaFromFloat_mul_eq_iff (hrange : InRange quota) {P : ℚ} (hP : 0 < P) :
    quotaFromFloat (quota * P) = quota ↔ 0 ≤ |(quota : ℚ)| * (P - 1) ∧ |(quota : ℚ)| * (P - 1) < 1 := by
  rw [← truncate_mul_eq_iff quota hP]
  obtain ⟨hlo, hhi⟩ := hrange
  have hlo' : (minQuota : ℚ) + 1 ≤ quota := by exact_mod_cast hlo
  have hhi' : (quota : ℚ) ≤ maxQuota - 1 := by exact_mod_cast Int.le_sub_one_of_lt hhi
  unfold quotaFromFloat quotaFromFloatChecked saturateQuota
  by_cases h1 : (maxQuota : ℚ) ≤ quota * P
  · rw [if_pos h1]
    refine ⟨fun h => absurd h (by dsimp only; omega), fun h => ?_⟩
    -- the floor of a value beyond the range is beyond the range
    have hpos : (0 : ℚ) ≤ quota * P := le_trans (by norm_num [maxQuota]) h1
    rw [truncate, if_pos hpos, Int.floor_eq_iff] at h
    exact absurd h1 (not_le.mpr (by linarith [h.2]))
  rw [if_neg h1]
  by_cases h2 : (quota : ℚ) * P ≤ minQuota
  · rw [if_pos h2]
    refine ⟨fun h => absurd h (by dsimp only; omega), fun h => ?_⟩
    have hneg : ¬ (0 : ℚ) ≤ quota * P := not_le.mpr (h2.trans_lt (by norm_num [minQuota]))
    rw [truncate, if_neg hneg, Int.ceil_eq_iff] at h
    exact absurd h2 (not_le.mpr (by linarith [h.1]))
  rw [if_neg h2]

/-! ### Other-ratios -/

abbrev Ratios := AList fun _ : String => ℚ

structure GroupRatioInfo where
  (groupRatio groupSpecialRatio : ℚ)
  hasSpecialRatio : Bool
  deriving DecidableEq

structure PriceData where
  freeModel : Bool
  (modelPrice modelRatio : ℚ)
  otherRatios : Ratios
  usePrice : Bool
  quota : Int
  groupRatioInfo : GroupRatioInfo

variable (ratio : ℚ)

def isValidOtherRatio : Bool := decide (0 < ratio)

def factorOf : ℚ := if isValidOtherRatio ratio && decide (ratio ≠ 1) then ratio else 1

variable (ratios : Ratios)

def multiplierOf : ℚ := (ratios.entries.map fun e => factorOf e.2).prod

namespace PriceData

variable (p : PriceData)

def addOtherRatio (key : String) (ratio : ℚ) : PriceData :=
  if isValidOtherRatio ratio then { p with otherRatios := p.otherRatios.insert key ratio } else p

def addOtherRatios (ratios : Ratios) : PriceData :=
  ratios.entries.foldl (fun p e => p.addOtherRatio e.1 e.2) p

def replaceOtherRatios (ratios : Ratios) : PriceData × Bool :=
  let p := { p with otherRatios := ∅ }.addOtherRatios ratios
  (p, !p.otherRatios.entries.isEmpty)

def otherRatioMultiplier : ℚ := multiplierOf p.otherRatios

def applyOtherRatiosToFloat (value : ℚ) : ℚ :=
  if value = 0 then value else value * p.otherRatioMultiplier

def removeOtherRatiosFromFloat (value : ℚ) : ℚ :=
  if value = 0 then value else value / p.otherRatioMultiplier

end PriceData

theorem factorOf_pos : 0 < factorOf ratio := by
  unfold factorOf isValidOtherRatio
  split_ifs with h
  · simp only [Bool.and_eq_true, decide_eq_true_eq] at h
    exact h.1
  · exact zero_lt_one

theorem factorOf_valid {ratio : ℚ} (h : isValidOtherRatio ratio = true) : factorOf ratio = ratio := by
  unfold factorOf
  by_cases h1 : ratio = 1
  · simp [h1]
  · simp [h, h1]

theorem factorOf_invalid {ratio : ℚ} (h : isValidOtherRatio ratio = false) : factorOf ratio = 1 := by
  simp [factorOf, h]

theorem multiplierOf_pos : 0 < multiplierOf ratios :=
  prod_pos fun x hx => by
    obtain ⟨e, -, rfl⟩ := mem_map.mp hx
    exact factorOf_pos e.2

theorem applyOtherRatiosToFloat_eq (p : PriceData) (value : ℚ) :
    p.applyOtherRatiosToFloat value = value * p.otherRatioMultiplier := by
  unfold PriceData.applyOtherRatiosToFloat
  split_ifs with h
  · rw [h, zero_mul]
  · rfl

def validProduct : ℚ :=
  ((ratios.entries.map Sigma.snd).filter isValidOtherRatio).prod

theorem multiplierOf_eq_validProduct : multiplierOf ratios = validProduct ratios := by
  unfold multiplierOf validProduct
  induction ratios.entries with
  | nil => rfl
  | cons e l ih =>
    simp only [map_cons, prod_cons, filter_cons, ih]
    cases hv : isValidOtherRatio e.2 with
    | true => simp [factorOf_valid hv]
    | false => simp [factorOf_invalid hv]

namespace PriceData

@[simp] theorem addOtherRatio_quota (p : PriceData) (key : String) (ratio : ℚ) :
    (p.addOtherRatio key ratio).quota = p.quota := by
  unfold addOtherRatio
  split_ifs <;> rfl

variable {p : PriceData} {key : String}

theorem addOtherRatio_multiplier (hkey : key ∉ p.otherRatios)
    (ratio : ℚ) : (p.addOtherRatio key ratio).otherRatioMultiplier = p.otherRatioMultiplier * factorOf ratio := by
  unfold addOtherRatio
  cases hv : isValidOtherRatio ratio with
  | true =>
    simp only [if_true, otherRatioMultiplier, multiplierOf, AList.entries_insert_of_notMem hkey,
      map_cons, prod_cons, mul_comm]
  | false => simp [factorOf_invalid hv]

theorem mem_addOtherRatio {k : String} {ratio : ℚ}
    (h : k ∈ (p.addOtherRatio key ratio).otherRatios) : k = key ∨ k ∈ p.otherRatios := by
  unfold addOtherRatio at h
  split_ifs at h
  · exact (AList.mem_insert _).mp h
  · exact .inr h

/-- **Merged ratios**: added to a price that has none of their names, a map of ratios multiplies by
the product of its valid ones. -/
theorem addOtherRatios_spec {ratios : Ratios} (hdisj : ∀ key ∈ ratios, key ∉ p.otherRatios) :
    (p.addOtherRatios ratios).otherRatioMultiplier = p.otherRatioMultiplier * validProduct ratios ∧
      (p.addOtherRatios ratios).quota = p.quota := by
  rw [← multiplierOf_eq_validProduct]
  obtain ⟨entries, hnodup⟩ := ratios
  have hdisj' : ∀ key ∈ entries.keys, key ∉ p.otherRatios := hdisj
  unfold addOtherRatios multiplierOf
  dsimp only
  clear hdisj
  -- every name comes once, so it is new when its turn comes
  induction entries generalizing p with
  | nil => simp
  | cons e l ih =>
    obtain ⟨key, ratio⟩ := e
    rw [nodupKeys_cons] at hnodup
    have hkey : key ∉ p.otherRatios := hdisj' key (by simp)
    have hrest : ∀ k ∈ l.keys, k ∉ (p.addOtherRatio key ratio).otherRatios := by
      intro k hk hmem
      rcases mem_addOtherRatio hmem with rfl | hmem
      · exact hnodup.1 hk
      · exact hdisj' k (by simp [hk]) hmem
    obtain ⟨hmul, hquota⟩ := ih hnodup.2 hrest
    simp only [foldl_cons, map_cons, prod_cons]
    exact ⟨by rw [hmul, addOtherRatio_multiplier hkey, mul_assoc], by rw [hquota, addOtherRatio_quota]⟩

end PriceData

end WynthApi.Price

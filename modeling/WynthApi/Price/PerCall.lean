import WynthApi.Lib.GoText
import WynthApi.Price.PriceData

/-!
# The base price of a task (setting/ratio_setting, relay/helper/price.go)

`ModelPriceHelperPerCall` builds a new `PriceData` from the settings: a fixed price if the model has one, else half
its ratio, times the group ratio.  Its quota is inside the range, and the new price carries no other-ratios
(`modelPriceHelperPerCall_spec`).
-/

namespace WynthApi.Price

/-! ### Settings -/

structure RatioSetting where
  groupRatio : Ratios
  groupGroupRatio : AList fun _ : String => Ratios
  (modelPrice defaultModelPrice modelRatio : Ratios)
  (selfUseModeEnabled enableFreeModelPreConsume : Bool)
  quotaPerUnit : ℚ

variable (cfg : RatioSetting) (name : String)

def getGroupRatio : ℚ := (cfg.groupRatio.lookup name).getD 1

def getGroupGroupRatio (userGroup usingGroup : String) : Option ℚ :=
  (cfg.groupGroupRatio.lookup userGroup).bind fun gp => gp.lookup usingGroup

def handleThinkingBudgetModel (name start wildcard : String) : String :=
  if GoText.startsWith name start && GoText.contains name "-thinking-" then wildcard else name

def formatMatchingModelName : String :=
  let name :=
    if GoText.startsWith name "gemini-2.5-flash-lite" then
      handleThinkingBudgetModel name "gemini-2.5-flash-lite" "gemini-2.5-flash-lite-thinking-*"
    else if GoText.startsWith name "gemini-2.5-flash" then
      handleThinkingBudgetModel name "gemini-2.5-flash" "gemini-2.5-flash-thinking-*"
    else if GoText.startsWith name "gemini-2.5-pro" then
      handleThinkingBudgetModel name "gemini-2.5-pro" "gemini-2.5-pro-thinking-*"
    else name
  let name := if GoText.startsWith name "gpt-4-gizmo" then "gpt-4-gizmo-*" else name
  if GoText.startsWith name "gpt-4o-gizmo" then "gpt-4o-gizmo-*" else name

def compactModelSuffix : String := "-openai-compact"

def compactWildcardModelKey : String := "*-openai-compact"

/-- The entry of a model table: the model's own, else for a compact model the wildcard's. -/
def matchModel (table : Ratios) (name : String) : Option ℚ :=
  match table.lookup name with
  | some value => some value
  | none =>
    if GoText.endsWith name compactModelSuffix then table.lookup compactWildcardModelKey else none

def getModelPrice : Option ℚ :=
  matchModel cfg.modelPrice (formatMatchingModelName name)

/-- `GetModelRatio`: the ratio, whether it counts as set, and the name it was looked up under. -/
def getModelRatio : ℚ × Bool × String :=
  let name := formatMatchingModelName name
  match matchModel cfg.modelRatio name with
  | some ratio => (ratio, true, name)
  | none => (75 / 2, cfg.selfUseModeEnabled, name)

/-! ### Price helpers -/

variable (autoGroup : Option String) (userGroup usingGroup : String)

/-- `HandleGroupRatio`: the ratio, and the group in use after the automatic choice of a group. -/
def handleGroupRatio : GroupRatioInfo × String :=
  let usingGroup := autoGroup.getD usingGroup
  match getGroupGroupRatio cfg userGroup usingGroup with
  | some ratio => (⟨ratio, ratio, true⟩, usingGroup)
  | none => (⟨getGroupRatio cfg usingGroup, -1, false⟩, usingGroup)

inductive PriceError where
  | notConfigured (matchName : String)
  | clamp (clamp : QuotaClamp)
  deriving DecidableEq

/-- The price or ratio of a model: `(modelPrice, modelRatio, usePrice)`. -/
def modelPricing (modelName : String) (acceptUnsetRatioModel : Bool) : Except PriceError (ℚ × ℚ × Bool) :=
  match getModelPrice cfg modelName with
  | some modelPrice => .ok (modelPrice, 0, true)
  | none => match cfg.defaultModelPrice.lookup modelName with
    | some defaultPrice => .ok (defaultPrice, 0, true)
    | none => match getModelRatio cfg modelName with
      | (modelRatio, ratioSuccess, matchName) =>
        if ratioSuccess = false ∧ acceptUnsetRatioModel = false then .error (.notConfigured matchName)
        else .ok (-1, modelRatio, false)

/-- The quota of one call and whether it is free: `amount` is the price or half the ratio, `setting` the
price or ratio itself. -/
def perCallQuota (groupRatio amount setting : ℚ) : Except PriceError (Int × Bool) :=
  let freeModel := !cfg.enableFreeModelPreConsume && decide (groupRatio = 0)
  let quota :=
    if freeModel then .ok 0 else quotaFromFloatStrict (amount * cfg.quotaPerUnit * groupRatio)
  match quota with
  | .error clamp => .error (.clamp clamp)
  | .ok quota =>
    if cfg.enableFreeModelPreConsume = false ∧ (groupRatio = 0 ∨ setting = 0) then .ok (0, true)
    else .ok (quota, freeModel)

/-- `ModelPriceHelperPerCall`, with the group in use that `HandleGroupRatio` leaves. -/
def modelPriceHelperPerCall (userGroup usingGroup modelName : String) (acceptUnsetRatioModel : Bool) :
    Except PriceError PriceData × String :=
  let (groupRatioInfo, usingGroup) := handleGroupRatio cfg autoGroup userGroup usingGroup
  match modelPricing cfg modelName acceptUnsetRatioModel with
  | .error e => (.error e, usingGroup)
  | .ok (modelPrice, modelRatio, usePrice) =>
    let quota :=
      if usePrice then perCallQuota cfg groupRatioInfo.groupRatio modelPrice modelPrice
      else perCallQuota cfg groupRatioInfo.groupRatio (modelRatio / 2) modelRatio
    match quota with
    | .error e => (.error e, usingGroup)
    | .ok (quota, freeModel) =>
      (.ok ⟨freeModel, modelPrice, modelRatio, ∅, usePrice, quota, groupRatioInfo⟩, usingGroup)

/-! ### What the helpers return -/

theorem handleGroupRatio_group :
    (handleGroupRatio cfg autoGroup userGroup usingGroup).2 = autoGroup.getD usingGroup := by
  unfold handleGroupRatio
  dsimp only
  split <;> rfl

theorem handleGroupRatio_groupRatio : (handleGroupRatio cfg autoGroup userGroup usingGroup).1.groupRatio =
      (getGroupGroupRatio cfg userGroup (autoGroup.getD usingGroup)).getD
        (getGroupRatio cfg (autoGroup.getD usingGroup)) := by
  unfold handleGroupRatio
  dsimp only
  split
  case h_1 ratio h => rw [h, Option.getD_some]
  case h_2 h => rw [h, Option.getD_none]

theorem perCallQuota_inRange {cfg : RatioSetting} {groupRatio amount setting : ℚ} {quota : Int}
    {freeModel : Bool} (h : perCallQuota cfg groupRatio amount setting = .ok (quota, freeModel)) : InRange quota := by
  have hzero : InRange 0 := ⟨by decide, by decide⟩
  unfold perCallQuota at h
  dsimp only at h
  split at h
  case h_1 => cases h
  case h_2 q hq =>
    split_ifs at h hq
    · cases h
      exact hzero
    · cases h
      exact hzero
    · cases h
      cases hq
      exact hzero
    · cases h
      exact inRange_of_strict hq

variable {modelName : String} {accept : Bool}

/-- **Base price**: the quota is inside the range and the price has no other-ratios. -/
theorem modelPriceHelperPerCall_spec {cfg : RatioSetting} {autoGroup : Option String}
    {userGroup usingGroup group : String} {price : PriceData}
    (h : modelPriceHelperPerCall cfg autoGroup userGroup usingGroup modelName accept =
      (.ok price, group)) : InRange price.quota ∧ price.otherRatios = ∅ := by
  unfold modelPriceHelperPerCall at h
  dsimp only at h
  split at h
  case h_1 => cases h
  case h_2 modelPrice modelRatio usePrice _ =>
    split at h
    case h_1 => cases h
    case h_2 quota freeModel hquota =>
      cases h
      refine ⟨?_, rfl⟩
      split_ifs at hquota <;> exact perCallQuota_inRange hquota

/-- The group in use afterwards is the automatic group if there is one, and the price depends on the
group in use only through it. -/
theorem modelPriceHelperPerCall_group (userGroup usingGroup modelName : String) (accept : Bool) :
    (modelPriceHelperPerCall cfg autoGroup userGroup usingGroup modelName accept).2 = autoGroup.getD usingGroup := by
  rw [← handleGroupRatio_group cfg autoGroup userGroup usingGroup]
  unfold modelPriceHelperPerCall
  dsimp only
  split
  · rfl
  · split <;> rfl

theorem modelPriceHelperPerCall_congr {cfg : RatioSetting} {autoGroup : Option String}
    {userGroup using₁ using₂ : String} (h : autoGroup.getD using₁ = autoGroup.getD using₂) :
    modelPriceHelperPerCall cfg autoGroup userGroup using₁ modelName accept =
      modelPriceHelperPerCall cfg autoGroup userGroup using₂ modelName accept := by
  unfold modelPriceHelperPerCall handleGroupRatio
  rw [h]

end WynthApi.Price

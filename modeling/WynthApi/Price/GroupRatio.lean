import WynthApi.Polling.Charge
import WynthApi.Price.PerCall

/-!
# The group ratio at submission and at settlement

At submission `HandleGroupRatio` (relay/helper/price.go) looks up the special ratio of the user's group and the group
in use.  At completion `RecalculateTaskQuotaByTokens` (service/task_billing.go) has only the group in use, from the
row, and pairs it with itself.  `settlement_ratio_iff` says when the two agree.
-/

namespace WynthApi.Price

open Polling Store Billing Option

/-! ### Settlement by tokens -/

def taskModelName (task : Task) : String :=
  match task.privateData.billingContext with
  | some bc => if bc.originModelName ≠ "" then bc.originModelName else task.properties.originModelName
  | none => task.properties.originModelName

def PriceData.zero : PriceData := ⟨false, 0, 0, ∅, false, 0, ⟨0, 0, false⟩⟩

/-- The multiplier of `taskBillingContextPriceData`, `1` if it is nil. -/
def contextMultiplier : Option TaskBillingContext → ℚ
  | none => 1
  | some bc =>
    if bc.otherRatios.entries.isEmpty then 1
    else match PriceData.zero.replaceOtherRatios bc.otherRatios with
      | (p, true) => p.otherRatioMultiplier
      | (_, false) => 1

/-- The group a settlement is priced for: the row's, else the user's; `userGroup` is `none` if the
user is not found. -/
def settlementGroup (task : Task) (userGroup : Option String) : String :=
  if task.group = "" then userGroup.getD "" else task.group

variable (cfg : RatioSetting) (task : Task) (userGroup : Option String)

/-- The group ratio of a settlement; `none` where there is no group to price for. -/
def settlementGroupRatio : Option ℚ :=
  let group := settlementGroup task userGroup
  if group = "" then none
  else some ((getGroupGroupRatio cfg group group).getD (getGroupRatio cfg group))

/-- `RecalculateTaskQuotaByTokens`: the quota it settles for, `none` where it returns early. -/
def recalculateTaskQuotaByTokens (userGroup : Int → Option String) (task : Task)
    (totalTokens : Int) : Option Int :=
  if totalTokens ≤ 0 then none
  else
    let (modelRatio, hasRatioSetting, _) := getModelRatio cfg (taskModelName task)
    if hasRatioSetting = false ∨ modelRatio ≤ 0 then none
    else (settlementGroupRatio cfg task (userGroup task.userId)).map fun groupRatio =>
      quotaFromFloat (totalTokens * modelRatio * groupRatio *
        contextMultiplier task.privateData.billingContext)

/-! ### When the two ratios agree -/

def RatioKept : Prop :=
  ∀ ratio, settlementGroupRatio cfg task userGroup = some ratio →
    ∃ bc, task.privateData.billingContext = some bc ∧ bc.groupRatio = ratio

/-- The entries of the tables that have to be equal.  `group` is the group of the settlement: the group
in use, or the user's if the group in use has no name. -/
def SettlesAlike (userGroup usingGroup : String) : Prop :=
  let group := if usingGroup = "" then userGroup else usingGroup
  group = "" ∨
    match getGroupGroupRatio cfg userGroup usingGroup, getGroupGroupRatio cfg group group with
    | some submitted, some settled => submitted = settled
    | some submitted, none => submitted = getGroupRatio cfg group
    | none, some settled => getGroupRatio cfg usingGroup = settled
    | none, none => usingGroup = "" → getGroupRatio cfg "" = getGroupRatio cfg userGroup

/-- A row with a billing context keeps its ratio exactly if there is no group to settle for, or the
settlement finds the stored ratio. -/
theorem ratioKept_iff {cfg : RatioSetting} {task : Task} {userGroup : Option String}
    {bc : TaskBillingContext} (hctx : task.privateData.billingContext = some bc) :
    RatioKept cfg task userGroup ↔ settlementGroup task userGroup = "" ∨
      bc.groupRatio = (getGroupGroupRatio cfg (settlementGroup task userGroup)
        (settlementGroup task userGroup)).getD (getGroupRatio cfg (settlementGroup task userGroup)) := by
  unfold RatioKept settlementGroupRatio
  dsimp only
  by_cases hempty : settlementGroup task userGroup = ""
  · simp [hempty]
  · simp [hempty, hctx]

theorem settlesAlike_iff (userGroup usingGroup : String) : SettlesAlike cfg userGroup usingGroup ↔
      (if usingGroup = "" then userGroup else usingGroup) = "" ∨
        (getGroupGroupRatio cfg userGroup usingGroup).getD (getGroupRatio cfg usingGroup) =
          (getGroupGroupRatio cfg (if usingGroup = "" then userGroup else usingGroup)
            (if usingGroup = "" then userGroup else usingGroup)).getD
              (getGroupRatio cfg (if usingGroup = "" then userGroup else usingGroup)) := by
  unfold SettlesAlike
  dsimp only
  refine or_congr_right ?_
  split
  case h_1 hsub hset => rw [hsub, hset, getD_some, getD_some]
  case h_2 hsub hset => rw [hsub, hset, getD_some, getD_none]
  case h_3 hsub hset => rw [hsub, hset, getD_some, getD_none]
  case h_4 hsub hset =>
    rw [hsub, hset, getD_none, getD_none]
    by_cases hempty : usingGroup = "" <;> simp [hempty]

/-- **Settlement ratio**: for every row submitted under a pair of groups, the ratio of a settlement by
tokens is the stored one exactly if the tables hold the same for the submitted pair and for the row's
group with itself. -/
theorem settlement_ratio_iff {cfg : RatioSetting} {autoGroup : Option String}
    {userGroup usingGroup : String} {sub : Submission} {sess : BillingSession} {db db' : DB}
    {result : TaskSubmitResult} {fundingFault tokenFault insertFault : Fault} {row : Task}
    (hgroup : sub.usingGroup = (handleGroupRatio cfg autoGroup userGroup usingGroup).2)
    (hratio : sub.billingContext.groupRatio =
      (handleGroupRatio cfg autoGroup userGroup usingGroup).1.groupRatio)
    (hrow : relayTask sub sess db result fundingFault tokenFault insertFault = (db', some row)) :
    RatioKept cfg row (some userGroup) ↔ SettlesAlike cfg userGroup (autoGroup.getD usingGroup) := by
  obtain ⟨hrowGroup, hctx⟩ := relayTask_context hrow
  rw [handleGroupRatio_group] at hgroup
  rw [handleGroupRatio_groupRatio] at hratio
  have hsettle : settlementGroup row (some userGroup) =
      if autoGroup.getD usingGroup = "" then userGroup else autoGroup.getD usingGroup := by
    unfold settlementGroup
    rw [hrowGroup, hgroup, Option.getD_some]
  rw [ratioKept_iff hctx, settlesAlike_iff, hsettle, hratio]

/-! ### A discount for one user group -/

/-- Group `default` costs `1`, and users of group `vip` have it at half the price; `own` is the
special ratio of `default` for its own users. -/
def exampleSetting (own : Ratios) : RatioSetting :=
  { groupRatio := AList.singleton "default" 1
    groupGroupRatio := (AList.singleton "default" own).insert "vip" (AList.singleton "default" (1 / 2))
    modelPrice := ∅
    defaultModelPrice := ∅
    modelRatio := AList.singleton "m" 2
    selfUseModeEnabled := false
    enableFreeModelPreConsume := false
    quotaPerUnit := 500000 }

def vipSubmission : Submission :=
  { exampleSubmission with billingContext := ⟨0, 1 / 2, 2, ∅, "m", false⟩ }

def vipRow : Task :=
  { exampleRow with
    privateData := { exampleRow.privateData with billingContext := some vipSubmission.billingContext } }

/-- The users of `default` have the same discount. -/
theorem settlement_ratio_same_discount :
    RatioKept (exampleSetting (AList.singleton "default" (1 / 2))) vipRow (some "vip") := by
  have hrow : relayTask vipSubmission (sessionOn 200) (openedOn 200).1 exampleResult none none none =
      (_, some vipRow) := rfl
  have hratio : vipSubmission.billingContext.groupRatio = (handleGroupRatio
      (exampleSetting (AList.singleton "default" (1 / 2))) none "vip" "default").1.groupRatio := rfl
  exact (settlement_ratio_iff rfl hratio hrow).mpr (.inr rfl)

/-- They have none: the row was priced at half, and its tokens are settled at the full price. -/
theorem settlement_ratio_lost :
    let cfg := exampleSetting ∅
    let submitted := relayTask vipSubmission (sessionOn 200) (openedOn 200).1 exampleResult none none none
    submitted.2 = some vipRow ∧
      (handleGroupRatio cfg none "vip" "default").1.groupRatio = 1 / 2 ∧
      settlementGroupRatio cfg vipRow (some "vip") = some 1 ∧
      recalculateTaskQuotaByTokens cfg (fun _ => some "vip") vipRow 1000 = some 2000 ∧
      ¬ RatioKept cfg vipRow (some "vip") := by
  refine ⟨rfl, rfl, rfl, by decide +kernel, fun hkept => ?_⟩
  obtain ⟨bc, hbc, hratio⟩ := hkept 1 rfl
  cases hbc
  exact absurd hratio (by decide +kernel)

end WynthApi.Price

import WynthApi.Lib.Truncate
import WynthApi.Lib.Tx
import WynthApi.Store.Ledger

/-!
# Top-up orders (model/topup.go)

A `TopUp` row is found by its unique trade number.  Its `amount` and `money` columns carry different units for
different payment providers.  Four providers and the administrator complete an order in one transaction under the
row's lock; they differ in their checks and in the quota they add (`Completion`).  Epay's webhook
(controller/topup.go) runs its three statements one by one (`epayNotify`).

`credits` is not in the source: it notes what was added to a user's quota for which order.  How a quota column
rounds a fraction is left open (quotas are rationals).  `money` and the quota per unit are the decimals that
`decimal.NewFromFloat` reads; where the code multiplies the floats themselves, so does `stripeQuota`.  A quota is below
the bounds of `int64`.
-/

namespace WynthApi.Store

/-- `common.TopUpStatus*`, the status of top-up orders and of subscription orders. -/
inductive TopUpStatus where
  | pending
  | success
  | failed
  | expired
  deriving DecidableEq

/-- `PaymentProvider*`; `unset` is the empty column default. -/
inductive PaymentProvider where
  | unset
  | epay
  | stripe
  | creem
  | waffo
  | waffoPancake
  | balance
  deriving DecidableEq

/-- A `TopUp` without its unique `trade_no`, the key of the table. -/
structure TopUp where
  (userId amount : Int)
  money : ℚ
  paymentMethod : String
  paymentProvider : PaymentProvider
  (createTime completeTime : Int)
  status : TopUpStatus
  deriving DecidableEq

def errPaymentMethodMismatch : String := "payment method mismatch"

end WynthApi.Store

namespace WynthApi.Store.TopUps

open Truncate

structure User where
  quota : ℚ
  (email stripeCustomer : String)
  deriving DecidableEq

structure TopUpDB where
  topUps : String → Option TopUp
  users : Int → User
  credits : List (String × ℚ)

/-! ### Statements -/

variable (tradeNo : String)

def lockTopUp (fault : Fault) (notFound : String) : Tx TopUpDB String TopUp := do
  let row ← Tx.read (·.topUps tradeNo)
  match row, fault with
  | some topUp, none => pure topUp
  | _, _ => Tx.fail notFound

def TopUpDB.setTopUp (db : TopUpDB) (tradeNo : String) (topUp : TopUp) : TopUpDB :=
  { db with topUps := Function.update db.topUps tradeNo (some topUp) }

variable (topUp : TopUp)

def saveTopUp (fault : Fault) : Tx TopUpDB String Unit :=
  Tx.write fault fun db => db.setTopUp tradeNo topUp

def TopUpDB.credit (db : TopUpDB) (tradeNo : String) (userId : Int) (quota : ℚ)
    (touch : User → User) : TopUpDB :=
  let user := db.users userId
  { db with
    users := Function.update db.users userId (touch { user with quota := user.quota + quota })
    credits := db.credits ++ [(tradeNo, quota)] }

def creditUser (userId : Int) (quota : ℚ) (touch : User → User) (fault : Fault) : Tx TopUpDB String Unit :=
  Tx.write fault fun db => db.credit tradeNo userId quota touch

/-! ### Completions in one transaction -/

/-- What one completion does differently from the others. -/
structure Completion where
  /-- The provider the order must have; `none` if that is not checked. -/
  provider : Option PaymentProvider
  /-- A completed order is answered without an error. -/
  idempotent : Bool
  badStatus : String
  /-- The quota to add, from the quota per unit and the order. -/
  quota : ℚ → TopUp → ℚ
  /-- A quota that is not positive is refused. -/
  positive : Bool
  /-- The user is read before it is updated. -/
  readsUser : Bool
  touch : User → User
  touch_quota : ∀ u, (touch u).quota = u.quota

structure CompletionFaults where
  lock : Fault := none
  save : Fault := none
  user : Fault := none
  credit : Fault := none
  commit : Fault := none

def completed (now : Int) : TopUp :=
  { topUp with completeTime := now, status := .success }

variable (c : Completion)

def Completion.readUser (fault : Fault) : Tx TopUpDB String Unit :=
  if c.readsUser then Tx.write fault id else pure ()

variable (quotaPerUnit : ℚ) (tradeNo : String) (now : Int) (f : CompletionFaults)

def Completion.tx : Tx TopUpDB String Unit :=
  Tx.transaction f.commit do
    let topUp ← lockTopUp tradeNo f.lock "充值订单不存在"
    if c.provider.any (· ≠ topUp.paymentProvider) then Tx.fail errPaymentMethodMismatch
    else if c.idempotent = true ∧ topUp.status = .success then pure ()
    else if topUp.status ≠ .pending then Tx.fail c.badStatus
    else if c.positive = true ∧ c.quota quotaPerUnit topUp ≤ 0 then Tx.fail "无效的充值额度"
    else do
      saveTopUp tradeNo (completed topUp now) f.save
      c.readUser f.user
      creditUser tradeNo topUp.userId (c.quota quotaPerUnit topUp) c.touch f.credit

/-- A provider's completion reports every error of its transaction in the same words. -/
def Completion.webhook : Tx TopUpDB String Unit :=
  if tradeNo = "" then Tx.fail "未提供支付单号"
  else (c.tx quotaPerUnit tradeNo now f).withError "充值失败，请稍后重试"

/-- The `float64` nearest to a number, the even one of two; its exponent has no bound here. -/
def float64 (q : ℚ) : ℚ :=
  let e : ℤ := Nat.log2 q.num.natAbs - Nat.log2 q.den
  let ulp : ℚ := 2 ^ (if 2 ^ e ≤ |q| then e - 52 else e - 53)
  let n := ⌊q / ulp⌋
  ulp * if q / ulp - n < 1 / 2 ∨ q / ulp - n = 1 / 2 ∧ n % 2 = 0 then n else n + 1

def stripeQuota (topUp : TopUp) : ℚ := float64 (float64 topUp.money * float64 quotaPerUnit)

/-- `Recharge` (Stripe): `money` is in dollars. -/
def recharge (customerId : String) : Completion where
  provider := some .stripe
  idempotent := false
  badStatus := "充值订单状态错误"
  quota := stripeQuota
  positive := false
  readsUser := false
  touch := fun u => { u with stripeCustomer := customerId }
  touch_quota := fun _ => rfl

/-- `RechargeCreem`: `amount` is the quota itself. -/
def rechargeCreem (customerEmail : String) : Completion where
  provider := some .creem
  idempotent := false
  badStatus := "充值订单状态错误"
  quota := fun _ topUp => topUp.amount
  positive := false
  readsUser := decide (customerEmail ≠ "")
  touch := fun u => if customerEmail ≠ "" ∧ u.email = "" then { u with email := customerEmail } else u
  touch_quota := fun u => by split_ifs <;> rfl

def amountQuota (topUp : TopUp) : Int := truncate (topUp.amount * quotaPerUnit)

variable (provider : PaymentProvider)

/-- Waffo and Waffo Pancake: `amount` is in dollars. -/
def rechargeInDollars : Completion where
  provider := some provider
  idempotent := true
  badStatus := "充值订单状态错误"
  quota := fun quotaPerUnit topUp => amountQuota quotaPerUnit topUp
  positive := true
  readsUser := false
  touch := id
  touch_quota := fun _ => rfl

def rechargeWaffo : Completion := rechargeInDollars .waffo

def rechargeWaffoPancake : Completion := rechargeInDollars .waffoPancake

/-- The quota of a manual completion: of `money` for Stripe, else of `amount`. -/
def manualQuota (topUp : TopUp) : Int :=
  if topUp.paymentProvider = .stripe then truncate (topUp.money * quotaPerUnit)
  else amountQuota quotaPerUnit topUp

def manualCompletion : Completion where
  provider := none
  idempotent := true
  badStatus := "订单状态不是待支付，无法补单"
  quota := fun quotaPerUnit topUp => manualQuota quotaPerUnit topUp
  positive := true
  readsUser := false
  touch := id
  touch_quota := fun _ => rfl

def manualCompleteTopUp : Tx TopUpDB String Unit :=
  if tradeNo = "" then Tx.fail "未提供订单号" else manualCompletion.tx quotaPerUnit tradeNo now f

/-- `UpdatePendingTopUpStatus`; an `expectedPaymentProvider` that is unset is not compared. -/
def updatePendingTopUpStatus (expectedPaymentProvider : PaymentProvider)
    (targetStatus : TopUpStatus) (lockFault saveFault commitFault : Fault) : Tx TopUpDB String Unit :=
  if tradeNo = "" then Tx.fail "未提供支付单号"
  else Tx.transaction commitFault do
    let topUp ← lockTopUp tradeNo lockFault "topup not found"
    if expectedPaymentProvider ≠ .unset ∧ topUp.paymentProvider ≠ expectedPaymentProvider then
      Tx.fail errPaymentMethodMismatch
    else if topUp.status ≠ .pending then Tx.fail "topup status invalid"
    else saveTopUp tradeNo { topUp with status := targetStatus } saveFault

/-! ### Epay -/

/-- The row that a handler without a transaction goes on with: one of its provider that is pending. -/
def admitted (row : Option TopUp) : Option TopUp :=
  row.filter fun topUp => topUp.paymentProvider = provider ∧ topUp.status = .pending

def epaySaved (type : String) : TopUp :=
  { topUp with paymentMethod := type, status := .success }

def increaseUserQuota (userId quota : Int) (fault : Fault) : Tx TopUpDB String Unit :=
  if quota < 0 then Tx.fail "quota 不能为负数！" else creditUser tradeNo userId quota id fault

/-- `EpayNotify` for a verified success event, when nothing comes between its statements. -/
def epayNotify (tradeNo type : String) (saveFault creditFault : Fault) :
    Tx TopUpDB String Unit := do
  let row ← Tx.read (·.topUps tradeNo)
  match admitted .epay row with
  | none => pure ()
  | some topUp => do
    saveTopUp tradeNo (epaySaved topUp type) saveFault
    increaseUserQuota tradeNo topUp.userId (amountQuota quotaPerUnit topUp) creditFault

end WynthApi.Store.TopUps

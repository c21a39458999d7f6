import WynthApi.Store.TopUps

/-!
# What a completion adds to the quota of the user

`ManualCompleteTopUp` takes `money` for dollars on a Stripe order and `amount` for dollars on every
other one.  That is right for Waffo, Waffo Pancake and Epay, whose own handlers do the same.  On a
Creem order `amount` is the quota itself, so a manual completion multiplies it by the quota per unit
(`creem_completed_by_hand`).  On a Stripe order it multiplies decimals, where the webhook multiplies
floats, and their whole parts may differ.
-/

namespace WynthApi.Store.TopUps

open Truncate

structure Event where
  (customerId customerEmail type : String)
  now : Int

def ownWebhook (quotaPerUnit : ℚ) (tradeNo : String) (ev : Event) :
    PaymentProvider → Tx TopUpDB String Unit
  | .stripe => (recharge ev.customerId).webhook quotaPerUnit tradeNo ev.now {}
  | .creem => (rechargeCreem ev.customerEmail).webhook quotaPerUnit tradeNo ev.now {}
  | .waffo => rechargeWaffo.webhook quotaPerUnit tradeNo ev.now {}
  | .waffoPancake => rechargeWaffoPancake.webhook quotaPerUnit tradeNo ev.now {}
  | .epay => epayNotify quotaPerUnit tradeNo ev.type none none
  | .unset | .balance => pure ()

def PaidOnline (p : PaymentProvider) : Prop := p ≠ .unset ∧ p ≠ .balance
  deriving Decidable

def added (x : Tx TopUpDB String Unit) (db : TopUpDB) (userId : Int) : ℚ :=
  ((x.run db).2.users userId).quota - (db.users userId).quota

/-- The manual completion reads the columns of the order in the units its provider wrote them in:
for Stripe a product that is not negative beyond a fraction and not rounded across a whole number, and
for Creem a quota per unit so close to one that it does not change the amount. -/
def UnitsAgree (quotaPerUnit : ℚ) (topUp : TopUp) : Prop :=
  match topUp.paymentProvider with
  | .stripe => -1 < stripeQuota quotaPerUnit topUp ∧
      ∀ n : ℤ, 0 < n → (n ≤ topUp.money * quotaPerUnit ↔ n ≤ stripeQuota quotaPerUnit topUp)
  | .creem => topUp.amount = 0 ∨
      0 < topUp.amount ∧ 1 ≤ quotaPerUnit ∧ topUp.amount * (quotaPerUnit - 1) < 1
  | _ => True

section Added

variable {db : TopUpDB} {tradeNo : String} {topUp : TopUp} {quotaPerUnit : ℚ}

theorem credit_quota (db : TopUpDB) (tradeNo : String) (userId : Int) (quota : ℚ)
    (touch : User → User) (htouch : ∀ u, (touch u).quota = u.quota) :
    ((db.credit tradeNo userId quota touch).users userId).quota = (db.users userId).quota + quota := by
  simp [TopUpDB.credit, htouch]

theorem saveTopUp_none (db : TopUpDB) (tradeNo : String) (topUp : TopUp) :
    (saveTopUp tradeNo topUp none).run db = (.ok (), db.setTopUp tradeNo topUp) := rfl

variable (c : Completion) (now : Int)

theorem added_completion (hrow : db.topUps tradeNo = some topUp)
    (hpending : topUp.status = .pending) (hprovider : c.provider.any (· ≠ topUp.paymentProvider) = false) :
    added (c.tx quotaPerUnit tradeNo now {}) db topUp.userId =
      if c.positive = true ∧ c.quota quotaPerUnit topUp ≤ 0 then 0 else c.quota quotaPerUnit topUp := by
  have hlock : (lockTopUp tradeNo none "充值订单不存在").run db = (.ok topUp, db) := by
    rw [lockTopUp, Tx.bind_read, hrow]
    rfl
  unfold added Completion.tx
  rw [Tx.run_transaction, Tx.run_bind db hlock, hprovider]
  simp only [hpending, Bool.false_eq_true, if_false, reduceCtorEq, and_false, ne_eq, not_true_eq_false]
  by_cases hzero : c.positive = true ∧ c.quota quotaPerUnit topUp ≤ 0
  · rw [if_pos hzero, if_pos hzero]
    exact sub_self _
  · have hread (db : TopUpDB) : (c.readUser none).run db = (.ok (), db) := by
      unfold Completion.readUser
      split_ifs <;> rfl
    rw [if_neg hzero, if_neg hzero, Tx.run_bind _ (saveTopUp_none _ _ _), Tx.run_bind _ (hread _)]
    show (((db.setTopUp tradeNo (completed topUp now)).credit tradeNo topUp.userId
      (c.quota quotaPerUnit topUp) c.touch).users topUp.userId).quota - _ = _
    rw [credit_quota _ _ _ _ c.touch c.touch_quota]
    exact add_sub_cancel_left _ _

theorem added_webhook (f : CompletionFaults) (u : Int) (hno : tradeNo ≠ "") :
    added (c.webhook quotaPerUnit tradeNo now f) db u = added (c.tx quotaPerUnit tradeNo now f) db u := by
  unfold added Completion.webhook
  rw [if_neg hno, Tx.withError_snd]

theorem added_epay (type : String) (hrow : db.topUps tradeNo = some topUp)
    (hpending : topUp.status = .pending) (hprovider : topUp.paymentProvider = .epay) :
    added (epayNotify quotaPerUnit tradeNo type none none) db topUp.userId =
      if amountQuota quotaPerUnit topUp < 0 then 0 else (amountQuota quotaPerUnit topUp : ℚ) := by
  have hadm : admitted .epay (db.topUps tradeNo) = some topUp := by simp [admitted, hrow, hpending, hprovider]
  unfold added epayNotify
  rw [Tx.bind_read, hadm]
  simp only
  rw [Tx.run_bind _ (saveTopUp_none _ _ _), increaseUserQuota]
  split_ifs with hneg
  · exact sub_self _
  · show (((db.setTopUp tradeNo (epaySaved topUp type)).credit tradeNo topUp.userId
      (amountQuota quotaPerUnit topUp : ℚ) id).users topUp.userId).quota - _ = _
    rw [credit_quota _ _ _ _ id fun _ => rfl]
    exact add_sub_cancel_left _ _

theorem added_manual (hno : tradeNo ≠ "") (hrow : db.topUps tradeNo = some topUp) (hpending : topUp.status = .pending) :
    added (manualCompleteTopUp quotaPerUnit tradeNo now {}) db topUp.userId =
      (max (manualQuota quotaPerUnit topUp) 0 : ℤ) := by
  unfold manualCompleteTopUp
  rw [if_neg hno, added_completion manualCompletion now hrow hpending rfl]
  simp only [manualCompletion, true_and, Int.cast_nonpos]
  split_ifs with h
  · rw [max_eq_right h, Int.cast_zero]
  · rw [max_eq_left (by omega)]

/-- The quota of a dollar amount that is not positive is refused, so nothing is added for it. -/
theorem added_dollars {provider : PaymentProvider} (now : Int) (hno : tradeNo ≠ "")
    (hrow : db.topUps tradeNo = some topUp) (hpending : topUp.status = .pending)
    (hprovider : topUp.paymentProvider = provider) :
    added ((rechargeInDollars provider).webhook quotaPerUnit tradeNo now {}) db topUp.userId =
      (max (amountQuota quotaPerUnit topUp) 0 : ℤ) := by
  have hsame : (rechargeInDollars provider).provider.any (· ≠ topUp.paymentProvider) = false := by
    simp [rechargeInDollars, hprovider]
  rw [added_webhook _ _ _ _ hno, added_completion _ now hrow hpending hsame]
  simp only [rechargeInDollars, true_and, Int.cast_nonpos]
  split_ifs with h
  · rw [max_eq_right h, Int.cast_zero]
  · rw [max_eq_left (by omega)]

/-- A Creem amount survives the multiplication by the quota per unit only if that is close to one. -/
theorem creem_amount_iff (amount : Int) (quotaPerUnit : ℚ) :
    max (truncate (amount * quotaPerUnit)) 0 = amount ↔
      amount = 0 ∨ 0 < amount ∧ 1 ≤ quotaPerUnit ∧ amount * (quotaPerUnit - 1) < 1 := by
  rcases lt_trichotomy amount 0 with hneg | rfl | hpos
  · constructor
    · intro h
      omega
    · rintro (h | h) <;> omega
  · simp [truncate]
  have hpos' : (0 : ℚ) < amount := by exact_mod_cast hpos
  have hmax : max (truncate (amount * quotaPerUnit)) 0 = amount ↔ truncate (amount * quotaPerUnit) = amount := by omega
  rw [hmax]
  by_cases hunit : 0 < quotaPerUnit
  · rw [truncate_mul_eq_iff amount hunit, abs_of_pos hpos']
    constructor
    · rintro ⟨hge, hlt⟩
      refine .inr ⟨hpos, ?_, hlt⟩
      have := nonneg_of_mul_nonneg_right hge hpos'
      linarith
    · rintro (h | ⟨-, hge, hlt⟩)
      · omega
      · exact ⟨mul_nonneg hpos'.le (by linarith), hlt⟩
  · constructor
    · intro h
      have hle : truncate (amount * quotaPerUnit) ≤ 0 := by
        have hprod : amount * quotaPerUnit ≤ 0 := mul_nonpos_of_nonneg_of_nonpos hpos'.le (not_lt.mp hunit)
        exact truncate_nonpos hprod
      omega
    · rintro (h | ⟨-, hge, -⟩)
      · omega
      · linarith

/-- **Units**: on a pending order a manual completion adds what the provider's own handler adds, up
to a fraction, exactly if it reads the order's columns in the provider's units. -/
theorem manual_matches_webhook_iff (ev : Event) (now : Int) (hno : tradeNo ≠ "")
    (hrow : db.topUps tradeNo = some topUp) (hpending : topUp.status = .pending)
    (honline : PaidOnline topUp.paymentProvider) :
    added (manualCompleteTopUp quotaPerUnit tradeNo now {}) db topUp.userId =
        truncate (added (ownWebhook quotaPerUnit tradeNo ev topUp.paymentProvider) db topUp.userId) ↔
      UnitsAgree quotaPerUnit topUp := by
  rw [added_manual now hno hrow hpending]
  have hmanual (h : topUp.paymentProvider ≠ .stripe) :
      manualQuota quotaPerUnit topUp = amountQuota quotaPerUnit topUp := if_neg h
  cases hp : topUp.paymentProvider with
  | unset => exact absurd hp honline.1
  | balance => exact absurd hp honline.2
  | epay =>
    rw [hmanual (by simp [hp])]
    simp only [ownWebhook, UnitsAgree, hp, added_epay ev.type hrow hpending hp, iff_true]
    split_ifs with h
    · rw [max_eq_right h.le, Int.cast_zero]
      rfl
    · rw [max_eq_left (not_lt.mp h), truncate_intCast]
  | waffo =>
    rw [hmanual (by simp [hp])]
    simp only [ownWebhook, UnitsAgree, hp, rechargeWaffo, added_dollars ev.now hno hrow hpending hp,
      truncate_intCast]
  | waffoPancake =>
    rw [hmanual (by simp [hp])]
    simp only [ownWebhook, UnitsAgree, hp, rechargeWaffoPancake,
      added_dollars ev.now hno hrow hpending hp, truncate_intCast]
  | creem =>
    have hsame : (rechargeCreem ev.customerEmail).provider.any (· ≠ topUp.paymentProvider) = false := by
      simp [rechargeCreem, hp]
    rw [hmanual (by simp [hp])]
    simp only [ownWebhook, UnitsAgree, hp]
    rw [added_webhook _ _ _ _ hno, added_completion _ ev.now hrow hpending hsame]
    simp only [rechargeCreem, Bool.false_eq_true, false_and, if_false, truncate_intCast, Int.cast_inj]
    exact creem_amount_iff topUp.amount quotaPerUnit
  | stripe =>
    have hsame : (recharge ev.customerId).provider.any (· ≠ topUp.paymentProvider) = false := by
      simp [recharge, hp]
    have hstripe : manualQuota quotaPerUnit topUp = truncate (topUp.money * quotaPerUnit) := if_pos hp
    rw [hstripe]
    simp only [ownWebhook, UnitsAgree, hp]
    rw [added_webhook _ _ _ _ hno, added_completion _ ev.now hrow hpending hsame]
    simp only [recharge, Bool.false_eq_true, false_and, if_false, Int.cast_inj]
    exact max_truncate_eq_iff

end Added

def exampleTopUps (provider : PaymentProvider) : TopUpDB where
  topUps := fun t => if t = "T1" then some ⟨1, 100, 201 / 100, "", provider, 0, 0, .pending⟩ else none
  users := fun _ => ⟨0, "", ""⟩
  credits := []

def exampleEvent : Event := ⟨"cus", "", "alipay", 5⟩

/-- By hand and by webhook, a Waffo order of one hundred dollars adds the same quota. -/
theorem waffo_completed_by_hand : added (manualCompleteTopUp 500000 "T1" 5 {}) (exampleTopUps .waffo) 1 =
      truncate (added (ownWebhook 500000 "T1" exampleEvent .waffo) (exampleTopUps .waffo) 1) :=
  (@manual_matches_webhook_iff (exampleTopUps .waffo) "T1" ⟨1, 100, 201 / 100, "", .waffo, 0, 0, .pending⟩
    500000 exampleEvent 5 (by decide) rfl rfl (by decide)).mpr trivial

/-- The webhook of a Creem order for a quota of one hundred adds one hundred, an administrator fifty
million.  That of a Stripe order of 2.01 dollars adds a little less than 1005000. -/
theorem creem_completed_by_hand :
    added (ownWebhook 500000 "T1" exampleEvent .creem) (exampleTopUps .creem) 1 = 100 ∧
      added (manualCompleteTopUp 500000 "T1" 5 {}) (exampleTopUps .creem) 1 = 50000000 ∧
    truncate (added (ownWebhook 500000 "T1" exampleEvent .stripe) (exampleTopUps .stripe) 1) = 1004999 ∧
      added (manualCompleteTopUp 500000 "T1" 5 {}) (exampleTopUps .stripe) 1 = 1005000 := by
  decide +kernel

end WynthApi.Store.TopUps

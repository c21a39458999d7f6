import WynthApi.Store.Subscription

/-!
# The two funding sources of a billing session (service/funding_source.go)

A wallet is charged and refunded by single quota statements.  A subscription is charged by
`PreConsumeUserSubscription`, adjusted by deltas and refunded by request id; it ignores the amount
it is asked for and charges the `amount` fixed when the session was built.
-/

namespace WynthApi.Billing

open Store

inductive BillingSource where
  | wallet
  | subscription
  deriving DecidableEq

structure WalletFunding where
  (userId consumed : Int)
  deriving DecidableEq

structure SubscriptionFunding where
  requestId : String
  userId : Int
  modelName : String
  (amount subscriptionId preConsumed amountTotal amountUsedAfter planId : Int)
  planTitle : String
  deriving DecidableEq

inductive FundingSource where
  | wallet (w : WalletFunding)
  | subscription (f : SubscriptionFunding)
  deriving DecidableEq

/-- What the store answers while a session is built: the cached token read and the faults of the
single statements. -/
structure PreConsumeAnswers where
  tokenRead : Except String Int
  (tokenFault walletFault rollbackFault : Fault)
  tx : PreConsumeTx
  planInfo : Int → Option (Int × String)

namespace FundingSource

def source : FundingSource → BillingSource
  | wallet _ => .wallet
  | subscription _ => .subscription

def account : FundingSource → Account
  | wallet w => .wallet w.userId
  | subscription f => .subscription f.subscriptionId

def preConsume (a : PreConsumeAnswers) (db : DB) (amount : Int) :
    FundingSource → Except String (FundingSource × DB)
  | wallet w =>
    if amount ≤ 0 then .ok (wallet w, db)
    else match decreaseUserQuota db w.userId amount a.walletFault with
      | .error e => .error e
      | .ok db' => .ok (wallet { w with consumed := amount }, db')
  | subscription f =>
    match preConsumeUserSubscription a.tx db f.requestId f.userId f.amount with
    | .error e => .error e
    | .ok (db', res) =>
      let f := { f with
        subscriptionId := res.userSubscriptionId
        preConsumed := res.preConsumed
        amountTotal := res.amountTotal
        amountUsedAfter := res.amountUsedAfter }
      match a.planInfo res.userSubscriptionId with
      | none => .ok (subscription f, db')
      | some (planId, planTitle) =>
        .ok (subscription { f with planId, planTitle }, db')

variable (db : DB)

/-- `FundingSource.Settle`: positive charges more, negative gives back. -/
def settle (delta : Int) (fault : Fault) : FundingSource → Except String DB
  | wallet w =>
    if delta = 0 then .ok db
    else if 0 < delta then decreaseUserQuota db w.userId delta fault
    else increaseUserQuota db w.userId (-delta) fault
  | subscription f =>
    if delta = 0 then .ok db
    else postConsumeUserSubscriptionDelta db f.subscriptionId delta fault

/-- `FundingSource.Refund`.  A wallet refund is one statement and is not retried; a subscription
refund is tried up to three times. -/
def refund (walletFault : Fault) (attempt : ℕ → RefundFaults) :
    FundingSource → DB × Option String
  | wallet w =>
    if w.consumed ≤ 0 then (db, none)
    else match increaseUserQuota db w.userId w.consumed walletFault with
      | .error e => (db, some e)
      | .ok db' => (db', none)
  | subscription f =>
    if f.preConsumed ≤ 0 then (db, none)
    else refundWithRetry (fun n d => refundSubscriptionPreConsume d f.requestId (attempt n)) 3 db none

theorem settle_moves {f : FundingSource} {db db' : DB} {delta : Int} {fault : Fault}
    (h : f.settle db delta fault = .ok db') : Moves db db' f.account delta := by
  cases f with simp only [settle] at h
  | wallet w =>
    split_ifs at h with h0 hpos
    · cases h
      rw [h0]
      exact Moves.refl _ _
    · obtain ⟨-, -, rfl⟩ := quotaStatement_eq_ok.mp h
      exact Moves.post _ _ _ _
    · obtain ⟨-, -, rfl⟩ := quotaStatement_eq_ok.mp h
      rw [neg_neg]
      exact Moves.post _ _ _ _
  | subscription s =>
    split_ifs at h with h0
    · cases h
      rw [h0]
      exact Moves.refl _ _
    · exact postConsume_moves h

end FundingSource

/-- The only attempt that counts is the first one without an error, if a failed attempt leaves the
tables as they were. -/
theorem refundWithRetry_none {fn : ℕ → DB → DB × Option String} {P : DB → DB → Prop}
    (hok : ∀ n db db', fn n db = (db', none) → P db db') :
    ∀ {n : ℕ}, (∀ m < n, ∀ db db' e, fn m db = (db', some e) → db' = db) → ∀ {db db' : DB} {e : Option String}, 0 < n →
      refundWithRetry fn n db e = (db', none) → P db db'
  | 0, _, _, _, _, hn, _ => absurd hn (lt_irrefl 0)
  | n + 1, hfail, db, db', e, _, h => by
    unfold refundWithRetry at h
    rcases hf : fn n db with ⟨d, _ | err⟩
    · simp only [hf, Prod.mk.injEq, and_true] at h
      subst h
      exact hok n db d hf
    · simp only [hf] at h
      have hd : d = db := hfail n (Nat.lt_succ_self n) db d err hf
      subst hd
      rcases Nat.eq_zero_or_pos n with rfl | hn
      · simp [refundWithRetry] at h
      · exact refundWithRetry_none hok (fun m hm => hfail m (Nat.lt_succ_of_lt hm)) hn h

end WynthApi.Billing

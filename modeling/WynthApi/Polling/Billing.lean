import WynthApi.Polling.Row

/-!
# Refund and delta settlement of a task (service/task_billing.go)

Both operations move the funding source first, then the token, and write the quota column last.
Another handler can run between the two, so each is given as two steps: the money step returns the
store and, if the funding source accepted, the quota to be written.
-/

namespace WynthApi.Polling

open Store Billing

variable (t : Task)

def taskIsSubscription : Bool :=
  t.privateData.billingSource == some .subscription && decide (0 < t.privateData.subscriptionId)

def fundingAccount : Account :=
  if taskIsSubscription t then .subscription t.privateData.subscriptionId else .wallet t.userId

variable (db : DB) (t : Task) (delta : Int)

def taskAdjustFunding (fault : Fault) : Except String DB :=
  if taskIsSubscription t then
    postConsumeUserSubscriptionDelta db t.privateData.subscriptionId delta fault
  else if 0 < delta then decreaseUserQuota db t.userId delta fault
  else increaseUserQuota db t.userId (-delta) fault

/-- What the token step meets: whether the token's key can be looked up, and the statement. -/
structure TokenAnswer where
  keyFound : Bool
  fault : Fault
  deriving DecidableEq

/-- `taskAdjustTokenQuota`; an error is only logged. -/
def taskAdjustTokenQuota (a : TokenAnswer) : DB :=
  if t.privateData.tokenId ≤ 0 ∨ delta = 0 ∨ a.keyFound = false then db
  else
    let r := if 0 < delta then decreaseTokenQuota db t.privateData.tokenId delta a.fault
      else increaseTokenQuota db t.privateData.tokenId (-delta) a.fault
    match r with
    | .ok db' => db'
    | .error _ => db

/-- Funding source, then token; `none` if the funding source refused. -/
def adjustMoney (fault : Fault) (a : TokenAnswer) : Option DB :=
  match taskAdjustFunding db t delta fault with
  | .error _ => none
  | .ok db' => some (taskAdjustTokenQuota db' t delta a)

/-- The money step of `RefundTaskQuota`; `some (db, 0)` asks for the quota to be cleared. -/
def refundMoney (t : Task) (fault : Fault) (a : TokenAnswer) : Option (DB × Int) :=
  if t.quota = 0 then none else (adjustMoney db t (-t.quota) fault a).map (·, 0)

def recalculateMoney (t : Task) (actualQuota : Int) (fault : Fault) (a : TokenAnswer) : Option (DB × Int) :=
  if actualQuota ≤ 0 ∨ actualQuota - t.quota = 0 then none
  else (adjustMoney db t (actualQuota - t.quota) fault a).map (·, actualQuota)

/-! ### What the money steps move -/

theorem taskIsSubscription_congr {s t : Task} (h : s.SameBilling t) : taskIsSubscription s = taskIsSubscription t := by
  rw [taskIsSubscription, taskIsSubscription, h.source, h.subscriptionId]

theorem fundingAccount_congr {s t : Task} (h : s.SameBilling t) : fundingAccount s = fundingAccount t := by
  rw [fundingAccount, fundingAccount, taskIsSubscription_congr h, h.subscriptionId, h.userId]

theorem fundingAccount_ne_token (i : Int) : fundingAccount t ≠ .token i := by
  unfold fundingAccount
  split_ifs <;> simp

/-- The subscription behind a task exists and can take `delta` without the clamp at zero. -/
def Covers : Prop :=
  taskIsSubscription t = true →
    ∀ sub, db.subs.lookup t.privateData.subscriptionId = some sub → 0 ≤ sub.amountUsed + delta

/-- A funding adjustment that returns without an error is one entry on the task's account, in full
if the subscription covers it, or nothing for a zero delta on a subscription. -/
theorem taskAdjustFunding_journal {db db' : DB} {t : Task} {delta : Int} {fault : Fault}
    (hcov : Covers db t delta) (hdelta : delta ≠ 0) (h : taskAdjustFunding db t delta fault = .ok db') :
    db'.journal = db.journal ++ [⟨fundingAccount t, delta, delta⟩] := by
  unfold taskAdjustFunding at h
  unfold fundingAccount
  cases hs : taskIsSubscription t with
  | true =>
    simp only [hs, if_true] at h ⊢
    obtain ⟨-, ⟨h0, -⟩ | ⟨-, -, sub, hsub, -, rfl⟩⟩ := postConsume_cases h
    · exact absurd h0 hdelta
    have hle := hcov hs sub hsub
    have hclamp : clampUsed sub.amountUsed delta - sub.amountUsed = delta := by
      rw [clampUsed_of_nonneg hle]
      omega
    rw [post_journal, hclamp]
  | false =>
    simp only [hs, Bool.false_eq_true, if_false] at h ⊢
    split_ifs at h with hpos
    · obtain ⟨-, -, rfl⟩ := quotaStatement_eq_ok.mp h
      exact post_journal _ _ _ _
    · obtain ⟨-, -, rfl⟩ := quotaStatement_eq_ok.mp h
      rw [neg_neg]
      exact post_journal _ _ _ _

theorem taskAdjustTokenQuota_journal (t : Task) (delta : Int) (a : TokenAnswer) :
    ∃ l : List Entry, (taskAdjustTokenQuota db t delta a).journal = db.journal ++ l ∧
      ∀ e ∈ l, e.account = .token t.privateData.tokenId := by
  unfold taskAdjustTokenQuota
  split_ifs with hskip hpos
  · exact ⟨[], by simp, by simp⟩
  · cases hd : decreaseTokenQuota db t.privateData.tokenId delta a.fault with
    | error e => exact ⟨[], by simp, by simp⟩
    | ok d =>
      obtain ⟨-, -, rfl⟩ := quotaStatement_eq_ok.mp hd
      exact ⟨[⟨.token t.privateData.tokenId, delta, delta⟩], post_journal _ _ _ _, by simp⟩
  · cases hd : increaseTokenQuota db t.privateData.tokenId (-delta) a.fault with
    | error e => exact ⟨[], by simp, by simp⟩
    | ok d =>
      obtain ⟨-, -, rfl⟩ := quotaStatement_eq_ok.mp hd
      exact ⟨[⟨.token t.privateData.tokenId, - -delta, - -delta⟩], post_journal _ _ _ _, by simp⟩

/-- **Money step**: a covered adjustment that goes through adds exactly one entry of `delta` to the
task's funding account. -/
theorem adjustMoney_entries {db db' : DB} {t : Task} {delta : Int} {fault : Fault} {a : TokenAnswer}
    (hcov : Covers db t delta) (hdelta : delta ≠ 0) (h : adjustMoney db t delta fault a = some db') :
    entriesOn db'.journal (fundingAccount t) =
      entriesOn db.journal (fundingAccount t) ++ [⟨fundingAccount t, delta, delta⟩] := by
  unfold adjustMoney at h
  cases hf : taskAdjustFunding db t delta fault with
  | error e => simp [hf] at h
  | ok d =>
    simp only [hf, Option.some.injEq] at h
    obtain ⟨l, hl, htok⟩ := taskAdjustTokenQuota_journal d t delta a
    have hnone : entriesOn l (fundingAccount t) = [] := by
      refine List.filter_eq_nil_iff.mpr fun e he => ?_
      rw [htok e he]
      simpa using (fundingAccount_ne_token t _).symm
    rw [← h, hl, taskAdjustFunding_journal hcov hdelta hf]
    simp only [entriesOn, List.filter_append] at hnone ⊢
    rw [hnone]
    simp

end WynthApi.Polling

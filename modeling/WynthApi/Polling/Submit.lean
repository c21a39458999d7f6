import WynthApi.Billing.Calls
import WynthApi.Polling.Billing

/-!
# How a task row comes to exist (controller/relay.go)

`RelayTask` settles the billing session for the submission's final quota and then inserts the row
with that quota, whether or not the settle went through.  `relayTask_agrees_iff` says for which
submissions the row and the funding source agree from the start.
-/

namespace WynthApi.Polling

open Store Billing FundingSource

structure TaskSubmitResult where
  (upstreamTaskID taskData : String)
  platform : TaskPlatform
  quota : Int
  deriving DecidableEq

/-- What else `RelayTask` puts into the row: the public id, the request's group, channel, action and
models, the clock, and the primary key the insert draws. -/
structure Submission where
  id : Int
  (publicTaskID usingGroup : String)
  channelId : Int
  (action key upstreamModelName : String)
  billingContext : TaskBillingContext
  now : Int

def initTask (platform : TaskPlatform) (info : RelayInfo) (sub : Submission) : Task :=
  { id := sub.id, taskID := sub.publicTaskID, platform, userId := info.userId
    group := sub.usingGroup, channelId := sub.channelId, quota := 0, action := ""
    status := .notStart, failReason := "", submitTime := sub.now, startTime := 0, finishTime := 0
    progress := "0%", properties := ⟨sub.upstreamModelName, info.originModelName⟩
    privateData := ⟨sub.key, "", "", none, 0, 0, none⟩, data := "" }

/-- The success branch of `RelayTask`; there is no row if the insert fails. -/
def relayTask (sub : Submission) (s : BillingSession) (db : DB) (result : TaskSubmitResult)
    (fundingFault tokenFault insertFault : Fault) : DB × Option Task :=
  -- the error of the settle is only logged
  let (s, db, _) := s.settle db result.quota fundingFault tokenFault
  let task := initTask result.platform s.relayInfo sub
  let task := { task with
    privateData := { task.privateData with
      upstreamTaskID := result.upstreamTaskID
      billingSource := s.relayInfo.billingSource
      subscriptionId := s.relayInfo.subscriptionId
      tokenId := s.relayInfo.tokenId
      billingContext := some sub.billingContext }
    quota := result.quota
    data := result.taskData
    action := sub.action }
  match insertFault with
  | none => (db, some task)
  | some _ => (db, none)

/-! ### The settle of a submission -/

/-- The source takes the difference in full: nothing to take, or no fault and, for a subscription, a
row with enough room that does not fall below zero. -/
def SettleAccepted (db : DB) (delta : Int) (fault : Fault) : FundingSource → Prop
  | .wallet _ => delta = 0 ∨ fault = none
  | .subscription f => delta = 0 ∨ (fault = none ∧
      ∃ sub, db.subs.lookup f.subscriptionId = some sub ∧ 0 ≤ sub.amountUsed + delta ∧
        ¬ (0 < sub.amountTotal ∧ sub.amountTotal < sub.amountUsed + delta))

def KeyedSource (f : FundingSource) : Prop :=
  ∀ g, f = .subscription g → 0 < g.subscriptionId

section Settle

variable {f : FundingSource} {db db₁ : DB} {delta : Int} {fault : Fault}

theorem settle_of_accepted (hkey : KeyedSource f) (hdelta : delta ≠ 0) (hacc : SettleAccepted db delta fault f) :
    f.settle db delta fault = .ok (db.post f.account delta delta) := by
  cases f with
  | wallet w =>
    have hf : fault = none := hacc.resolve_left hdelta
    simp only [settle, if_neg hdelta]
    split_ifs with hpos
    · exact quotaStatement_eq_ok.mpr ⟨by omega, hf, rfl⟩
    · refine quotaStatement_eq_ok.mpr ⟨by omega, hf, ?_⟩
      rw [neg_neg]
      rfl
  | subscription g =>
    obtain ⟨hf, sub, hsub, hnonneg, hroom⟩ := hacc.resolve_left hdelta
    have hid : ¬ g.subscriptionId ≤ 0 := by
      have := hkey g rfl
      omega
    have hused := clampUsed_of_nonneg hnonneg
    rw [← hused] at hroom
    have hx : clampUsed sub.amountUsed delta - sub.amountUsed = delta := by omega
    simp only [settle, if_neg hdelta, postConsumeUserSubscriptionDelta, if_neg hid, hf, hsub, if_neg hroom, hx]
    rfl

/-- A settle that goes through posts one entry; if the entry is for the whole difference, the source
had accepted it. -/
theorem settle_posts (hdelta : delta ≠ 0) (h : f.settle db delta fault = .ok db₁) :
    ∃ x, db₁.journal = db.journal ++ [⟨f.account, delta, x⟩] ∧ (x = delta → SettleAccepted db delta fault f) := by
  cases f with simp only [settle, if_neg hdelta] at h
  | wallet w =>
    split_ifs at h with hpos
    · obtain ⟨-, hf, rfl⟩ := quotaStatement_eq_ok.mp h
      exact ⟨delta, post_journal _ _ _ _, fun _ => .inr hf⟩
    · obtain ⟨-, hf, rfl⟩ := quotaStatement_eq_ok.mp h
      rw [neg_neg]
      exact ⟨delta, post_journal _ _ _ _, fun _ => .inr hf⟩
  | subscription g =>
    obtain ⟨-, ⟨h0, -⟩ | ⟨-, hf, sub, hsub, hroom, rfl⟩⟩ := postConsume_cases h
    · exact absurd h0 hdelta
    refine ⟨_, post_journal _ _ _ _, fun hx => .inr ⟨hf, sub, hsub, ?_⟩⟩
    have hused : clampUsed sub.amountUsed delta = sub.amountUsed + delta := by omega
    refine ⟨?_, by rwa [← hused]⟩
    unfold clampUsed at hused
    split_ifs at hused <;> omega

end Settle

/-! ### The row of a submission -/

section Row

variable {sub : Submission} {s : BillingSession} {db db' : DB} {result : TaskSubmitResult}
  {fundingFault tokenFault insertFault : Fault} {row : Task}

/-- The row carries the submission's quota and the request's billing columns, whatever the settle
did. -/
theorem relayTask_row (h : relayTask sub s db result fundingFault tokenFault insertFault = (db', some row)) :
    row.quota = result.quota ∧ row.status = .notStart ∧ row.userId = s.relayInfo.userId ∧
      row.privateData.billingSource = s.relayInfo.billingSource ∧
      row.privateData.subscriptionId = s.relayInfo.subscriptionId ∧
      db' = (s.settle db result.quota fundingFault tokenFault).2.1 := by
  rcases hr : s.settle db result.quota fundingFault tokenFault with ⟨s', d, err⟩
  have hinfo := settle_relayInfo hr
  unfold relayTask at h
  simp only [hr] at h
  cases insertFault with
  | some e => simp at h
  | none =>
    simp only [Prod.mk.injEq, Option.some.injEq] at h
    obtain ⟨rfl, rfl⟩ := h
    refine ⟨rfl, rfl, ?_, ?_, ?_, rfl⟩
    · change s'.relayInfo.userId = _
      rw [hinfo]
    · change s'.relayInfo.billingSource = _
      rw [hinfo]
    · change s'.relayInfo.subscriptionId = _
      rw [hinfo]

theorem relayTask_context (h : relayTask sub s db result fundingFault tokenFault insertFault = (db', some row)) :
    row.group = sub.usingGroup ∧ row.privateData.billingContext = some sub.billingContext := by
  unfold relayTask at h
  cases insertFault with
  | some e => simp at h
  | none =>
    simp only [Prod.mk.injEq, Option.some.injEq] at h
    obtain ⟨-, rfl⟩ := h
    exact ⟨rfl, rfl⟩

theorem relayTask_account (hnamed : Named s) (hkey : KeyedSource s.funding)
    (h : relayTask sub s db result fundingFault tokenFault insertFault = (db', some row)) :
    fundingAccount row = s.funding.account := by
  obtain ⟨-, -, huser, hsource, hid, -⟩ := relayTask_row h
  obtain ⟨hnamed, hwho⟩ := hnamed
  rw [hnamed] at hsource
  unfold fundingAccount taskIsSubscription
  rw [hsource, hid, huser]
  cases hf : s.funding with
  | wallet w =>
    rw [hf] at hwho
    simp [source, account, ← hwho]
  | subscription g =>
    rw [hf] at hwho
    have hpos := hkey g hf
    simp [source, account, hwho, hpos]

/-- **Submission**: right after it, the funding source and the row agree exactly if the source took
the difference between the final quota and the pre-consumed one. -/
theorem relayTask_agrees_iff {db₁ : DB} (hopened : Opened s db₁) (hkey : KeyedSource s.funding)
    (hothers : db.journal = db₁.journal)
    (h : relayTask sub s db result fundingFault tokenFault insertFault = (db', some row)) :
    taken db'.journal (fundingAccount row) = row.quota ↔
      SettleAccepted db (result.quota - s.preConsumedQuota) fundingFault s.funding := by
  obtain ⟨hquota, -, -, -, -, hdb⟩ := relayTask_row h
  rw [relayTask_account hopened.named hkey h, hquota]
  have hpre : taken db.journal s.funding.account = s.preConsumedQuota := by
    rw [hothers]
    exact hopened.holds.funding
  have hzero : result.quota - s.preConsumedQuota = 0 →
      SettleAccepted db (result.quota - s.preConsumedQuota) fundingFault s.funding := by
    intro h0
    cases s.funding with
    | wallet | subscription => exact .inl h0
  rcases hr : s.settle db result.quota fundingFault tokenFault with ⟨s', d, err⟩
  rw [hr] at hdb
  subst hdb
  obtain ⟨-, rfl, e, hfail⟩ | ⟨heq, -, rfl⟩ | ⟨d₁, info, hne, hset, htok, -⟩ :=
    settle_cases hopened.unsettled hopened.unfunded hr
  · rw [hpre]
    refine ⟨fun heq => hzero (by omega), fun hacc => ?_⟩
    by_contra hne
    rw [settle_of_accepted hkey (by omega) hacc] at hfail
    cases hfail
  · rw [hpre]
    exact ⟨fun _ => hzero (by omega), fun _ => heq.symm⟩
  · have hdelta : result.quota - s.preConsumedQuota ≠ 0 := by omega
    obtain ⟨x, hx, hacc⟩ := settle_posts hdelta hset
    have hnet : taken d₁.journal s.funding.account = s.preConsumedQuota + x := by
      rw [hx, taken_append, taken_singleton, if_pos rfl, hpre]
    rw [settleToken_taken htok, hnet]
    refine ⟨fun heq => hacc (by omega), fun hacc' => ?_⟩
    rw [settle_of_accepted hkey hdelta hacc'] at hset
    have hjournal := (Except.ok.inj hset) ▸ hx
    rw [post_journal] at hjournal
    have hentry := List.append_cancel_left hjournal
    have hxd : result.quota - s.preConsumedQuota = x := by simpa using hentry
    omega

end Row

end WynthApi.Polling

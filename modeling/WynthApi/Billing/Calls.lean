import WynthApi.Billing.Opening

/-!
# What one Reserve, Settle or Refund does to an open session

For each call an inversion lemma lists what it can do (`reserve_cases`, `settle_cases`,
`refund_cases`, `RefundJob.run_nil`); the lemmas after it say what that means for the counters of a
session that `Holds` what it says.
-/

namespace WynthApi.Billing

open Store BillingSession

/-! ### Reserve -/

/-- The source after `Reserve` took `delta` more; only a wallet counts it itself. -/
def FundingSource.reserved (delta : Int) : FundingSource → FundingSource
  | .wallet w => .wallet { w with consumed := w.consumed + delta }
  | .subscription f => .subscription f

@[simp] theorem reserved_account (f : FundingSource) (delta : Int) : (f.reserved delta).account = f.account := by
  cases f <;> rfl

section Reserve

variable {cfg : BillingConfig} {s s' : BillingSession} {db db₁ db' : DB} {delta : Int}
  {f : FundingSource} {fault : Fault}

theorem reserveFunding_cases (h : s.reserveFunding db delta fault = .ok (f, db₁)) :
    f = s.funding.reserved delta ∧ ((∃ w, s.funding = .wallet w ∧ decreaseUserQuota db w.userId delta fault = .ok db₁) ∨
        ∃ g, s.funding = .subscription g ∧
          postConsumeUserSubscriptionDelta db g.subscriptionId delta fault = .ok db₁) := by
  unfold reserveFunding at h
  cases hs : s.funding with
  | wallet w =>
    cases hd : decreaseUserQuota db w.userId delta fault with
    | error e => simp [hs, hd] at h
    | ok d =>
      simp only [hs, hd, Except.ok.injEq, Prod.mk.injEq] at h
      obtain ⟨rfl, rfl⟩ := h
      exact ⟨rfl, .inl ⟨w, rfl, hd⟩⟩
  | subscription g =>
    cases hd : postConsumeUserSubscriptionDelta db g.subscriptionId delta fault with
    | error e => simp [hs, hd] at h
    | ok d =>
      simp only [hs, hd, Except.ok.injEq, Prod.mk.injEq] at h
      obtain ⟨rfl, rfl⟩ := h
      exact ⟨rfl, .inr ⟨g, rfl, hd⟩⟩

theorem reserveFunding_ok (h : s.reserveFunding db delta fault = .ok (f, db₁)) :
    f = s.funding.reserved delta ∧ db₁.records = db.records ∧ Moves db db₁ s.funding.account delta ∧
      ∀ g, s.funding = .subscription g → 0 < g.subscriptionId := by
  obtain ⟨rfl, ⟨w, hs, hd⟩ | ⟨g, hs, hd⟩⟩ := reserveFunding_cases h
  · obtain ⟨-, -, rfl⟩ := quotaStatement_eq_ok.mp hd
    rw [hs]
    exact ⟨rfl, post_records _ _ _ _, Moves.post _ _ _ _, fun g hg => by cases hg⟩
  · rw [hs]
    refine ⟨rfl, postConsume_records hd, postConsume_moves hd, ?_⟩
    intro g' hg'
    cases hg'
    exact (postConsume_cases hd).1

theorem postConsume_undo {i : Int} (hpos : 0 < delta)
    (h : postConsumeUserSubscriptionDelta db i delta fault = .ok db₁) :
    ∃ db₂, postConsumeUserSubscriptionDelta db₁ i (-delta) none = .ok db₂ := by
  obtain ⟨hi, ⟨h0, -⟩ | ⟨-, -, sub, hsub, hroom, rfl⟩⟩ := postConsume_cases h
  · omega
  have hi' : ¬ i ≤ 0 := by omega
  have hd' : ¬ -delta = 0 := by omega
  have hfit : ¬ (0 < sub.amountTotal ∧ sub.amountTotal < clampUsed
      (sub.amountUsed + (clampUsed sub.amountUsed delta - sub.amountUsed)) (-delta)) := by
    unfold clampUsed at hroom ⊢
    split_ifs at hroom ⊢ <;> omega
  simp only [postConsumeUserSubscriptionDelta, if_neg hi', if_neg hd', post_subs_self hsub, if_neg hfit]
  exact ⟨_, rfl⟩

theorem rollbackFundingReserve_undo (hpos : 0 < delta) (h : s.reserveFunding db delta fault = .ok (f, db₁)) :
    ∃ db₂, rollbackFundingReserve db₁ delta none f = (s.funding, db₂) ∧
      db₂.records = db₁.records ∧ Moves db₁ db₂ s.funding.account (-delta) := by
  obtain ⟨rfl, ⟨w, hs, -⟩ | ⟨g, hs, hd⟩⟩ := reserveFunding_cases h
  · have hd : increaseUserQuota db₁ w.userId delta none =
        .ok (db₁.post (.wallet w.userId) (-delta) (-delta)) :=
      quotaStatement_eq_ok.mpr ⟨by omega, rfl, rfl⟩
    refine ⟨db₁.post (.wallet w.userId) (-delta) (-delta), ?_, post_records _ _ _ _, ?_⟩
    · simp [hs, FundingSource.reserved, rollbackFundingReserve, hd]
    · rw [hs]
      exact Moves.post _ _ _ _
  · obtain ⟨db₂, hundo⟩ := postConsume_undo hpos hd
    refine ⟨db₂, ?_, postConsume_records hundo, ?_⟩
    · simp [hs, FundingSource.reserved, rollbackFundingReserve, hundo]
    · rw [hs]
      exact postConsume_moves hundo

variable {a : ReserveAnswers} {err : Option NewAPIError} {target : Int}

theorem reserveToken_ok (hpos : 0 < delta) (h : s.reserveToken cfg db delta a = .ok db') :
    (s.relayInfo.isPlayground = true ∧ db' = db) ∨ (s.relayInfo.isPlayground = false ∧
      db' = db.post (.token s.relayInfo.tokenId) delta delta) := by
  unfold reserveToken at h
  have hd : ¬ delta ≤ 0 := by omega
  cases hp : s.relayInfo.isPlayground with
  | true =>
    simp only [hp, or_true, if_true, Except.ok.injEq] at h
    exact .inl ⟨rfl, h.symm⟩
  | false =>
    simp only [hd, hp, Bool.false_eq_true, or_self, if_false] at h
    cases ht : preConsumeTokenQuota cfg s.relayInfo db delta a.tokenRead a.tokenFault with
    | error e => simp [ht] at h
    | ok d =>
      simp only [ht, Except.ok.injEq] at h
      subst h
      obtain ⟨-, ⟨hp', -⟩ | ⟨-, rfl⟩⟩ := preConsumeTokenQuota_cases ht
      · rw [hp] at hp'
        cases hp'
      · exact .inr ⟨rfl, rfl⟩

/-- What a `Reserve` did: nothing, a reserve that was rolled back, or a reserve. -/
theorem reserve_cases (h : s.reserve cfg db target a = (s', db', err)) : (s' = s ∧ db' = db) ∨
    ∃ delta f db₁, 0 < delta ∧ s.reserveFunding db delta a.fundingFault = .ok (f, db₁) ∧
      ((s' = { s with funding := (rollbackFundingReserve db₁ delta a.rollbackFault f).1 } ∧
          db' = (rollbackFundingReserve db₁ delta a.rollbackFault f).2) ∨
        (s.reserveToken cfg db₁ delta a = .ok db' ∧ s' = { s with
            funding := f
            preConsumedQuota := s.preConsumedQuota + delta
            tokenConsumed := s.tokenConsumed + delta
            extraReserved := s.extraReserved + delta }.syncRelayInfo ∧ err = none)) := by
  unfold reserve at h
  split_ifs at h with hskip
  · simp only [Prod.mk.injEq] at h
    exact .inl ⟨h.1.symm, h.2.1.symm⟩
  have hpos : 0 < target - s.preConsumedQuota := by
    simp only [Bool.or_eq_true, decide_eq_true_eq, not_or] at hskip
    omega
  cases hf : s.reserveFunding db (target - s.preConsumedQuota) a.fundingFault with
  | error e =>
    simp only [hf, Prod.mk.injEq] at h
    exact .inl ⟨h.1.symm, h.2.1.symm⟩
  | ok r =>
    obtain ⟨f, db₁⟩ := r
    refine .inr ⟨_, f, db₁, hpos, hf, ?_⟩
    cases ht : s.reserveToken cfg db₁ (target - s.preConsumedQuota) a with
    | error e =>
      simp only [hf, ht, Prod.mk.injEq] at h
      exact .inl ⟨h.1.symm, h.2.1.symm⟩
    | ok d =>
      simp only [hf, ht, Prod.mk.injEq] at h
      obtain ⟨rfl, rfl, rfl⟩ := h
      exact .inr ⟨rfl, rfl, rfl⟩

theorem holds_reserved (hpos : 0 < delta) (hholds : Holds s db)
    (hf : s.reserveFunding db delta fault = .ok (f, db₁)) (ht : s.reserveToken cfg db₁ delta a = .ok db')
    (hfull : AppliedInFull db'.journal) : Holds { s with
      funding := f
      preConsumedQuota := s.preConsumedQuota + delta
      tokenConsumed := s.tokenConsumed + delta
      extraReserved := s.extraReserved + delta }.syncRelayInfo db' := by
  obtain ⟨rfl, hrec, hm, hid⟩ := reserveFunding_ok hf
  -- the token step is a debit of the token account alone, or nothing
  have htok : db₁.journal <+: db'.journal ∧ db'.records = db₁.records ∧
      taken db'.journal s.funding.account = taken db₁.journal s.funding.account ∧
      (s.relayInfo.isPlayground = false → taken db'.journal (.token s.relayInfo.tokenId) =
        taken db₁.journal (.token s.relayInfo.tokenId) + delta) := by
    rcases reserveToken_ok hpos ht with ⟨hp, rfl⟩ | ⟨-, rfl⟩
    · exact ⟨List.prefix_rfl, rfl, rfl, fun hp' => by rw [hp] at hp'; cases hp'⟩
    · refine ⟨(Moves.post _ _ _ _).journal, post_records _ _ _ _, ?_, fun _ => ?_⟩
      · simp [(account_ne_token s.funding s.relayInfo.tokenId).symm]
      · simp
  obtain ⟨hgrow, hrec', hsame, htok⟩ := htok
  have hnet := hm.net (hfull.anti hgrow)
  have hnn := hholds.nonneg
  rw [syncRelayInfo_eq]
  refine ⟨?_, fun hp => ?_, ?_, ?_, ?_⟩
  · change taken db'.journal (s.funding.reserved delta).account = s.preConsumedQuota + delta
    rw [reserved_account, hsame, hnet, if_pos rfl, hholds.funding]
  · simp only [syncRelayInfo_isPlayground] at hp
    simp only [syncRelayInfo_tokenId]
    rw [htok hp, hnet, if_neg (account_ne_token _ _), add_zero, hholds.token hp]
  · change 0 ≤ s.preConsumedQuota + delta
    omega
  · change s.tokenConsumed + delta = s.preConsumedQuota + delta
    rw [hholds.consumed]
  · have hb := hholds.backed
    unfold Backed at hb ⊢
    cases hs : s.funding with simp only [hs] at hb
    | wallet w =>
      change w.consumed + delta = s.preConsumedQuota + delta
      rw [hb]
    | subscription g =>
      obtain ⟨hpre, hext, hsum, -, -, hlook⟩ := hb
      simp only [FundingSource.reserved, syncRelayInfo]
      refine ⟨hpre, by omega, by omega, trivial, fun _ => hid g hs, ?_⟩
      rw [hrec', hrec, hlook]

theorem reserve_holds (hroll : a.rollbackFault = none) (hholds : Holds s db)
    (h : s.reserve cfg db target a = (s', db', err)) (hfull : AppliedInFull db'.journal) : Holds s' db' := by
  obtain ⟨rfl, rfl⟩ | ⟨delta, f, db₁, hpos, hf, ⟨rfl, rfl⟩ | ⟨ht, rfl, -⟩⟩ := reserve_cases h
  · exact hholds
  · -- the token refused: the funding step is taken back
    obtain ⟨db₂, hundo, hrec₂, hm₂⟩ := rollbackFundingReserve_undo hpos hf
    obtain ⟨-, hrec₁, hm₁, -⟩ := reserveFunding_ok hf
    rw [hroll, hundo] at hfull ⊢
    refine hholds.congr (fun b => ?_) (fun g _ => by rw [hrec₂, hrec₁])
    rw [(hm₁.trans hm₂).net hfull b, add_neg_cancel, ite_self, add_zero]
  · exact holds_reserved hpos hholds hf ht hfull

structure Keeps (s s' : BillingSession) : Prop where
  account : s'.funding.account = s.funding.account
  tokenId : s'.relayInfo.tokenId = s.relayInfo.tokenId
  playground : s'.relayInfo.isPlayground = s.relayInfo.isPlayground
  base : s'.preConsumedQuota - s'.extraReserved = s.preConsumedQuota - s.extraReserved
  settled : s'.settled = s.settled
  refunded : s'.refunded = s.refunded
  fundingSettled : s'.fundingSettled = s.fundingSettled

theorem reserve_keeps (hroll : a.rollbackFault = none) (h : s.reserve cfg db target a = (s', db', err)) :
    Keeps s s' := by
  obtain ⟨rfl, rfl⟩ | ⟨delta, f, db₁, hpos, hf, ⟨rfl, rfl⟩ | ⟨ht, rfl, -⟩⟩ := reserve_cases h
  · exact ⟨rfl, rfl, rfl, rfl, rfl, rfl, rfl⟩
  · obtain ⟨db₂, hundo, -, -⟩ := rollbackFundingReserve_undo hpos hf
    rw [hroll, hundo]
    exact ⟨rfl, rfl, rfl, rfl, rfl, rfl, rfl⟩
  · obtain ⟨rfl, -, -, -⟩ := reserveFunding_ok hf
    rw [syncRelayInfo_eq]
    refine ⟨reserved_account _ _, by simp, by simp, ?_, rfl, rfl, rfl⟩
    change s.preConsumedQuota + delta - (s.extraReserved + delta) = _
    omega

theorem reserve_closed (hclosed : s.settled = true ∨ s.refunded = true) :
    s.reserve cfg db target a = (s, db, none) := by
  unfold reserve
  rcases hclosed with h | h <;> simp [h]

end Reserve

/-! ### Settle -/

section Settle

variable {s s' : BillingSession} {db db' : DB} {actual : Int} {fundingFault tokenFault : Fault}
  {err : Option String}

theorem settleToken_cases {delta : Int} (h : s.settleToken db delta tokenFault = (db', err)) :
    (db' = db ∧ (err = none → s.relayInfo.isPlayground = true)) ∨
      (err = none ∧ db' = db.post (.token s.relayInfo.tokenId) delta delta) := by
  unfold settleToken at h
  cases hp : s.relayInfo.isPlayground with
  | true =>
    simp only [hp, if_true, Prod.mk.injEq] at h
    exact .inl ⟨h.1.symm, fun _ => rfl⟩
  | false =>
    simp only [hp, Bool.false_eq_true, if_false] at h
    cases hr : (if 0 < delta then decreaseTokenQuota db s.relayInfo.tokenId delta tokenFault
        else increaseTokenQuota db s.relayInfo.tokenId (-delta) tokenFault) with
    | error e =>
      simp only [hr, Prod.mk.injEq] at h
      obtain ⟨rfl, rfl⟩ := h
      exact .inl ⟨rfl, fun hn => by cases hn⟩
    | ok d =>
      simp only [hr, Prod.mk.injEq] at h
      obtain ⟨rfl, rfl⟩ := h
      refine .inr ⟨rfl, ?_⟩
      split_ifs at hr with hpos
      · exact (quotaStatement_eq_ok.mp hr).2.2
      · have hd := (quotaStatement_eq_ok.mp hr).2.2
        rwa [neg_neg] at hd

theorem settleToken_taken {delta : Int} (h : s.settleToken db delta tokenFault = (db', err)) :
    taken db'.journal s.funding.account = taken db.journal s.funding.account := by
  rcases settleToken_cases h with ⟨rfl, -⟩ | ⟨-, rfl⟩
  · rfl
  · rw [post_journal, taken_append, taken_singleton, if_neg (account_ne_token s.funding _).symm, add_zero]

/-- What a `Settle` on a session that is not settled did: a failed funding step, nothing to move, or
both steps. -/
theorem settle_cases (hopen : s.settled = false) (hfund : s.fundingSettled = false)
    (h : s.settle db actual fundingFault tokenFault = (s', db', err)) :
    (s' = s ∧ db' = db ∧ ∃ e, s.funding.settle db (actual - s.preConsumedQuota) fundingFault = .error e) ∨
    (actual = s.preConsumedQuota ∧ s' = { s with settled := true } ∧ db' = db) ∨
    ∃ db₁ info, actual ≠ s.preConsumedQuota ∧ s.funding.settle db (actual - s.preConsumedQuota) fundingFault = .ok db₁ ∧
      s.settleToken db₁ (actual - s.preConsumedQuota) tokenFault = (db', err) ∧
      info.tokenId = s.relayInfo.tokenId ∧ info.isPlayground = s.relayInfo.isPlayground ∧
      s' = { s with relayInfo := info, fundingSettled := true, settled := true } := by
  simp only [settle] at h
  rw [if_neg (by simp [hopen])] at h
  by_cases h0 : actual - s.preConsumedQuota = 0
  · rw [if_pos h0] at h
    simp only [Prod.mk.injEq] at h
    exact .inr (.inl ⟨by omega, h.1.symm, h.2.1.symm⟩)
  rw [if_neg h0] at h
  cases hf : s.funding.settle db (actual - s.preConsumedQuota) fundingFault with
  | error e =>
    simp only [hfund, Bool.false_eq_true, if_false, hf, Prod.mk.injEq] at h
    exact .inl ⟨h.1.symm, h.2.1.symm, e, rfl⟩
  | ok db₁ =>
    simp only [hfund, Bool.false_eq_true, if_false, hf, Prod.mk.injEq] at h
    obtain ⟨rfl, rfl, rfl⟩ := h
    refine .inr (.inr ⟨db₁, _, by omega, rfl, rfl, ?_, ?_, rfl⟩)
    · split_ifs <;> rfl
    · split_ifs <;> rfl

theorem settle_relayInfo (h : s.settle db actual fundingFault tokenFault = (s', db', err)) :
    s'.relayInfo = { s.relayInfo with
      subscriptionPostDelta := s'.relayInfo.subscriptionPostDelta } := by
  simp only [settle] at h
  split at h
  · simp only [Prod.mk.injEq] at h
    rw [← h.1]
  split at h
  · simp only [Prod.mk.injEq] at h
    rw [← h.1]
  split at h
  · simp only [Prod.mk.injEq] at h
    rw [← h.1]
  · simp only [Prod.mk.injEq] at h
    rw [← h.1]
    split <;> rfl

theorem settle_settled (hset : s.settled = true) : s.settle db actual fundingFault tokenFault = (s, db, none) := by
  simp [settle, hset]

end Settle

/-! ### Refund -/

section Refund

variable {s s' : BillingSession} {db db' : DB}

def jobOf (s : BillingSession) : RefundJob :=
  { tokenId := s.relayInfo.tokenId
    isPlayground := s.relayInfo.isPlayground
    tokenConsumed := s.tokenConsumed
    extraReserved := s.extraReserved
    subscriptionId := s.relayInfo.subscriptionId
    funding := s.funding }

theorem refund_cases {job : Option RefundJob} (h : s.refund = (s', job)) : (s' = s ∧ job = none) ∨
      (s.settled = false ∧ s' = { s with refunded := true } ∧ job = some (jobOf s)) := by
  unfold refund at h
  split_ifs at h with hskip
  · simp only [Prod.mk.injEq] at h
    exact .inl ⟨h.1.symm, h.2.symm⟩
  · simp only [Prod.mk.injEq] at h
    simp only [Bool.or_eq_true, not_or, Bool.not_eq_true] at hskip
    exact .inr ⟨hskip.1.1, h.1.symm, h.2.symm⟩

theorem refund_closed (hclosed : s.settled = true ∨ s.refunded = true) : s.refund = (s, none) := by
  unfold refund
  rcases hclosed with h | h <;> simp [h]

theorem logged_nil {r : Except String DB} {log : List String}
    (h : logged db r log = (db', [])) : log = [] ∧ r = .ok db' := by
  unfold logged at h
  cases r with
  | ok d =>
    simp only [Prod.mk.injEq] at h
    exact ⟨h.2, by rw [h.1]⟩
  | error e => simp at h

variable {wallet : Fault} {attempt : ℕ → RefundFaults}

theorem wallet_refund_moves {w : WalletFunding}
    (hnn : 0 ≤ w.consumed) (h : (FundingSource.wallet w).refund db wallet attempt = (db', none)) :
    Moves db db' (.wallet w.userId) (-w.consumed) := by
  simp only [FundingSource.refund] at h
  by_cases h0 : w.consumed ≤ 0
  · rw [if_pos h0] at h
    simp only [Prod.mk.injEq, and_true] at h
    have hz : w.consumed = 0 := by omega
    rw [h, hz, neg_zero]
    exact Moves.refl _ _
  · rw [if_neg h0] at h
    cases hi : increaseUserQuota db w.userId w.consumed wallet with
    | error e => simp [hi] at h
    | ok d =>
      simp only [hi, Prod.mk.injEq, and_true] at h
      subst h
      obtain ⟨-, -, rfl⟩ := quotaStatement_eq_ok.mp hi
      exact Moves.post _ _ _ _

/-- A subscription refund without an error gives back the recorded amount, however many attempts it
took, if no attempt failed after its usage update. -/
theorem subscription_refund_moves {g : SubscriptionFunding}
    (hsafe : ∀ n < 3, (attempt n).save = none ∧ (attempt n).commit = none) (hpos : 0 < g.preConsumed)
    (hrec : db.records.lookup g.requestId = some ⟨g.userId, g.subscriptionId, g.preConsumed, .consumed⟩)
    (h : (FundingSource.subscription g).refund db wallet attempt = (db', none)) :
    Moves db db' (.subscription g.subscriptionId) (-g.preConsumed) := by
  have h0 : ¬ g.preConsumed ≤ 0 := by omega
  simp only [FundingSource.refund, if_neg h0] at h
  refine refundWithRetry_none (P := fun d d' => d.records.lookup g.requestId =
      some ⟨g.userId, g.subscriptionId, g.preConsumed, .consumed⟩ →
    Moves d d' (.subscription g.subscriptionId) (-g.preConsumed)) ?_ ?_ (by omega) h hrec
  · intro n d d' hn hd
    exact refundSubscriptionPreConsume_moves hd rfl hpos hn
  · intro m hm d d' e he
    exact refundSubscriptionPreConsume_fails (hsafe m hm).1 (hsafe m hm).2 he

variable {f : RefundJobFaults}

theorem RefundJob.run_nil {j : RefundJob} (h : j.run db f = (db', [])) :
    ∃ db₁ db₂, j.funding.refund db f.wallet f.attempt = (db₁, none) ∧
      (if 0 < j.extraReserved ∧ j.funding.source = .subscription ∧ 0 < j.subscriptionId then
        postConsumeUserSubscriptionDelta db₁ j.subscriptionId (-j.extraReserved) f.extra = .ok db₂
      else db₂ = db₁) ∧ (if 0 < j.tokenConsumed ∧ j.isPlayground = false then
        increaseTokenQuota db₂ j.tokenId j.tokenConsumed f.token = .ok db' else db' = db₂) := by
  rcases hr : j.funding.refund db f.wallet f.attempt with ⟨db₁, err⟩
  simp only [RefundJob.run, hr] at h
  -- the last statement first: an empty log at the end was empty before it
  have hlast : ∀ db₂ log, (if 0 < j.tokenConsumed ∧ j.isPlayground = false then
      logged db₂ (increaseTokenQuota db₂ j.tokenId j.tokenConsumed f.token) log
      else (db₂, log)) = (db', []) → log = [] ∧
      if 0 < j.tokenConsumed ∧ j.isPlayground = false then
        increaseTokenQuota db₂ j.tokenId j.tokenConsumed f.token = .ok db'
      else db' = db₂ := by
    intro db₂ log hl
    split_ifs at hl ⊢ with hc
    · exact logged_nil hl
    · simp only [Prod.mk.injEq] at hl
      exact ⟨hl.2, hl.1.symm⟩
  by_cases hx : 0 < j.extraReserved ∧ j.funding.source = .subscription ∧ 0 < j.subscriptionId
  · simp only [if_pos hx] at h
    rcases hl : logged db₁ (postConsumeUserSubscriptionDelta db₁ j.subscriptionId
        (-j.extraReserved) f.extra) err.toList with ⟨db₂, log⟩
    simp only [hl] at h
    obtain ⟨rfl, htok⟩ := hlast db₂ log h
    obtain ⟨herr, hd⟩ := logged_nil hl
    rw [Option.toList_eq_nil_iff] at herr
    subst herr
    exact ⟨db₁, db₂, rfl, by rw [if_pos hx]; exact hd, htok⟩
  · simp only [if_neg hx] at h
    obtain ⟨herr, htok⟩ := hlast db₁ err.toList h
    rw [Option.toList_eq_nil_iff] at herr
    subst herr
    exact ⟨db₁, db₁, rfl, by rw [if_neg hx], htok⟩

theorem refund_source_moves {db₁ db₂ : DB} (hholds : Holds s db)
    (hsafe : ∀ n < 3, (f.attempt n).save = none ∧ (f.attempt n).commit = none)
    (h₁ : s.funding.refund db f.wallet f.attempt = (db₁, none))
    (h₂ : if 0 < s.extraReserved ∧ s.funding.source = .subscription ∧ 0 < s.relayInfo.subscriptionId then
      postConsumeUserSubscriptionDelta db₁ s.relayInfo.subscriptionId (-s.extraReserved) f.extra = .ok db₂
      else db₂ = db₁) : Moves db db₂ s.funding.account (-s.preConsumedQuota) := by
  have hb := hholds.backed
  have hnn := hholds.nonneg
  unfold Backed at hb
  cases hs : s.funding with
  | wallet w =>
    rw [hs] at h₁
    simp only [hs] at hb
    simp only [hs, FundingSource.source, reduceCtorEq, false_and, and_false, if_false] at h₂
    subst h₂
    rw [← hb]
    exact wallet_refund_moves (by omega) h₁
  | subscription g =>
    rw [hs] at h₁
    simp only [hs] at hb
    obtain ⟨hpre, hext, hsum, hid, hpos, hrec⟩ := hb
    have hm₁ := subscription_refund_moves hsafe hpre hrec h₁
    simp only [hs, FundingSource.source, hid, true_and] at h₂
    by_cases hx : 0 < s.extraReserved
    · rw [if_pos ⟨hx, hpos hx⟩] at h₂
      have hsum' : -s.preConsumedQuota = -g.preConsumed + -s.extraReserved := by omega
      rw [hsum']
      exact hm₁.trans (postConsume_moves h₂)
    · rw [if_neg (fun hc => hx hc.1)] at h₂
      subst h₂
      have hsum' : s.preConsumedQuota = g.preConsumed := by omega
      rw [hsum']
      exact hm₁

theorem run_returns_all (hholds : Holds s db) (hsafe : ∀ n < 3, (f.attempt n).save = none ∧ (f.attempt n).commit = none)
    (h : (jobOf s).run db f = (db', [])) (hfull : AppliedInFull db'.journal) :
    taken db'.journal s.funding.account = 0 ∧ (s.relayInfo.isPlayground = false →
        taken db'.journal (.token s.relayInfo.tokenId) = 0) := by
  obtain ⟨db₁, db₂, h₁, h₂, h₃⟩ := RefundJob.run_nil h
  have hm := refund_source_moves hholds hsafe h₁ h₂
  have hfund := hholds.funding
  simp only [jobOf, hholds.consumed] at h₃
  split_ifs at h₃ with hc
  · obtain ⟨-, -, rfl⟩ := quotaStatement_eq_ok.mp h₃
    have hnet := hm.net (hfull.anti (Moves.post _ _ _ _).journal)
    refine ⟨?_, fun hp => ?_⟩
    · simp only [post_journal, taken_append, taken_singleton, hnet, if_true,
        if_neg (account_ne_token s.funding _).symm]
      omega
    · have ht := hholds.token hp
      simp only [post_journal, taken_append, taken_singleton, hnet, if_true, if_neg (account_ne_token s.funding _)]
      omega
  · subst h₃
    have hnet := hm.net hfull
    refine ⟨?_, fun hp => ?_⟩
    · rw [hnet, if_pos rfl]
      omega
    · -- no token refund is due, so the token never paid
      have hz : ¬ 0 < s.preConsumedQuota := fun hpos => hc ⟨hpos, hp⟩
      have hnn := hholds.nonneg
      rw [hnet, if_neg (account_ne_token _ _), hholds.token hp]
      omega

end Refund

end WynthApi.Billing

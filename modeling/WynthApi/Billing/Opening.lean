import WynthApi.Billing.Session

/-!
# Every session starts with honest counters

While a session is open, its counters agree with the journal (`Holds`).  This module proves it for
the sessions `NewBillingSession` returns: a try that fails leaves nothing taken (`Clean`), so the
next source starts from a clean slate, and a try that succeeds returns an `Opened` session.
-/

namespace WynthApi.Billing

open Store BillingSession

/-! ### What an open session holds -/

variable (s : BillingSession)

def Backed (db : DB) : Prop :=
  match s.funding with
  | .wallet w => w.consumed = s.preConsumedQuota
  | .subscription f =>
    0 < f.preConsumed ∧ 0 ≤ s.extraReserved ∧
    f.preConsumed + s.extraReserved = s.preConsumedQuota ∧
    s.relayInfo.subscriptionId = f.subscriptionId ∧
    (0 < s.extraReserved → 0 < f.subscriptionId) ∧
    db.records.lookup f.requestId = some ⟨f.userId, f.subscriptionId, f.preConsumed, .consumed⟩

/-- The session's counters are what the journal says was taken. -/
structure Holds (db : DB) : Prop where
  funding : taken db.journal s.funding.account = s.preConsumedQuota
  token : s.relayInfo.isPlayground = false →
    taken db.journal (.token s.relayInfo.tokenId) = s.preConsumedQuota
  nonneg : 0 ≤ s.preConsumedQuota
  consumed : s.tokenConsumed = s.preConsumedQuota
  backed : Backed s db

theorem account_ne_token (f : FundingSource) (t : Int) : f.account ≠ .token t := by
  cases f <;> simp [FundingSource.account]

variable {db db' : DB} {a : PreConsumeAnswers}

theorem Holds.congr {s : BillingSession} (h : Holds s db) (htaken : ∀ a, taken db'.journal a = taken db.journal a)
    (hrec : ∀ f, s.funding = .subscription f → db'.records.lookup f.requestId = db.records.lookup f.requestId) :
    Holds s db' := by
  refine ⟨by rw [htaken]; exact h.funding, fun hp => by rw [htaken]; exact h.token hp, h.nonneg, h.consumed, ?_⟩
  have hb := h.backed
  unfold Backed at hb ⊢
  cases hs : s.funding with
  | wallet w =>
    simp only [hs] at hb
    exact hb
  | subscription f =>
    simp only [hs] at hb
    simp only [hrec f hs]
    exact hb

/-! ### Building a session -/

/-- Nothing has been taken yet, and the request id has no record. -/
structure Clean (db : DB) (requestId : String) : Prop where
  full : AppliedInFull db.journal
  zero : ∀ a, taken db.journal a = 0
  record : db.records.lookup requestId = none

variable {db₁ : DB} {q : Int}

/-- What the token step of `preConsume` did: nothing for a playground, else one full debit. -/
theorem preConsumeToken_cases {cfg : BillingConfig} {s : BillingSession}
    (h : s.preConsumeToken cfg db q a = .ok db₁) : (db₁ = db ∧ (0 < q → s.relayInfo.isPlayground = true)) ∨
      (0 < q ∧ s.relayInfo.isPlayground = false ∧ db₁ = db.post (.token s.relayInfo.tokenId) q q) := by
  unfold preConsumeToken at h
  by_cases hq : 0 < q
  · rw [if_pos hq] at h
    obtain ⟨-, ⟨hp, rfl⟩ | ⟨hp, rfl⟩⟩ := preConsumeTokenQuota_cases h
    · exact .inl ⟨rfl, fun _ => hp⟩
    · exact .inr ⟨hq, hp, rfl⟩
  · rw [if_neg hq] at h
    exact .inl ⟨(Except.ok.inj h).symm, fun h' => absurd h' hq⟩

variable {amount u : Int} {f : FundingSource}

theorem wallet_preConsume_ok (hamount : 0 ≤ amount) (hfull : AppliedInFull db.journal)
    (h : (FundingSource.wallet ⟨u, 0⟩).preConsume a db amount = .ok (f, db')) :
    f = .wallet ⟨u, amount⟩ ∧ AppliedInFull db'.journal ∧ Moves db db' (.wallet u) amount := by
  simp only [FundingSource.preConsume] at h
  by_cases h0 : amount ≤ 0
  · rw [if_pos h0] at h
    obtain ⟨rfl, rfl⟩ := Prod.mk.inj (Except.ok.inj h)
    have hz : amount = 0 := by omega
    subst hz
    exact ⟨rfl, hfull, Moves.refl _ _⟩
  · rw [if_neg h0] at h
    cases hd : decreaseUserQuota db u amount a.walletFault with
    | error e => simp [hd] at h
    | ok d =>
      simp only [hd] at h
      obtain ⟨rfl, rfl⟩ := Prod.mk.inj (Except.ok.inj h)
      obtain ⟨-, -, rfl⟩ := quotaStatement_eq_ok.mp hd
      exact ⟨rfl, hfull.post _ _, Moves.post _ _ _ _⟩

theorem subscription_preConsume_ok (hdup : a.tx.dup = none) {f : SubscriptionFunding}
    {g : FundingSource} (hfresh : db.records.lookup f.requestId = none) (hfull : AppliedInFull db.journal)
    (h : (FundingSource.subscription f).preConsume a db amount = .ok (g, db')) :
    ∃ f', g = .subscription f' ∧ 0 < f.amount ∧ f'.preConsumed = f.amount ∧
      AppliedInFull db'.journal ∧ Moves db db' (.subscription f'.subscriptionId) f.amount ∧
      db'.records.lookup f'.requestId = some ⟨f'.userId, f'.subscriptionId, f'.preConsumed, .consumed⟩ ∧
      (db'.subs.lookup f'.subscriptionId).isSome := by
  simp only [FundingSource.preConsume] at h
  cases hp : preConsumeUserSubscription a.tx db f.requestId f.userId f.amount with
  | error e => simp [hp] at h
  | ok r =>
    obtain ⟨d, res⟩ := r
    obtain ⟨hpos, hpre, hj, hrec, hsub⟩ := preConsumeUserSubscription_spec hdup hfresh hp
    have hd : AppliedInFull d.journal := by
      rw [hj]
      intro e he
      rcases List.mem_append.mp he with he | he
      · exact hfull e he
      · rw [List.mem_singleton.mp he]
    have hm : Moves db d (.subscription res.userSubscriptionId) f.amount := by
      refine ⟨?_, fun _ b => ?_⟩
      · rw [hj]
        exact List.prefix_append _ _
      · rw [hj, taken_append, taken_singleton]
    simp only [hp] at h
    cases hi : a.planInfo res.userSubscriptionId with
    | none | some =>
      simp only [hi] at h
      obtain ⟨rfl, rfl⟩ := Prod.mk.inj (Except.ok.inj h)
      exact ⟨_, rfl, hpos, hpre, hd, hm, by rw [hrec, hpre], hsub⟩

def Named : Prop :=
  s.relayInfo.billingSource = some s.funding.source ∧
    match s.funding with
    | .wallet w => w.userId = s.relayInfo.userId
    | .subscription f => s.relayInfo.subscriptionId = f.subscriptionId

structure Opened (db : DB) : Prop where
  named : Named s
  stored : ∀ f, s.funding = .subscription f → (db.subs.lookup f.subscriptionId).isSome
  holds : Holds s db
  full : AppliedInFull db.journal
  extra : s.extraReserved = 0
  unsettled : s.settled = false
  unrefunded : s.refunded = false
  unfunded : s.fundingSettled = false

variable {e : NewAPIError}

section PreConsume

variable {cfg : BillingConfig} {tokenQuota quota : Int} {a : PreConsumeAnswers} {info : RelayInfo}
  {db db' : DB} {requestId : String} {trusted : Bool}

theorem rollbackToken_cases (ht : (fresh info f).preConsumeToken cfg db q a = .ok db₁) :
    ((fresh info f).tokenTaken trusted q).rollbackToken db₁ none = db ∨
      ((fresh info f).tokenTaken trusted q).rollbackToken db₁ none =
        (db.post (.token info.tokenId) q q).post (.token info.tokenId) (-q) (-q) := by
  rcases preConsumeToken_cases ht with ⟨rfl, hpl⟩ | ⟨hq, hpl, rfl⟩
  · -- nothing was taken from the token, so there is nothing to roll back
    have hno : ¬ (0 < ((fresh info f).tokenTaken trusted q).tokenConsumed ∧
        ((fresh info f).tokenTaken trusted q).relayInfo.isPlayground = false) := by
      rintro ⟨hpos, hfalse⟩
      by_cases hq : 0 < q
      · have hfresh : (fresh info f).relayInfo.isPlayground = false := hfalse
        rw [hpl hq] at hfresh
        cases hfresh
      · simp [tokenTaken, fresh, hq] at hpos
    left
    rw [rollbackToken, if_neg hno]
  · have hpl' : info.isPlayground = false := hpl
    have hq' : ¬ q < 0 := by omega
    right
    simp only [rollbackToken, tokenTaken, fresh,
      increaseTokenQuota, quotaStatement, hq, hpl', hq', if_true, if_false, and_self]

theorem rollbackToken_clean (hclean : Clean db requestId) (ht : (fresh info f).preConsumeToken cfg db q a = .ok db₁) :
    Clean (((fresh info f).tokenTaken trusted q).rollbackToken db₁ none) requestId := by
  rcases rollbackToken_cases ht with heq | heq
  · rw [heq]
    exact hclean
  · rw [heq]
    refine ⟨(hclean.full.post _ _).post _ _, fun b => ?_, by simpa using hclean.record⟩
    simp only [post_journal, taken_append, taken_singleton, hclean.zero b]
    split_ifs <;> omega

theorem preConsume_error (hclean : Clean db requestId) (hroll : a.rollbackFault = none)
    (h : (fresh info f).preConsume cfg tokenQuota a db quota = (db', .error e)) : Clean db' requestId := by
  obtain ⟨rfl, -⟩ | ⟨db₁, ht, ⟨rfl, -⟩ | ⟨g, -, hr⟩⟩ := preConsume_cases h
  · exact hclean
  · rw [hroll]
    exact rollbackToken_clean hclean ht
  · cases hr

variable {s : BillingSession}

theorem preConsumeToken_holds (hq : 0 ≤ q) (hclean : Clean db requestId)
    (h : s.preConsumeToken cfg db q a = .ok db₁) : AppliedInFull db₁.journal ∧ db₁.records = db.records ∧
      (∀ f : FundingSource, taken db₁.journal f.account = 0) ∧ (s.relayInfo.isPlayground = false →
        taken db₁.journal (.token s.relayInfo.tokenId) = q) := by
  rcases preConsumeToken_cases h with ⟨rfl, hpl⟩ | ⟨-, hpl, rfl⟩
  · refine ⟨hclean.full, rfl, fun f => hclean.zero _, fun hf => ?_⟩
    have hq0 : ¬ 0 < q := fun hpos => by simp [hpl hpos] at hf
    rw [hclean.zero]
    omega
  · refine ⟨hclean.full.post _ _, post_records _ _ _ _, fun f => ?_, fun _ => ?_⟩
    · simp [hclean.zero, (account_ne_token f _).symm]
    · simp [hclean.zero]

theorem preConsume_wallet_ok (hu : u = info.userId) (hquota : 0 ≤ quota) (hclean : Clean db requestId)
    (h : (fresh info (.wallet ⟨u, 0⟩)).preConsume cfg tokenQuota a db quota = (db', .ok s)) : Opened s db' := by
  obtain ⟨-, e, hr⟩ | ⟨db₁, ht, ⟨-, e, hr⟩ | ⟨f, hp, hr⟩⟩ := preConsume_cases h
  · cases hr
  · cases hr
  set q := (fresh info (.wallet ⟨u, 0⟩)).effectiveQuota cfg tokenQuota quota with hqdef
  have hq : 0 ≤ q := by
    rw [hqdef, effectiveQuota]
    split_ifs <;> omega
  obtain ⟨hfull₁, -, hzero, htok⟩ := preConsumeToken_holds hq hclean ht
  obtain ⟨rfl, hfull, hm⟩ := wallet_preConsume_ok hq hfull₁ hp
  have hs := Except.ok.inj hr
  subst hs
  refine ⟨⟨rfl, hu⟩, nofun, ⟨?_, fun hpl => ?_, hq, ?_, rfl⟩, hfull, rfl, rfl, rfl, rfl⟩
  · have h0 : taken db₁.journal (.wallet u) = 0 := hzero (.wallet ⟨u, 0⟩)
    change taken db'.journal (.wallet u) = q
    rw [hm.net hfull, h0, if_pos rfl, zero_add]
  · change taken db'.journal (.token info.tokenId) = q
    rw [hm.net hfull, if_neg (by simp), add_zero]
    exact htok hpl
  · change (if 0 < q then q else 0) = q
    split_ifs <;> omega

theorem preConsume_subscription_ok {f : SubscriptionFunding} (hamount : f.amount = quota)
    (hid : f.requestId = requestId) (hdup : a.tx.dup = none) (hclean : Clean db requestId)
    (h : (fresh info (.subscription f)).preConsume cfg tokenQuota a db quota = (db', .ok s)) : Opened s db' := by
  obtain ⟨-, e, hr⟩ | ⟨db₁, ht, ⟨-, e, hr⟩ | ⟨g, hp, hr⟩⟩ := preConsume_cases h
  · cases hr
  · cases hr
  -- a subscription is never trusted, so the token and the source are asked for the same amount
  have heff : (fresh info (.subscription f)).effectiveQuota cfg tokenQuota quota = quota := by
    have htrust : (fresh info (.subscription f)).shouldTrust cfg tokenQuota = false := by
      simp [shouldTrust, fresh, FundingSource.source]
    rw [effectiveQuota, htrust]
    rfl
  rw [heff] at ht hp hr
  have hfull₀ : AppliedInFull db₁.journal ∧ db₁.records = db.records := by
    rcases preConsumeToken_cases ht with ⟨rfl, -⟩ | ⟨-, -, rfl⟩
    · exact ⟨hclean.full, rfl⟩
    · exact ⟨hclean.full.post _ _, post_records _ _ _ _⟩
  have hfresh : db₁.records.lookup f.requestId = none := by
    rw [hfull₀.2, hid]
    exact hclean.record
  obtain ⟨f', rfl, hpos, hpre, hfull, hm, hrec, hsub⟩ := subscription_preConsume_ok hdup hfresh hfull₀.1 hp
  have hq : 0 ≤ quota := by omega
  obtain ⟨-, -, hzero, htok⟩ := preConsumeToken_holds hq hclean ht
  have hs := Except.ok.inj hr
  subst hs
  refine ⟨⟨rfl, rfl⟩, fun g hg => ?_, ⟨?_, fun hpl => ?_, hq, ?_, ?_⟩, hfull, rfl, rfl, rfl, rfl⟩
  · obtain rfl := FundingSource.subscription.inj hg
    exact hsub
  · have h0 : taken db₁.journal (.subscription f'.subscriptionId) = 0 := hzero (.subscription f')
    change taken db'.journal (.subscription f'.subscriptionId) = quota
    rw [hm.net hfull, h0, if_pos rfl, zero_add, hamount]
  · change taken db'.journal (.token info.tokenId) = quota
    rw [hm.net hfull, if_neg (by simp), add_zero]
    exact htok hpl
  · change (if 0 < quota then quota else 0) = quota
    split_ifs <;> omega
  · change 0 < f'.preConsumed ∧ (0 : Int) ≤ 0 ∧ f'.preConsumed + 0 = quota ∧
      f'.subscriptionId = f'.subscriptionId ∧ ((0 : Int) < 0 → 0 < f'.subscriptionId) ∧ _
    exact ⟨by omega, le_rfl, by omega, rfl, fun h => absurd h (lt_irrefl 0), hrec⟩

end PreConsume

section New

variable {cfg : BillingConfig} {env : SessionEnv} {info : RelayInfo} {db : DB} {quota : Int}
  {s : BillingSession}

/-- The wallet is refused before anything is taken, or pre-consumed from; of the request only the user
quota may have been written. -/
theorem tryWallet_cases (cfg : BillingConfig) (env : SessionEnv) (info : RelayInfo) (db : DB) (quota : Int) :
    (∃ e, tryWallet cfg env info db quota = ⟨db, info, .error e⟩) ∨
      ∃ info', info'.requestId = info.requestId ∧ ∀ db' result,
        (fresh info' (.wallet ⟨info'.userId, 0⟩)).preConsume cfg env.tokenQuota env.wallet db
          quota = (db', result) → tryWallet cfg env info db quota = ⟨db', info', result⟩ := by
  unfold tryWallet
  cases env.userQuota with
  | error e => exact .inl ⟨_, rfl⟩
  | ok userQuota =>
    by_cases h0 : userQuota ≤ 0
    · exact .inl ⟨_, if_pos h0⟩
    by_cases h1 : userQuota < quota
    · exact .inl ⟨_, (if_neg h0).trans (if_pos h1)⟩
    · refine .inr ⟨{ info with userQuota }, rfl, fun db' result hrun => ?_⟩
      simp only [if_neg h0, if_neg h1, hrun]

theorem tryWallet_ok (hquota : 0 ≤ quota) (hclean : Clean db info.requestId)
    (h : (tryWallet cfg env info db quota).result = .ok s) : Opened s (tryWallet cfg env info db quota).db := by
  rcases tryWallet_cases cfg env info db quota with ⟨e, heq⟩ | ⟨info', -, hrun⟩
  · rw [heq] at h
    cases h
  · rw [hrun _ _ rfl] at h ⊢
    exact preConsume_wallet_ok rfl hquota hclean (Prod.ext rfl h)

theorem tryWallet_error (hclean : Clean db info.requestId)
    (hroll : env.wallet.rollbackFault = none) (h : (tryWallet cfg env info db quota).result = .error e) :
    Clean (tryWallet cfg env info db quota).db info.requestId ∧
      (tryWallet cfg env info db quota).relayInfo.requestId = info.requestId := by
  rcases tryWallet_cases cfg env info db quota with ⟨e, heq⟩ | ⟨info', hid, hrun⟩
  · rw [heq]
    exact ⟨hclean, rfl⟩
  · rw [hrun _ _ rfl] at h ⊢
    exact ⟨preConsume_error hclean hroll (Prod.ext rfl h), hid⟩

/-- A try that opens a session as `Q` says, or fails and leaves the request and the tables as `P` says. -/
def Attempt.Gives (P : RelayInfo → DB → Prop) (Q : BillingSession → DB → Prop) (a : Attempt) : Prop :=
  (∀ s, a.result = .ok s → Q s a.db) ∧ ∀ e, a.result = .error e → P a.relayInfo a.db

def Opens (P : RelayInfo → DB → Prop) (Q : BillingSession → DB → Prop)
    (r : DB × Except NewAPIError BillingSession) : Prop :=
  (∀ s, r.2 = .ok s → Q s r.1) ∧ ∀ e, r.2 = .error e → ∃ info, P info r.1

section rule

variable {P : RelayInfo → DB → Prop} {Q : BillingSession → DB → Prop} {a : Attempt}

theorem Attempt.Gives.opens (h : a.Gives P Q) : Opens P Q (a.db, a.result) :=
  ⟨h.1, fun e he => ⟨a.relayInfo, h.2 e he⟩⟩

theorem Opens.error (h : P info db) (e : NewAPIError) : Opens P Q (db, .error e) :=
  ⟨fun _ hs => absurd hs (by simp), fun _ _ => ⟨info, h⟩⟩

theorem Opens.ok (h : Q s db) : Opens P Q (db, .ok s) :=
  ⟨fun _ hs => Except.ok.inj hs ▸ h, fun _ he => absurd he (by simp)⟩

/-- **Rule for `NewBillingSession`**: it tries one source, and the other if it may fall back. -/
theorem newBillingSession_opens (hinit : P info db)
    (hwallet : ∀ info db, 0 ≤ quota → P info db → (tryWallet cfg env info db quota).Gives P Q)
    (hsub : ∀ info db, P info db → (trySubscription cfg env info db quota).Gives P Q) :
    Opens P Q (newBillingSession cfg env (some info) db quota) := by
  simp only [newBillingSession]
  by_cases hneg : quota < 0
  · rw [if_pos hneg]
    exact .error hinit _
  rw [if_neg hneg]
  have hquota : 0 ≤ quota := by omega
  have hw := hwallet info db hquota hinit
  have hs := hsub info db hinit
  cases normalizeBillingPreference info.billingPreference with
  | subscriptionOnly => exact hs.opens
  | walletOnly => exact hw.opens
  | walletFirst =>
    cases hres : (tryWallet cfg env info db quota).result with
    | ok s => exact .ok (hw.1 s hres)
    | error e =>
      have hfailed := hw.2 e hres
      dsimp only
      split_ifs
      · exact (hsub _ _ hfailed).opens
      · exact .error hfailed e
  | subscriptionFirst =>
    cases env.hasActiveSubscription with
    | error e => exact .error hinit _
    | ok has =>
      cases has with
      | false => exact hw.opens
      | true =>
        cases hres : (trySubscription cfg env info db quota).result with
        | ok s => exact .ok (hs.1 s hres)
        | error e =>
          have hfailed := hs.2 e hres
          dsimp only
          split_ifs
          · cases env.allowWalletOverflow with
            | error e' => exact .error hfailed _
            | ok allow =>
              cases allow with
              | false => exact .error hfailed e
              | true => exact (hwallet _ _ hquota hfailed).opens
          · exact .error hfailed e

end rule

/-- Every session that `NewBillingSession` returns starts with counters that agree with the journal,
whichever source it fell back to. -/
theorem newBillingSession_opened (hclean : Clean db info.requestId)
    (hwallet : env.wallet.rollbackFault = none) (hsub : env.subscription.rollbackFault = none)
    (hdup : env.subscription.tx.dup = none)
    (h : newBillingSession cfg env (some info) db quota = (db', .ok s)) : Opened s db' := by
  have hopened := (@newBillingSession_opens cfg env info db quota (fun info db => Clean db info.requestId) Opened hclean
    (fun _ _ hquota hclean => ⟨fun _ hs => tryWallet_ok hquota hclean hs, fun _ he => by
      obtain ⟨hclean', hid⟩ := tryWallet_error hclean hwallet he
      rwa [hid]⟩)
    (fun _ _ hclean => ⟨fun _ hs => preConsume_subscription_ok rfl rfl hdup hclean (Prod.ext rfl hs),
      fun _ he => preConsume_error hclean hsub (Prod.ext rfl he)⟩)).1 s (by rw [h])
  rwa [h] at hopened

end New

end WynthApi.Billing

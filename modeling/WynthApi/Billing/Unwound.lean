import WynthApi.Billing.Conservation
import WynthApi.Store.Period

/-!
# A failed pre-consume or reserve charges nobody

`NewBillingSession` takes from the token first and from the funding source second, `Reserve` the other way round; each
gives the first back when the second refuses.  The tables before and after a failed call are compared row by row
(`Unwound`).

The roll-back of a subscription goes through the clamp at zero of
`PostConsumeUserSubscriptionDelta`, so it is exact on rows whose used amount is not negative
(`UsedNonneg`), which every writer of `amount_used` keeps.
-/

namespace WynthApi.Store

structure Unwound (db db' : DB) : Prop where
  userQuota : db'.userQuota = db.userQuota
  tokenQuota : db'.tokenQuota = db.tokenQuota
  subs : ∀ i, db'.subs.lookup i = db.subs.lookup i

namespace Unwound

theorem refl (db : DB) : Unwound db db := ⟨rfl, rfl, fun _ => rfl⟩

theorem trans {db db₁ db₂ : DB} (h : Unwound db db₁) (h' : Unwound db₁ db₂) : Unwound db db₂ :=
  ⟨h'.userQuota.trans h.userQuota, h'.tokenQuota.trans h.tokenQuota, fun i => (h'.subs i).trans (h.subs i)⟩

end Unwound

theorem unwound_post_post (db : DB) (a : Account) (r r' x : Int) : Unwound db ((db.post a r x).post a r' (-x)) := by
  cases a with
  | wallet u =>
    refine ⟨?_, rfl, fun _ => rfl⟩
    simp [DB.post]
  | token t =>
    refine ⟨rfl, ?_, fun _ => rfl⟩
    simp [DB.post]
  | subscription i =>
    have hquota : ((db.post (.subscription i) r x).post (.subscription i) r' (-x)).userQuota =
        db.userQuota ∧ ((db.post (.subscription i) r x).post (.subscription i) r' (-x)).tokenQuota = db.tokenQuota := by
      cases h : db.subs.lookup i with
      | none | some => simp [DB.post, h]
    refine ⟨hquota.1, hquota.2, fun j => ?_⟩
    by_cases hj : j = i
    · subst hj
      cases h : db.subs.lookup j with
      | none => simp [DB.post, h]
      | some sub =>
        rw [post_subs_self (post_subs_self h r x) r' (-x)]
        simp
    · have hne : Account.subscription i ≠ .subscription j := by
        intro h
        exact hj (Account.subscription.inj h).symm
      rw [post_subs_of_ne _ hne, post_subs_of_ne _ hne]

/-! ### Used amounts are never negative -/

/-- This holds in every run of the writers, by `Period.usage_within_limit`. -/
def UsedNonneg (db : DB) : Prop := ∀ i sub, db.subs.lookup i = some sub → 0 ≤ sub.amountUsed

end WynthApi.Store

namespace WynthApi.Billing

open Store

/-! ### NewBillingSession -/

section New

variable {cfg : BillingConfig} {env : SessionEnv} {info : RelayInfo} {db db' : DB} {quota : Int}
  {e : NewAPIError} {a : PreConsumeAnswers}

theorem rollbackToken_unwound {f : FundingSource} {db₁ : DB}
    {trusted : Bool} {q : Int} (ht : (BillingSession.fresh info f).preConsumeToken cfg db q a = .ok db₁) :
    Unwound db (((BillingSession.fresh info f).tokenTaken trusted q).rollbackToken db₁ none) := by
  rcases rollbackToken_cases ht with heq | heq
  · rw [heq]
    exact Unwound.refl _
  · rw [heq]
    exact unwound_post_post _ _ _ _ _

theorem preConsume_unwound {f : FundingSource} {tokenQuota : Int} (hroll : a.rollbackFault = none)
    (h : (BillingSession.fresh info f).preConsume cfg tokenQuota a db quota = (db', .error e)) : Unwound db db' := by
  obtain ⟨rfl, -⟩ | ⟨db₁, ht, ⟨rfl, -⟩ | ⟨g, -, hr⟩⟩ := BillingSession.preConsume_cases h
  · exact Unwound.refl _
  · rw [hroll]
    exact rollbackToken_unwound ht
  · cases hr

theorem tryWallet_unwound (hroll : env.wallet.rollbackFault = none)
    (h : (tryWallet cfg env info db quota).result = .error e) : Unwound db (tryWallet cfg env info db quota).db := by
  rcases tryWallet_cases cfg env info db quota with ⟨e, heq⟩ | ⟨info', -, hrun⟩
  · rw [heq]
    exact Unwound.refl _
  · rw [hrun _ _ rfl] at h ⊢
    exact preConsume_unwound hroll (Prod.ext rfl h)

/-- A `NewBillingSession` that fails leaves the quotas and the subscriptions as they were, also
after a fall-back from one source to the other. -/
theorem newBillingSession_unwound {relayInfo : Option RelayInfo}
    (hwallet : env.wallet.rollbackFault = none) (hsub : env.subscription.rollbackFault = none)
    (h : newBillingSession cfg env relayInfo db quota = (db', .error e)) : Unwound db db' := by
  cases relayInfo with
  | none =>
    rw [← (Prod.mk.inj h).1]
    exact Unwound.refl _
  | some info =>
    obtain ⟨-, hundo⟩ := (@newBillingSession_opens cfg env info db quota (fun _ db' => Unwound db db')
      (fun _ _ => True) (Unwound.refl db)
      (fun _ _ _ hundo => ⟨fun _ _ => trivial, fun _ he => hundo.trans (tryWallet_unwound hwallet he)⟩)
      (fun _ _ hundo => ⟨fun _ _ => trivial,
        fun _ he => hundo.trans (preConsume_unwound hsub (Prod.ext rfl he))⟩)).2 e (by rw [h])
    rwa [h] at hundo

end New

/-! ### Reserve -/

section Reserve

variable {cfg : BillingConfig} {s s' : BillingSession} {db db₁ db' : DB} {delta : Int}
  {f : FundingSource} {fault : Fault}

/-- Taking a positive delta off a subscription and giving it back cancel, the clamp included. -/
theorem postConsume_unwound {db₂ : DB} {i : Int} {fault' : Fault} (hused : UsedNonneg db)
    (hpos : 0 < delta) (h : postConsumeUserSubscriptionDelta db i delta fault = .ok db₁)
    (h' : postConsumeUserSubscriptionDelta db₁ i (-delta) fault' = .ok db₂) : Unwound db db₂ := by
  obtain ⟨-, ⟨h0, -⟩ | ⟨-, -, sub, hsub, -, rfl⟩⟩ := postConsume_cases h
  · omega
  obtain ⟨-, ⟨h0, -⟩ | ⟨-, -, sub', hsub', -, rfl⟩⟩ := postConsume_cases h'
  · omega
  have hnn := hused i sub hsub
  have hup : clampUsed sub.amountUsed delta - sub.amountUsed = delta := by
    rw [clampUsed_of_nonneg (by omega)]
    omega
  rw [hup] at hsub' ⊢
  rw [post_subs_self hsub] at hsub'
  have hdown : clampUsed sub'.amountUsed (-delta) - sub'.amountUsed = -delta := by
    rw [← Option.some.inj hsub']
    show clampUsed (sub.amountUsed + delta) (-delta) - (sub.amountUsed + delta) = -delta
    rw [clampUsed_of_nonneg (by omega)]
    omega
  rw [hdown]
  exact unwound_post_post _ _ _ _ _

theorem rollbackFundingReserve_unwound (hused : UsedNonneg db) (hpos : 0 < delta)
    (h : s.reserveFunding db delta fault = .ok (f, db₁)) :
    Unwound db (BillingSession.rollbackFundingReserve db₁ delta none f).2 := by
  obtain ⟨rfl, ⟨w, hs, hd⟩ | ⟨g, hs, hd⟩⟩ := reserveFunding_cases h
  · obtain ⟨-, -, rfl⟩ := quotaStatement_eq_ok.mp hd
    have hback : increaseUserQuota (db.post (.wallet w.userId) delta delta) w.userId delta none =
        .ok ((db.post (.wallet w.userId) delta delta).post (.wallet w.userId) (-delta) (-delta)) :=
      quotaStatement_eq_ok.mpr ⟨by omega, rfl, rfl⟩
    simp only [hs, FundingSource.reserved, BillingSession.rollbackFundingReserve, hback]
    exact unwound_post_post _ _ _ _ _
  · obtain ⟨db₂, hback⟩ := postConsume_undo hpos hd
    simp only [hs, FundingSource.reserved, BillingSession.rollbackFundingReserve, hback]
    exact postConsume_unwound hused hpos hd hback

theorem reserve_unwound {target : Int} {a : ReserveAnswers} {e : NewAPIError}
    (hused : UsedNonneg db) (hroll : a.rollbackFault = none)
    (h : s.reserve cfg db target a = (s', db', some e)) : Unwound db db' := by
  obtain ⟨-, rfl⟩ | ⟨delta, f, db₁, hpos, hf, ⟨-, rfl⟩ | ⟨-, -, herr⟩⟩ := reserve_cases h
  · exact Unwound.refl _
  · rw [hroll]
    exact rollbackFundingReserve_unwound hused hpos hf
  · cases herr

end Reserve

/-- **A failed call charges nobody**: with roll-backs that succeed, a `NewBillingSession` or a `Reserve` that
returns an error leaves every quota and every subscription row what it was. -/
theorem failed_call_charges_nothing (cfg : BillingConfig) (db : DB) :
    (∀ (env : SessionEnv) (relayInfo : Option RelayInfo) (quota : Int) (db' : DB) (e : NewAPIError),
      env.wallet.rollbackFault = none → env.subscription.rollbackFault = none →
      newBillingSession cfg env relayInfo db quota = (db', .error e) → Unwound db db') ∧
    (∀ (s s' : BillingSession) (target : Int) (a : ReserveAnswers) (db' : DB) (e : NewAPIError),
      UsedNonneg db → a.rollbackFault = none → s.reserve cfg db target a = (s', db', some e) →
      Unwound db db') :=
  ⟨fun _ _ _ _ _ hwallet hsub h => newBillingSession_unwound hwallet hsub h,
    fun _ _ _ _ _ _ hused hroll h => reserve_unwound hused hroll h⟩

def failingEnv : SessionEnv :=
  { exampleEnv with
    wallet := { exampleAnswers with walletFault := some "down" }
    subscription := { exampleAnswers with
      tx := { exampleAnswers.tx with fault := some "no active subscription" } } }

/-- A call that falls back from the subscription to the wallet and fails there too, and a reserve
that the token refuses after the subscription paid. -/
theorem failed_calls_charge_nothing :
    Unwound exampleDB (newBillingSession exampleConfig failingEnv
      (some { exampleInfo with billingPreference := "" }) exampleDB 100).1 ∧
    Unwound exampleDB (exampleSession.reserve exampleConfig exampleDB 150
      ⟨none, .error "token not found", none, none⟩).2.1 := by
  refine ⟨?_, ?_⟩
  · refine (failed_call_charges_nothing exampleConfig exampleDB).1 failingEnv
      (some { exampleInfo with billingPreference := "" }) 100 _ ⟨"down", .updateDataError, 500, true, true⟩
      rfl rfl (Prod.ext rfl ?_)
    rfl
  · refine (failed_call_charges_nothing exampleConfig exampleDB).2 exampleSession _ 150
      ⟨none, .error "token not found", none, none⟩ _
      (forbidden "token not found" .preConsumeTokenQuotaFailed) ?_ rfl rfl
    intro i sub hsub
    have hmem : (⟨i, sub⟩ : Σ _ : Int, UserSubscription) ∈ exampleDB.subs.entries :=
      AList.mem_lookup_iff.mp hsub
    simp only [exampleDB, AList.singleton_entries, List.mem_singleton, Sigma.mk.injEq] at hmem
    rw [eq_of_heq hmem.2]
    decide

end WynthApi.Billing

import WynthApi.Billing.Funding

/-!
# One request's pre-consume, settle and refund (service/billing_session.go)

`BillingSession` holds what one request has taken so far.  `Settle`, `Refund` and `Reserve` run
under the session's mutex, so each is one step; the goroutine that `Refund` starts is a `RefundJob`
that runs later (`RefundJob.run`).  Errors that the source only logs are returned as a list of
texts by the job and dropped elsewhere.
-/

namespace WynthApi.Billing

open Store

inductive ErrorCode where
  | invalidRequest
  | modelPriceError
  | queryDataError
  | updateDataError
  | insufficientUserQuota
  | preConsumeTokenQuotaFailed
  deriving DecidableEq

structure NewAPIError where
  err : String
  errorCode : ErrorCode
  statusCode : ℕ
  (skipRetry recordErrorLog : Bool)
  deriving DecidableEq

/-- `types.NewError(err, code, ErrOptionWithSkipRetry())`: status 500. -/
def newError (err : String) (code : ErrorCode) : NewAPIError := ⟨err, code, 500, true, true⟩

def forbidden (err : String) (code : ErrorCode) : NewAPIError := ⟨err, code, 403, true, false⟩

inductive BillingPreference where
  | subscriptionOnly
  | walletOnly
  | walletFirst
  | subscriptionFirst
  deriving DecidableEq

def normalizeBillingPreference (pref : String) : BillingPreference :=
  let p := GoText.trimSpace pref
  if p = "wallet_first" then .walletFirst
  else if p = "subscription_only" then .subscriptionOnly
  else if p = "wallet_only" then .walletOnly
  else .subscriptionFirst

structure RelayInfo where
  (userId tokenId : Int)
  (requestId originModelName billingPreference : String)
  (tokenUnlimited isPlayground forcePreConsume : Bool)
  (userQuota finalPreConsumedQuota : Int)
  billingSource : Option BillingSource
  (subscriptionId subscriptionPreConsumed subscriptionPostDelta subscriptionAmountTotal : Int)
  (subscriptionAmountUsedAfterPreConsume subscriptionPlanId : Int)
  subscriptionPlanTitle : String
  deriving DecidableEq

structure BillingSession where
  relayInfo : RelayInfo
  funding : FundingSource
  (preConsumedQuota tokenConsumed extraReserved : Int)
  (trusted fundingSettled settled refunded : Bool)
  deriving DecidableEq

/-- `common.GetTrustQuota` and `logger.FormatQuota`, which depend on the site's settings. -/
structure BillingConfig where
  trustQuota : Int
  formatQuota : Int → String

variable (cfg : BillingConfig)

/-- `PreConsumeTokenQuota` (service/quota.go); the token is read through a cache. -/
def preConsumeTokenQuota (info : RelayInfo) (db : DB) (quota : Int)
    (tokenRead : Except String Int) (fault : Fault) : Except String DB :=
  if quota < 0 then .error "quota 不能为负数！"
  else if info.isPlayground then .ok db
  else match tokenRead with
    | .error e => .error e
    | .ok remainQuota =>
      if ¬ info.tokenUnlimited ∧ remainQuota < quota then
        let remain := cfg.formatQuota remainQuota
        let need := cfg.formatQuota quota
        .error s!"token quota is not enough, token remain quota: {remain}, need quota: {need}"
      else decreaseTokenQuota db info.tokenId quota fault

theorem preConsumeTokenQuota_cases {cfg : BillingConfig} {info : RelayInfo} {db db' : DB}
    {quota : Int} {tokenRead : Except String Int} {fault : Fault}
    (h : preConsumeTokenQuota cfg info db quota tokenRead fault = .ok db') :
    0 ≤ quota ∧ ((info.isPlayground = true ∧ db' = db) ∨
      (info.isPlayground = false ∧ db' = db.post (.token info.tokenId) quota quota)) := by
  unfold preConsumeTokenQuota at h
  by_cases hq : quota < 0
  · simp [hq] at h
  rw [if_neg hq] at h
  refine ⟨by omega, ?_⟩
  cases hp : info.isPlayground with
  | true =>
    simp only [hp, if_true] at h
    exact .inl ⟨rfl, (Except.ok.inj h).symm⟩
  | false =>
    simp only [hp, Bool.false_eq_true, if_false] at h
    cases tokenRead with
    | error e => simp at h
    | ok remain =>
      simp only at h
      split_ifs at h with hn
      obtain ⟨-, -, rfl⟩ := quotaStatement_eq_ok.mp h
      exact .inr ⟨rfl, rfl⟩

structure ReserveAnswers where
  fundingFault : Fault
  tokenRead : Except String Int
  (tokenFault rollbackFault : Fault)

/-- The goroutine started by `Refund`, with the values it captured. -/
structure RefundJob where
  tokenId : Int
  isPlayground : Bool
  (tokenConsumed extraReserved subscriptionId : Int)
  funding : FundingSource
  deriving DecidableEq

structure RefundJobFaults where
  wallet : Fault
  attempt : ℕ → RefundFaults
  (extra token : Fault)

def RefundJobFaults.none : RefundJobFaults := ⟨Option.none, fun _ => {}, Option.none, Option.none⟩

/-- One statement of the goroutine: its error is logged and the next one runs all the same. -/
def logged (db : DB) (r : Except String DB) (log : List String) : DB × List String :=
  match r with
  | .ok db' => (db', log)
  | .error e => (db, log ++ [e])

/-- The body of the refund goroutine: the funding source, then what `Reserve` took from a
subscription on top of the recorded amount, then the token. -/
def RefundJob.run (j : RefundJob) (db : DB) (f : RefundJobFaults) : DB × List String :=
  let (db₁, err) := j.funding.refund db f.wallet f.attempt
  let log := err.toList
  let (db₂, log) :=
    if 0 < j.extraReserved ∧ j.funding.source = .subscription ∧ 0 < j.subscriptionId then
      logged db₁ (postConsumeUserSubscriptionDelta db₁ j.subscriptionId (-j.extraReserved) f.extra) log
    else (db₁, log)
  if 0 < j.tokenConsumed ∧ j.isPlayground = false then
    logged db₂ (increaseTokenQuota db₂ j.tokenId j.tokenConsumed f.token) log
  else (db₂, log)

namespace BillingSession

variable (s : BillingSession)

def syncRelayInfo : BillingSession :=
  let info := { s.relayInfo with
    finalPreConsumedQuota := s.preConsumedQuota
    billingSource := some s.funding.source }
  match s.funding with
  | .subscription sub =>
    { s with relayInfo := { info with
        subscriptionId := sub.subscriptionId
        subscriptionPreConsumed := sub.preConsumed + s.extraReserved
        subscriptionPostDelta := 0
        subscriptionAmountTotal := sub.amountTotal
        subscriptionAmountUsedAfterPreConsume := sub.amountUsedAfter + s.extraReserved
        subscriptionPlanId := sub.planId
        subscriptionPlanTitle := sub.planTitle } }
  | .wallet _ =>
    { s with relayInfo := { info with subscriptionId := 0, subscriptionPreConsumed := 0 } }

theorem syncRelayInfo_eq : s.syncRelayInfo = { s with relayInfo := s.syncRelayInfo.relayInfo } := by
  unfold syncRelayInfo
  cases s.funding <;> rfl

@[simp] theorem syncRelayInfo_tokenId : s.syncRelayInfo.relayInfo.tokenId = s.relayInfo.tokenId := by
  unfold syncRelayInfo
  cases s.funding <;> rfl

@[simp] theorem syncRelayInfo_isPlayground : s.syncRelayInfo.relayInfo.isPlayground = s.relayInfo.isPlayground := by
  unfold syncRelayInfo
  cases s.funding <;> rfl

variable (db : DB) (delta : Int) (fault : Fault)

def settleToken : DB × Option String :=
  if s.relayInfo.isPlayground then (db, none)
  else
    let r := if 0 < delta then decreaseTokenQuota db s.relayInfo.tokenId delta fault
      else increaseTokenQuota db s.relayInfo.tokenId (-delta) fault
    match r with
    | .ok db' => (db', none)
    | .error e => (db, some e)

def settle (s : BillingSession) (db : DB) (actualQuota : Int) (fundingFault tokenFault : Fault) :
    BillingSession × DB × Option String :=
  if s.settled then (s, db, none)
  else
    let delta := actualQuota - s.preConsumedQuota
    if delta = 0 then ({ s with settled := true }, db, none)
    else
      match (if s.fundingSettled then .ok db else s.funding.settle db delta fundingFault) with
      | .error e => (s, db, some e)
      | .ok db₁ =>
        let (db₂, tokenErr) := s.settleToken db₁ delta tokenFault
        let info := if s.funding.source = .subscription then
            { s.relayInfo with
              subscriptionPostDelta := s.relayInfo.subscriptionPostDelta + delta }
          else s.relayInfo
        -- a token error is returned but the session still counts as settled
        ({ s with relayInfo := info, fundingSettled := true, settled := true }, db₂, tokenErr)

def needsRefundLocked : Bool :=
  if s.settled || s.refunded || s.fundingSettled then false
  else if 0 < s.tokenConsumed then true
  else match s.funding with
    | .subscription sub => decide (0 < sub.preConsumed)
    | .wallet _ => false

/-- `BillingSession.Refund`, up to the start of its goroutine. -/
def refund : BillingSession × Option RefundJob :=
  if s.settled || s.refunded || !s.needsRefundLocked then (s, none)
  else ({ s with refunded := true }, some
    { tokenId := s.relayInfo.tokenId
      isPlayground := s.relayInfo.isPlayground
      tokenConsumed := s.tokenConsumed
      extraReserved := s.extraReserved
      subscriptionId := s.relayInfo.subscriptionId
      funding := s.funding })

def reserveFunding : Except NewAPIError (FundingSource × DB) :=
  match s.funding with
  | .wallet w =>
    match decreaseUserQuota db w.userId delta fault with
    | .error e => .error (newError e .updateDataError)
    | .ok db' => .ok (.wallet { w with consumed := w.consumed + delta }, db')
  | .subscription sub =>
    match postConsumeUserSubscriptionDelta db sub.subscriptionId delta fault with
    | .error e => .error (forbidden s!"订阅额度不足或未配置订阅: {e}" .insufficientUserQuota)
    | .ok db' => .ok (.subscription sub, db')

def reserveToken (a : ReserveAnswers) : Except NewAPIError DB :=
  if delta ≤ 0 ∨ s.relayInfo.isPlayground then .ok db
  else match preConsumeTokenQuota cfg s.relayInfo db delta a.tokenRead a.tokenFault with
    | .error e => .error (forbidden e .preConsumeTokenQuotaFailed)
    | .ok db' => .ok db'

/-- `BillingSession.rollbackFundingReserve`; a failing roll-back is only logged. -/
def rollbackFundingReserve :
    FundingSource → FundingSource × DB
  | .wallet w =>
    match increaseUserQuota db w.userId delta fault with
    | .error _ => (.wallet w, db)
    | .ok db' => (.wallet { w with consumed := w.consumed - delta }, db')
  | .subscription sub =>
    match postConsumeUserSubscriptionDelta db sub.subscriptionId (-delta) fault with
    | .error _ => (.subscription sub, db)
    | .ok db' => (.subscription sub, db')

def reserve (targetQuota : Int) (a : ReserveAnswers) : BillingSession × DB × Option NewAPIError :=
  if s.settled || s.refunded || s.trusted || decide (targetQuota ≤ s.preConsumedQuota) then
    (s, db, none)
  else
    let delta := targetQuota - s.preConsumedQuota
    match s.reserveFunding db delta a.fundingFault with
    | .error e => (s, db, some e)
    | .ok (funding, db₁) =>
      match s.reserveToken cfg db₁ delta a with
      | .error e =>
        let (funding, db₂) := rollbackFundingReserve db₁ delta a.rollbackFault funding
        ({ s with funding }, db₂, some e)
      | .ok db₂ =>
        ({ s with
            funding
            preConsumedQuota := s.preConsumedQuota + delta
            tokenConsumed := s.tokenConsumed + delta
            extraReserved := s.extraReserved + delta }.syncRelayInfo, db₂, none)

/-- `BillingSession.shouldTrust`; `tokenQuota` is the request context's `token_quota`. -/
def shouldTrust (tokenQuota : Int) : Bool :=
  if s.relayInfo.forcePreConsume then false
  else if cfg.trustQuota ≤ 0 then false
  else if !(s.relayInfo.tokenUnlimited || decide (cfg.trustQuota < tokenQuota)) then false
  else match s.funding.source with
    | .wallet => decide (cfg.trustQuota < s.relayInfo.userQuota)
    | .subscription => false

/-- The error of `preConsume` for a funding error, told apart by its text. -/
def fundingError (errMsg : String) : NewAPIError :=
  if GoText.contains errMsg "no active subscription" ||
      GoText.contains errMsg "subscription quota insufficient" then
    forbidden s!"订阅额度不足或未配置订阅: {errMsg}" .insufficientUserQuota
  else newError errMsg .updateDataError

def rollbackToken : DB :=
  if 0 < s.tokenConsumed ∧ s.relayInfo.isPlayground = false then
    match increaseTokenQuota db s.relayInfo.tokenId s.tokenConsumed fault with
    | .ok db' => db'
    | .error _ => db
  else db

def effectiveQuota (tokenQuota quota : Int) : Int :=
  if s.shouldTrust cfg tokenQuota then 0 else quota

def preConsumeToken (effective : Int) (a : PreConsumeAnswers) : Except String DB :=
  if 0 < effective then
    preConsumeTokenQuota cfg s.relayInfo db effective a.tokenRead a.tokenFault
  else .ok db

def tokenTaken (trusted : Bool) (effective : Int) : BillingSession :=
  { s with
    trusted
    tokenConsumed := if 0 < effective then effective else s.tokenConsumed }

/-- `BillingSession.preConsume`: trust check, token, funding source. -/
def preConsume (cfg : BillingConfig) (tokenQuota : Int) (a : PreConsumeAnswers)
    (s : BillingSession) (db : DB) (quota : Int) : DB × Except NewAPIError BillingSession :=
  let effective := s.effectiveQuota cfg tokenQuota quota
  match s.preConsumeToken cfg db effective a with
  | .error e => (db, .error (forbidden e .preConsumeTokenQuotaFailed))
  | .ok db₁ =>
    let s := s.tokenTaken (s.shouldTrust cfg tokenQuota) effective
    match s.funding.preConsume a db₁ effective with
    | .error e => (s.rollbackToken db₁ a.rollbackFault, .error (fundingError e))
    | .ok (funding, db₂) =>
      (db₂, .ok { s with funding, preConsumedQuota := effective }.syncRelayInfo)

theorem preConsume_cases {cfg : BillingConfig} {tokenQuota quota : Int} {a : PreConsumeAnswers}
    {s : BillingSession} {db db' : DB} {r : Except NewAPIError BillingSession}
    (h : s.preConsume cfg tokenQuota a db quota = (db', r)) :
    (db' = db ∧ ∃ e, r = .error e) ∨
    ∃ db₁, s.preConsumeToken cfg db (s.effectiveQuota cfg tokenQuota quota) a = .ok db₁ ∧
      ((db' = (s.tokenTaken (s.shouldTrust cfg tokenQuota)
            (s.effectiveQuota cfg tokenQuota quota)).rollbackToken db₁ a.rollbackFault ∧
          ∃ e, r = .error e) ∨
        ∃ f, s.funding.preConsume a db₁ (s.effectiveQuota cfg tokenQuota quota) = .ok (f, db') ∧
          r = .ok { s.tokenTaken (s.shouldTrust cfg tokenQuota) (s.effectiveQuota cfg tokenQuota quota) with
            funding := f
            preConsumedQuota := s.effectiveQuota cfg tokenQuota quota }.syncRelayInfo) := by
  simp only [preConsume] at h
  cases ht : s.preConsumeToken cfg db (s.effectiveQuota cfg tokenQuota quota) a with
  | error e =>
    simp only [ht, Prod.mk.injEq] at h
    exact .inl ⟨h.1.symm, _, h.2.symm⟩
  | ok db₁ =>
    refine .inr ⟨db₁, rfl, ?_⟩
    simp only [ht] at h
    cases hp : s.funding.preConsume a db₁ (s.effectiveQuota cfg tokenQuota quota) with
    | error e =>
      simp only [tokenTaken, hp, Prod.mk.injEq] at h
      exact .inl ⟨h.1.symm, _, h.2.symm⟩
    | ok res =>
      obtain ⟨f, db₂⟩ := res
      simp only [tokenTaken, hp, Prod.mk.injEq] at h
      obtain ⟨rfl, rfl⟩ := h
      exact .inr ⟨f, rfl, rfl⟩

def fresh (info : RelayInfo) (funding : FundingSource) : BillingSession :=
  { relayInfo := info, funding, preConsumedQuota := 0, tokenConsumed := 0
    extraReserved := 0, trusted := false, fundingSettled := false, settled := false
    refunded := false }

end BillingSession

/-! ### NewBillingSession -/

/-- What `NewBillingSession` finds: the request context's `token_quota`, the cached user quota, the
subscription checks, and the answers to the pre-consume of each source it tries. -/
structure SessionEnv where
  tokenQuota : Int
  userQuota : Except String Int
  (hasActiveSubscription allowWalletOverflow : Except String Bool)
  (wallet subscription : PreConsumeAnswers)

/-- What one try leaves behind.  `relayInfo` is shared by pointer, so what a failed try wrote to it
is seen by the next one. -/
structure Attempt where
  db : DB
  relayInfo : RelayInfo
  result : Except NewAPIError BillingSession

variable (env : SessionEnv) (info : RelayInfo)

open BillingSession in
def tryWallet (db : DB) (preConsumedQuota : Int) : Attempt :=
  match env.userQuota with
  | .error e => ⟨db, info, .error (newError e .queryDataError)⟩
  | .ok userQuota =>
    let left := cfg.formatQuota userQuota
    let need := cfg.formatQuota preConsumedQuota
    if userQuota ≤ 0 then
      ⟨db, info, .error (forbidden s!"用户额度不足, 剩余额度: {left}" .insufficientUserQuota)⟩
    else if userQuota < preConsumedQuota then
      ⟨db, info, .error (forbidden
        s!"预扣费额度失败, 用户剩余额度: {left}, 需要预扣费额度: {need}" .insufficientUserQuota)⟩
    else
      let info := { info with userQuota }
      let (db', result) := (fresh info (.wallet ⟨info.userId, 0⟩)).preConsume cfg
        env.tokenQuota env.wallet db preConsumedQuota
      ⟨db', info, result⟩

def subConsume (preConsumedQuota : Int) : Int := if preConsumedQuota ≤ 0 then 1 else preConsumedQuota

open BillingSession in
def trySubscription (db : DB) (preConsumedQuota : Int) : Attempt :=
  let amount := subConsume preConsumedQuota
  let funding : SubscriptionFunding :=
    { requestId := info.requestId, userId := info.userId, modelName := info.originModelName
      amount, subscriptionId := 0, preConsumed := 0, amountTotal := 0
      amountUsedAfter := 0, planId := 0, planTitle := "" }
  let (db', result) := (fresh info (.subscription funding)).preConsume cfg env.tokenQuota
    env.subscription db amount
  ⟨db', info, result⟩

/-- `NewBillingSession`: the user's preference, with its fall-backs; `none` is a nil `relayInfo`. -/
def newBillingSession (relayInfo : Option RelayInfo)
    (db : DB) (preConsumedQuota : Int) : DB × Except NewAPIError BillingSession :=
  match relayInfo with
  | none => (db, .error (newError "relayInfo is nil" .invalidRequest))
  | some info =>
    if preConsumedQuota < 0 then
      (db, .error ⟨s!"pre-consume quota cannot be negative: {preConsumedQuota}", .modelPriceError,
        400, true, true⟩)
    else match normalizeBillingPreference info.billingPreference with
      | .subscriptionOnly =>
        let a := trySubscription cfg env info db preConsumedQuota
        (a.db, a.result)
      | .walletOnly =>
        let a := tryWallet cfg env info db preConsumedQuota
        (a.db, a.result)
      | .walletFirst =>
        let a := tryWallet cfg env info db preConsumedQuota
        match a.result with
        | .ok s => (a.db, .ok s)
        | .error e =>
          if e.errorCode = .insufficientUserQuota then
            let b := trySubscription cfg env a.relayInfo a.db preConsumedQuota
            (b.db, b.result)
          else (a.db, .error e)
      | .subscriptionFirst =>
        match env.hasActiveSubscription with
        | .error e => (db, .error (newError e .queryDataError))
        | .ok false =>
          let a := tryWallet cfg env info db preConsumedQuota
          (a.db, a.result)
        | .ok true =>
          let a := trySubscription cfg env info db preConsumedQuota
          match a.result with
          | .ok s => (a.db, .ok s)
          | .error e =>
            if e.errorCode = .insufficientUserQuota then
              match env.allowWalletOverflow with
              | .error e' => (a.db, .error (newError e' .queryDataError))
              | .ok true =>
                let b := tryWallet cfg env a.relayInfo a.db preConsumedQuota
                (b.db, b.result)
              | .ok false => (a.db, .error e)
            else (a.db, .error e)

end WynthApi.Billing

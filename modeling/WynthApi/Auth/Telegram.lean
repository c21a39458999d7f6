import Mathlib.Data.List.Sort
import WynthApi.Auth.Flow
import WynthApi.Lib.Multimap

/-!
# Login and bind by a Telegram assertion (controller/telegram.go)

Telegram signs the fields of a login.  The signature is hexadecimal, in either case; `telegramAuthorizationClaim` makes
one text of it and finds when the assertion expires.  `TelegramLogin` claims the assertion in a transaction of its
own, `TelegramBind` in the one that consumes the flow and writes the user's Telegram id.

What the handlers read before their transaction is part of the request: how long ago, and what the tables were.
-/

namespace WynthApi.Auth.Telegram

open Flow Tx

/-! ### The assertion -/

def telegramAuthorizationMaxAge : Int := 5 * 60 * nanosecondsPerSecond

def telegramAuthorizationFutureSkew : Int := 2 * 60 * nanosecondsPerSecond

def unix (t : Int) : Int := t / nanosecondsPerSecond

abbrev Values := Multimap String String

variable (params : Values)

def Values.first (key : String) : String := (Multimap.get params key).headD ""

def dataCheckString : String :=
  let strs := (params.entries.filter fun e => e.1 ≠ "hash").map fun e => e.1 ++ "=" ++ e.2.headD ""
  "\n".intercalate (strs.insertionSort (· ≤ ·))

/-- `verifyTelegramAuthorization`; `mac token` is the code of a text under the bot token. -/
def verifyTelegramAuthorization (mac : String → String → List UInt8) (params : Values) (token : String)
    (now : Int) : Except String String :=
  if token = "" then .error "telegram bot token is empty"
  else if params.entries.any fun e => e.2.length ≠ 1 then
    .error "telegram authorization contains duplicate parameters"
  else if params.first "id" = "" ∨ params.first "hash" = "" ∨ params.first "auth_date" = "" then
    .error "telegram authorization is incomplete"
  else
    match GoText.parseInt64 (params.first "auth_date") with
    | none => .error "telegram authorization date is invalid"
    | some authDate =>
      if authDate < unix (now - telegramAuthorizationMaxAge) ∨
          unix (now + telegramAuthorizationFutureSkew) < authDate then
        .error "telegram authorization has expired"
      else if GoText.hexDecodeString (params.first "hash") ≠ some (mac token (dataCheckString params)) then
        .error "telegram authorization signature is invalid"
      else .ok (params.first "id")

structure Assertion where
  hash : List UInt8
  authDate : Int
  deriving DecidableEq

def Values.assertion : Option Assertion := do
  let authDate ← GoText.parseInt64 (params.first "auth_date")
  let hash ← GoText.hexDecodeString (params.first "hash")
  pure { hash, authDate }

def Assertion.expiresAt (a : Assertion) : Int := a.authDate * nanosecondsPerSecond + telegramAuthorizationMaxAge

def telegramAuthorizationClaim (now : Int) : Except String (String × Int) :=
  match GoText.parseInt64 (params.first "auth_date") with
  | none => .error "telegram authorization date is invalid"
  | some authDate =>
    match GoText.hexDecodeString (params.first "hash") with
    | none => .error "telegram authorization signature is invalid"
    | some hashBytes =>
      let expiresAt := authDate * nanosecondsPerSecond + telegramAuthorizationMaxAge
      if expiresAt ≤ now then .error "telegram authorization has expired"
      else .ok (GoText.hexEncodeToString hashBytes, expiresAt)

def authFlowPurposeTelegramBind : String := "telegram_bind"

def authFlowPurposeTelegramAssertion : String := "telegram_assertion"

def Assertion.key (hash : String → String) (a : Assertion) : String :=
  assertionKey hash authFlowPurposeTelegramAssertion (GoText.hexEncodeToString a.hash)

variable {params : Values} {expiresAt : Int} {assertion : String}

theorem telegramAuthorizationClaim_ok {now : Int}
    (h : telegramAuthorizationClaim params now = .ok (assertion, expiresAt)) :
    ∃ a, params.assertion = some a ∧ assertion = GoText.hexEncodeToString a.hash ∧ expiresAt = a.expiresAt := by
  rw [telegramAuthorizationClaim] at h
  cases hdate : GoText.parseInt64 (params.first "auth_date") with
  | none => simp [hdate] at h
  | some authDate =>
    cases hhash : GoText.hexDecodeString (params.first "hash") with
    | none => simp [hdate, hhash] at h
    | some hashBytes =>
      simp only [hdate, hhash] at h
      split_ifs at h with hexpired
      obtain ⟨rfl, rfl⟩ := Prod.mk.inj (Except.ok.inj h)
      exact ⟨⟨hashBytes, authDate⟩, by simp [Values.assertion, hdate, hhash], rfl, rfl⟩

variable {token telegramId : String}

theorem expiresAt_le_of_verify {mac : String → String → List UInt8}
    {now : Int} {a : Assertion} (ha : params.assertion = some a)
    (h : verifyTelegramAuthorization mac params token now = .ok telegramId) :
    a.expiresAt ≤ now + telegramAuthorizationFutureSkew + telegramAuthorizationMaxAge := by
  obtain ⟨authDate, hdate, hrest⟩ := Option.bind_eq_some_iff.mp ha
  obtain ⟨hashBytes, -, hpure⟩ := Option.bind_eq_some_iff.mp hrest
  obtain rfl := Option.some.inj hpure
  have hbound : authDate ≤ unix (now + telegramAuthorizationFutureSkew) := by
    rw [verifyTelegramAuthorization] at h
    simp only [hdate] at h
    split_ifs at h with h₁ h₂ h₃ h₄ h₅
    omega
  simp only [Assertion.expiresAt, unix, nanosecondsPerSecond] at hbound ⊢
  omega

/-! ### Identities -/

def externalIdentityProviderTelegram : String := "telegram"

/-- `INSERT … ON CONFLICT DO NOTHING` under the two unique indexes of the table. -/
def insertIdentity (claim : ExternalIdentityClaim) (fault : Flow.Fault) : Tx AuthDB AuthError Unit :=
  Tx.write fault fun db =>
    if db.identities.any fun c => c.provider = claim.provider ∧
        (c.subject = claim.subject ∨ c.userId = claim.userId) then db
    else { db with identities := db.identities ++ [claim] }

structure IdentityFaults where
  (insert subject user : Flow.Fault)

def claimExternalIdentityWithTx (provider subject : String) (userId : Int) (faults : IdentityFaults) :
    Tx AuthDB AuthError Unit :=
  let provider := GoText.trimSpace provider
  let subject := GoText.trimSpace subject
  if provider = "" ∨ subject = "" ∨ userId = 0 then
    Tx.fail (.other "external identity claim is invalid")
  else do
    insertIdentity { provider, subject, userId } faults.insert
    let subjectOwner ← Tx.read fun db =>
      db.identities.find? fun c => c.provider = provider ∧ c.subject = subject
    match faults.subject, subjectOwner with
    | some e, _ => Tx.fail e
    | none, none => Tx.fail .externalIdentityAlreadyClaimed
    | none, some owner =>
      if owner.userId ≠ userId then Tx.fail .externalIdentityAlreadyClaimed
      else do
        let userClaim ← Tx.read fun db =>
          db.identities.find? fun c => c.provider = provider ∧ c.userId = userId
        match faults.user, userClaim with
        | some e, _ => Tx.fail e
        | none, none => Tx.fail (.other "record not found")
        | none, some claim =>
          if claim.subject ≠ subject then Tx.fail .externalIdentityAlreadyClaimed else pure ()

/-! ### Login -/

structure LoginRequest where
  enabled : Bool
  botToken : String
  params : Values
  filled : Except String Int
  /-- How long ago the assertion was verified, and its claim made. -/
  (verifyLag claimLag : Nat)
  (insertFault commitFault : Flow.Fault)

section

variable (hash : String → String) (mac : String → String → List UInt8)

/-- `TelegramLogin`, up to the session that `setupLogin` then opens for the user. -/
def telegramLogin (r : LoginRequest) (now : Int) : Tx AuthDB String Int :=
  if r.enabled = false then Tx.fail "管理员未开启通过 Telegram 登录以及注册"
  else
    match verifyTelegramAuthorization mac r.params r.botToken (now - r.verifyLag) with
    | .error _ => Tx.fail "无效的请求"
    | .ok _ =>
      match r.filled with
      | .error text => Tx.fail text
      | .ok userId =>
        match telegramAuthorizationClaim r.params (now - r.claimLag) with
        | .error _ => Tx.fail "该登录凭据已被使用"
        | .ok (assertion, expiresAt) => do
          Tx.mapError (fun _ => "该登录凭据已被使用")
            (claimExternalAuthAssertion hash authFlowPurposeTelegramAssertion assertion expiresAt now
              r.insertFault r.commitFault)
          pure userId

/-! ### Bind -/

structure BindFaults where
  (claim user session : Flow.Fault)
  identity : IdentityFaults
  update : Flow.Fault

def reportAssertion : AuthError → AuthError
  | .authFlowInvalid | .authFlowConsumed => .telegramBindAssertionInvalid
  | e => e

def reportIdentity : AuthError → AuthError
  | .externalIdentityAlreadyClaimed => .telegramAccountAlreadyBound
  | e => e

/-- `UPDATE users SET telegram_id …` under the conditions read before, with the number of rows it changed. -/
def updateTelegramId (userId authVersion : Int) (telegramId : String) (fault : Flow.Fault) :
    Tx AuthDB AuthError Nat := do
  let row ← Tx.read fun db => db.users userId
  match row with
  | none => do
    Tx.write fault fun db => db
    pure 0
  | some user =>
    if user.enabled ∧ user.authVersion = authVersion ∧ user.telegramId = "" then do
      Tx.write fault fun db => db.setUser userId { user with telegramId }
      pure 1
    else do
      Tx.write fault fun db => db
      pure 0

def bindUser (telegramId : String) (faults : BindFaults) (flow : AuthFlow) (now : Int) (user : FlowUser) :
    Tx AuthDB AuthError Unit := do
  let session ← Tx.read fun db => (db.sessions flow.sessionId).filter fun s => s.userID = flow.userId
  match faults.session, session with
  | some e, _ => Tx.fail e
  | none, none => Tx.fail .loginSessionRevoked
  | none, some session =>
    if session.live (unix now) = false then Tx.fail .loginSessionRevoked
    else if session.userAuthVersion ≠ user.authVersion then Tx.fail .loginSessionRevoked
    else if user.telegramId ≠ "" then Tx.fail .telegramAccountAlreadyBound
    else do
      Tx.mapError reportIdentity
        (claimExternalIdentityWithTx externalIdentityProviderTelegram telegramId flow.userId faults.identity)
      let rows ← updateTelegramId flow.userId user.authVersion telegramId faults.update
      if rows ≠ 1 then Tx.fail .telegramAccountAlreadyBound else pure ()

def bindFlow (telegramId : String) (faults : BindFaults) (flow : AuthFlow) (now : Int) :
    Tx AuthDB AuthError Unit := do
  let user ← Tx.read fun db => db.users flow.userId
  match faults.user, user with
  | some e, _ => Tx.fail e
  | none, none => Tx.fail .telegramBindUserDeleted
  | none, some user =>
    if user.enabled = false then Tx.fail .telegramBindUserDisabled
    else bindUser telegramId faults flow now user

def bindAction (telegramId assertion : String) (expiresAt : Int) (faults : BindFaults) (flow : AuthFlow)
    (now : Int) : Tx AuthDB AuthError Unit := do
  Tx.mapError reportAssertion
    (claimExternalAuthAssertionWithTx hash authFlowPurposeTelegramAssertion assertion expiresAt now faults.claim)
  bindFlow telegramId faults flow now

/-- What `ValidateSessionReference` found, and for a session that is not valid, the user. -/
inductive SessionReference where
  | valid
  | invalid (user : Except AuthError (Option FlowUser))
  | failed

structure BindRequest where
  enabled : Bool
  (botToken flowToken : String)
  params : Values
  /-- The tables when the flow was looked up, and how long ago that was. -/
  seen : AuthDB
  seenLag : Nat
  seenFault : Flow.Fault
  session : SessionReference
  (verifyLag claimLag : Nat)
  consumeFaults : ConsumeFaults
  faults : BindFaults

def telegramBindErrorDisabled : String := "TELEGRAM_BIND_DISABLED"
def telegramBindErrorInvalidRequest : String := "TELEGRAM_BIND_INVALID_REQUEST"
def telegramBindErrorFlowInvalid : String := "TELEGRAM_BIND_FLOW_INVALID"
def telegramBindErrorSessionInvalid : String := "TELEGRAM_BIND_SESSION_INVALID"
def telegramBindErrorAlreadyBound : String := "TELEGRAM_BIND_ALREADY_BOUND"
def telegramBindErrorUserDeleted : String := "TELEGRAM_BIND_USER_DELETED"
def telegramBindErrorUserDisabled : String := "TELEGRAM_BIND_USER_DISABLED"
def telegramBindErrorInternal : String := "TELEGRAM_BIND_INTERNAL_ERROR"

def pendingErrorCode : AuthError → String
  | .authFlowInvalid | .authFlowExpired | .authFlowConsumed => telegramBindErrorFlowInvalid
  | _ => telegramBindErrorInternal

def sessionErrorCode : Except AuthError (Option FlowUser) → String
  | .ok none => telegramBindErrorUserDeleted
  | .error _ => telegramBindErrorInternal
  | .ok (some user) =>
    if user.enabled = false then telegramBindErrorUserDisabled else telegramBindErrorSessionInvalid

def bindErrorCode : AuthError → String
  | .telegramBindAssertionInvalid => telegramBindErrorInvalidRequest
  | .telegramAccountAlreadyBound => telegramBindErrorAlreadyBound
  | .telegramBindUserDeleted => telegramBindErrorUserDeleted
  | .telegramBindUserDisabled => telegramBindErrorUserDisabled
  | .loginSessionRevoked => telegramBindErrorSessionInvalid
  | .authFlowInvalid | .authFlowExpired | .authFlowConsumed => telegramBindErrorFlowInvalid
  | .externalIdentityAlreadyClaimed | .other _ => telegramBindErrorInternal

def bindMatch (pending : AuthFlow) : AuthFlowMatch where
  purpose := authFlowPurposeTelegramBind
  provider := ""
  intent := ""
  userId := pending.userId
  sessionId := pending.sessionId

/-- `TelegramBind`; an error is the code that the browser is sent back with. -/
def telegramBind (r : BindRequest) (now : Int) : Tx AuthDB String Unit :=
  if r.enabled = false then Tx.fail telegramBindErrorDisabled
  else
    match verifyTelegramAuthorization mac r.params r.botToken (now - r.verifyLag) with
    | .error _ => Tx.fail telegramBindErrorInvalidRequest
    | .ok telegramId =>
      match ((getAuthFlow hash r.flowToken
          { purpose := authFlowPurposeTelegramBind, provider := "", intent := "", userId := 0, sessionId := "" }
          (now - r.seenLag) r.seenFault).run r.seen).1 with
      | .error e => Tx.fail (pendingErrorCode e)
      | .ok pending =>
        match r.session with
        | .failed => Tx.fail telegramBindErrorInternal
        | .invalid user => Tx.fail (sessionErrorCode user)
        | .valid =>
          match telegramAuthorizationClaim r.params (now - r.claimLag) with
          | .error _ => Tx.fail telegramBindErrorInvalidRequest
          | .ok (assertion, expiresAt) => do
            let _ ← Tx.mapError bindErrorCode
              (consumeAuthFlowWithAction hash r.flowToken (bindMatch pending)
                (fun flow => bindAction hash telegramId assertion expiresAt r.faults flow now) now
                r.consumeFaults)
            pure ()

end

/-! ### What the handlers do to the flows -/

def SameFlows (db db' : AuthDB) : Prop := db'.flows = db.flows

theorem SameFlows.refl (db : AuthDB) : SameFlows db db := rfl

theorem SameFlows.trans ⦃db₁ db₂ db₃ : AuthDB⦄ (h : SameFlows db₁ db₂) (h' : SameFlows db₂ db₃) :
    SameFlows db₁ db₃ := by
  rw [SameFlows] at h h' ⊢
  rw [h', h]

theorem moves_claimExternalIdentityWithTx (provider subject : String) (userId : Int) (faults : IdentityFaults) :
    Tx.Moves SameFlows (claimExternalIdentityWithTx provider subject userId faults) := by
  have hinsert : ∀ claim fault, Tx.Moves SameFlows (insertIdentity claim fault) := by
    intro claim fault
    refine moves_write (fun db => ?_) fault
    split_ifs <;> rfl
  simp only [claimExternalIdentityWithTx]
  split_ifs with hbad
  · exact moves_fail _
  · refine moves_bind SameFlows.trans (hinsert _ _) fun _ => moves_bind_read fun owner => ?_
    split
    · exact moves_fail _
    · exact moves_fail _
    · split_ifs with howner
      · exact moves_fail _
      · refine moves_bind_read fun claim => ?_
        split
        · exact moves_fail _
        · exact moves_fail _
        · split_ifs with hclaim
          · exact moves_fail _
          · exact moves_pure SameFlows.refl _

theorem moves_updateTelegramId (userId authVersion : Int) (telegramId : String) (fault : Flow.Fault) :
    Tx.Moves SameFlows (updateTelegramId userId authVersion telegramId fault) := by
  have hskip : Tx.Moves SameFlows (do
      Tx.write fault fun db : AuthDB => db
      pure 0 : Tx AuthDB AuthError Nat) :=
    moves_bind SameFlows.trans (moves_write SameFlows.refl fault) fun _ =>
      moves_pure SameFlows.refl _
  rw [updateTelegramId]
  refine moves_bind_read fun row => ?_
  split
  · exact hskip
  · split_ifs with huser
    · refine moves_bind SameFlows.trans (moves_write ?_ fault) fun _ =>
        moves_pure SameFlows.refl _
      exact fun db => db.setUser_flows _ _
    · exact hskip

theorem moves_bindUser (telegramId : String) (faults : BindFaults) (flow : AuthFlow) (now : Int)
    (user : FlowUser) : Tx.Moves SameFlows (bindUser telegramId faults flow now user) := by
  rw [bindUser]
  refine moves_bind_read fun session => ?_
  split
  · exact moves_fail _
  · exact moves_fail _
  · split_ifs with hlive hversion hbound
    · exact moves_fail _
    · exact moves_fail _
    · exact moves_fail _
    · refine moves_bind SameFlows.trans
        (moves_mapError (moves_claimExternalIdentityWithTx _ _ _ _)) fun _ =>
        moves_bind SameFlows.trans (moves_updateTelegramId _ _ _ _) fun rows => ?_
      split_ifs with hrows
      · exact moves_fail _
      · exact moves_pure SameFlows.refl _

theorem moves_bindFlow (telegramId : String) (faults : BindFaults) (flow : AuthFlow) (now : Int) :
    Tx.Moves SameFlows (bindFlow telegramId faults flow now) := by
  rw [bindFlow]
  refine moves_bind_read fun user => ?_
  split
  · exact moves_fail _
  · exact moves_fail _
  · split_ifs with henabled
    · exact moves_fail _
    · exact moves_bindUser _ _ _ _ _

section

variable {hash : String → String} {mac : String → String → List UInt8} {db db' : AuthDB} {now : Int}

theorem bindAction_ok {faults : BindFaults} {flow : AuthFlow}
    (h : (bindAction hash telegramId assertion expiresAt faults flow now).run db = (.ok (), db')) :
    ∃ db₁, (claimExternalAuthAssertionWithTx hash authFlowPurposeTelegramAssertion assertion expiresAt now
        faults.claim).run db = (.ok (), db₁) ∧ SameFlows db₁ db' := by
  obtain ⟨_, db₁, hclaim, hrest⟩ := bind_eq_ok.mp h
  exact ⟨db₁, mapError_eq_ok.mp hclaim, moves_bindFlow _ _ _ _ hrest⟩

/-- What `TelegramBind` passes is an action. -/
def bindingAction (hash : String → String) (telegramId assertion : String) (expiresAt : Int)
    (faults : BindFaults) : Flow.Action where
  exec flow now := bindAction hash telegramId assertion expiresAt faults flow now
  grows h := by
    obtain ⟨db₁, hclaim, hsame⟩ := bindAction_ok h
    unfold FlowsGrow
    rw [show _ = db₁.flows from hsame]
    exact flowsGrow_claim hclaim

structure Accepts (hash : String → String) (now : Int) (a : Assertion) (db db' : AuthDB) : Prop where
  inTime : now < a.expiresAt
  soon : a.expiresAt ≤ now + telegramAuthorizationFutureSkew + telegramAuthorizationMaxAge
  unknown : db.flows (a.key hash) = none
  row : db'.flows (a.key hash) = some (assertionRow authFlowPurposeTelegramAssertion a.expiresAt now)
  others : ∀ key ≠ a.key hash, db'.flows key = db.flows key

theorem accepts_of_claim {fault : Flow.Fault} {verifyLag claimLag : Nat}
    (hverify : verifyTelegramAuthorization mac params token (now - verifyLag) = .ok telegramId)
    (hclaim : telegramAuthorizationClaim params (now - claimLag) = .ok (assertion, expiresAt))
    (h : (claimExternalAuthAssertionWithTx hash authFlowPurposeTelegramAssertion assertion expiresAt now
      fault).run db = (.ok (), db')) : ∃ a, params.assertion = some a ∧ Accepts hash now a db db' := by
  obtain ⟨a, ha, rfl, rfl⟩ := telegramAuthorizationClaim_ok hclaim
  have hbound := expiresAt_le_of_verify ha hverify
  obtain ⟨htime, hnone, rfl⟩ := claimExternalAuthAssertionWithTx_ok h
  exact ⟨a, ha, htime, by omega, hnone, AuthDB.setFlow_flows_self .., fun key hkey => AuthDB.setFlow_flows_ne db hkey _⟩

theorem telegramLogin_ok {r : LoginRequest} {userId : Int}
    (h : (telegramLogin hash mac r now).run db = (.ok userId, db')) :
    ∃ a, r.params.assertion = some a ∧ Accepts hash now a db db' := by
  rw [telegramLogin] at h
  split_ifs at h with henabled
  · simp at h
  · cases hverify : verifyTelegramAuthorization mac r.params r.botToken (now - r.verifyLag) with
    | error e => simp [hverify] at h
    | ok telegramId =>
      cases hfilled : r.filled with
      | error e => simp [hverify, hfilled] at h
      | ok user =>
        cases hclaim : telegramAuthorizationClaim r.params (now - r.claimLag) with
        | error e => simp [hverify, hfilled, hclaim] at h
        | ok claim =>
          simp only [hverify, hfilled, hclaim] at h
          obtain ⟨_, db₁, hrun, hpure⟩ := bind_eq_ok.mp h
          obtain rfl : db₁ = db' := (Prod.mk.inj hpure).2
          exact accepts_of_claim hverify hclaim (transaction_eq_ok.mp (mapError_eq_ok.mp hrun)).2

theorem atomic_telegramLogin (r : LoginRequest) : Tx.Atomic (telegramLogin hash mac r now) := by
  rw [telegramLogin]
  split_ifs with henabled
  · exact atomic_fail _
  · split
    · exact atomic_fail _
    · split
      · exact atomic_fail _
      · split
        · exact atomic_fail _
        · exact atomic_bind_pure (atomic_mapError (atomic_transaction _ _)) _

/-- **A bind that succeeds** consumes its flow and accepts its assertion. -/
theorem telegramBind_ok {r : BindRequest} (h : (telegramBind hash mac r now).run db = (.ok (), db')) :
    ∃ a row, r.params.assertion = some a ∧ db.flows (hash r.flowToken) = some row ∧ row.consumedAt = none ∧
      Accepts hash now a (db.setFlow (hash r.flowToken) { row with consumedAt := some now }) db' := by
  rw [telegramBind] at h
  split_ifs at h with henabled
  · simp at h
  · cases hverify : verifyTelegramAuthorization mac r.params r.botToken (now - r.verifyLag) with
    | error e => simp [hverify] at h
    | ok telegramId =>
      simp only [hverify] at h
      split at h
      · simp at h
      · split at h
        · simp at h
        · simp at h
        · cases hclaim : telegramAuthorizationClaim r.params (now - r.claimLag) with
          | error e => simp [hclaim] at h
          | ok claim =>
            simp only [hclaim] at h
            obtain ⟨flow, db₁, hrun, hpure⟩ := bind_eq_ok.mp h
            obtain rfl : db₁ = db' := (Prod.mk.inj hpure).2
            obtain ⟨row, hrow, -, hopen, -, rfl, haction⟩ :=
              consumeAuthFlowWithAction_ok (mapError_eq_ok.mp hrun)
            obtain ⟨db₂, hclaimed, hsame⟩ := bindAction_ok haction
            obtain ⟨a, ha, hacc⟩ := accepts_of_claim hverify hclaim hclaimed
            refine ⟨a, row, ha, hrow, hopen, hacc.inTime, hacc.soon, hacc.unknown, ?_, ?_⟩
            · rw [hsame, hacc.row]
            · intro key hkey
              rw [hsame, hacc.others key hkey]

theorem atomic_telegramBind (r : BindRequest) : Tx.Atomic (telegramBind hash mac r now) := by
  rw [telegramBind]
  split_ifs with henabled
  · exact atomic_fail _
  · split
    · exact atomic_fail _
    · split
      · exact atomic_fail _
      · split
        · exact atomic_fail _
        · exact atomic_fail _
        · split
          · exact atomic_fail _
          · exact atomic_bind_pure (atomic_mapError atomic_consumeAuthFlowWithAction) _

end

end WynthApi.Auth.Telegram

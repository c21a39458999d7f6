import WynthApi.Auth.Session
import WynthApi.Lib.GoText
import WynthApi.Lib.Tx

/-!
# One-time state of authentication ceremonies (model/auth_flow.go)

A row of `auth_flows` is found by the hash of an opaque token.  `ConsumeAuthFlowWithAction` marks the row consumed and
runs an action in the same transaction.  `ClaimExternalAuthAssertionWithTx` stores a provider's signed assertion as a
row that is consumed from the start, so that the unique index on the hash rejects a second claim.

The unique index is the key of the table, the hash any function.  Times are nanoseconds; a transaction reads the clock
once.
-/

namespace WynthApi.Auth.Flow

open Tx

/-! ### Tables -/

/-- An `AuthFlow` without its id and its unique hash, the key of the table. -/
structure AuthFlow where
  (purpose provider intent : String)
  userId : Int
  (sessionId payload : String)
  expiresAt : Int
  consumedAt : Option Int
  deriving DecidableEq

structure FlowUser where
  enabled : Bool
  authVersion : Int
  telegramId : String
  deriving DecidableEq

structure ExternalIdentityClaim where
  (provider subject : String)
  userId : Int
  deriving DecidableEq

structure AuthDB where
  flows : String → Option AuthFlow
  users : Int → Option FlowUser
  sessions : String → Option (UserSession String)
  identities : List ExternalIdentityClaim

variable {key : String}

namespace AuthDB

def setFlow (db : AuthDB) (key : String) (flow : AuthFlow) : AuthDB :=
  { db with flows := Function.update db.flows key (some flow) }

def setUser (db : AuthDB) (id : Int) (user : FlowUser) : AuthDB :=
  { db with users := Function.update db.users id (some user) }

@[simp] theorem setFlow_flows_self (db : AuthDB) (key : String) (flow : AuthFlow) :
    (db.setFlow key flow).flows key = some flow := Function.update_self ..

theorem setFlow_flows_ne (db : AuthDB) {key' : String} (h : key' ≠ key) (flow : AuthFlow) :
    (db.setFlow key flow).flows key' = db.flows key' := Function.update_of_ne h ..

@[simp] theorem setUser_flows (db : AuthDB) (id : Int) (user : FlowUser) : (db.setUser id user).flows = db.flows := rfl

end AuthDB

inductive AuthError where
  | authFlowInvalid
  | authFlowExpired
  | authFlowConsumed
  | telegramBindAssertionInvalid
  | telegramAccountAlreadyBound
  | telegramBindUserDeleted
  | telegramBindUserDisabled
  | loginSessionRevoked
  | externalIdentityAlreadyClaimed
  | other (text : String)
  deriving DecidableEq

abbrev Fault := Option AuthError

/-! ### Look-up -/

structure AuthFlowMatch where
  (purpose provider intent : String)
  userId : Int
  sessionId : String

/-- The conditions that `applyAuthFlowMatch` adds to the look-up of the hash; empty ones are left out. -/
def AuthFlowMatch.fits (m : AuthFlowMatch) (flow : AuthFlow) : Prop :=
  flow.purpose = m.purpose ∧
    (m.provider ≠ "" → flow.provider = m.provider) ∧
    (m.intent ≠ "" → flow.intent = m.intent) ∧
    (m.userId ≠ 0 → flow.userId = m.userId) ∧
    (m.sessionId ≠ "" → flow.sessionId = m.sessionId)
  deriving Decidable

section

variable (hash : String → String)

def applyAuthFlowMatch (db : AuthDB) (token : String) (m : AuthFlowMatch) : Option AuthFlow :=
  (db.flows (hash token)).filter fun flow => m.fits flow

def getAuthFlow (token : String) (m : AuthFlowMatch) (now : Int) (fault : Fault) :
    Tx AuthDB AuthError AuthFlow :=
  if token = "" ∨ m.purpose = "" then Tx.fail .authFlowInvalid
  else do
    let row ← Tx.read fun db => applyAuthFlowMatch hash db token m
    match fault, row with
    | some e, _ => Tx.fail e
    | none, none => Tx.fail .authFlowInvalid
    | none, some flow =>
      if flow.consumedAt.isSome then Tx.fail .authFlowConsumed
      else if flow.expiresAt ≤ now then Tx.fail .authFlowExpired
      else pure flow

/-! ### Creation -/

structure AuthFlowCreate where
  (purpose provider intent : String)
  userId : Int
  (sessionId payload : String)
  expiresAt : Int

/-- `CreateAuthFlow`, with the token that was drawn.  A hash that is there already is an error of the
index. -/
def createAuthFlow (input : AuthFlowCreate) (token : String) (now : Int) (fault : Fault) :
    Tx AuthDB AuthError Unit :=
  if GoText.isBlank input.purpose ∨ input.expiresAt ≤ now then Tx.fail .authFlowInvalid
  else do
    let row ← Tx.read fun db => db.flows (hash token)
    match row with
    | some _ => Tx.fail (.other "duplicate token_hash")
    | none =>
      Tx.write fault fun db => db.setFlow (hash token)
        { purpose := input.purpose, provider := input.provider, intent := input.intent
          userId := input.userId, sessionId := input.sessionId, payload := input.payload
          expiresAt := input.expiresAt, consumedAt := none }

/-! ### Assertions -/

variable (purpose assertion : String)

def assertionKey : String :=
  hash ("external:" ++ GoText.trimSpace purpose ++ ":" ++ GoText.trimSpace assertion)

def assertionRow (purpose : String) (expiresAt now : Int) : AuthFlow where
  purpose := GoText.trimSpace purpose
  provider := ""
  intent := ""
  userId := 0
  sessionId := ""
  payload := ""
  expiresAt := expiresAt
  consumedAt := some now

/-- `INSERT … ON CONFLICT DO NOTHING`, with the number of rows it added. -/
def insertFlow (key : String) (flow : AuthFlow) (fault : Fault) : Tx AuthDB AuthError Nat := do
  let row ← Tx.read fun db => db.flows key
  match row with
  | some _ => do
    Tx.write fault fun db => db
    pure 0
  | none => do
    Tx.write fault fun db => db.setFlow key flow
    pure 1

def claimExternalAuthAssertionWithTx (expiresAt now : Int) (fault : Fault) : Tx AuthDB AuthError Unit :=
  if GoText.trimSpace purpose = "" ∨ GoText.trimSpace assertion = "" ∨ expiresAt ≤ now then
    Tx.fail .authFlowInvalid
  else do
    let rows ← insertFlow (assertionKey hash purpose assertion) (assertionRow purpose expiresAt now) fault
    if rows ≠ 1 then Tx.fail .authFlowConsumed else pure ()

def claimExternalAuthAssertion (expiresAt now : Int) (fault commit : Fault) : Tx AuthDB AuthError Unit :=
  Tx.transaction commit (claimExternalAuthAssertionWithTx hash purpose assertion expiresAt now fault)

/-! ### Consumption -/

/-- `UPDATE … WHERE id = ? AND consumed_at IS NULL AND expires_at > ?`, with the number of rows it changed. -/
def updateConsumedAt (key : String) (now : Int) (fault : Fault) : Tx AuthDB AuthError Nat := do
  let row ← Tx.read fun db => db.flows key
  match row with
  | none => do
    Tx.write fault fun db => db
    pure 0
  | some flow =>
    if flow.consumedAt = none ∧ now < flow.expiresAt then do
      Tx.write fault fun db => db.setFlow key { flow with consumedAt := some now }
      pure 1
    else do
      Tx.write fault fun db => db
      pure 0

structure ConsumeFaults where
  (select update commit : Fault)

def consumeAuthFlowWithAction (token : String) (m : AuthFlowMatch)
    (action : AuthFlow → Tx AuthDB AuthError Unit) (now : Int) (faults : ConsumeFaults) :
    Tx AuthDB AuthError AuthFlow :=
  if token = "" ∨ m.purpose = "" then Tx.fail .authFlowInvalid
  else Tx.transaction faults.commit do
    let row ← Tx.read fun db => applyAuthFlowMatch hash db token m
    match faults.select, row with
    | some e, _ => Tx.fail e
    | none, none => Tx.fail .authFlowInvalid
    | none, some flow =>
      if flow.consumedAt.isSome then Tx.fail .authFlowConsumed
      else if flow.expiresAt ≤ now then Tx.fail .authFlowExpired
      else do
        let rows ← updateConsumedAt (hash token) now faults.update
        if rows ≠ 1 then Tx.fail .authFlowConsumed
        else do
          action { flow with consumedAt := some now }
          pure { flow with consumedAt := some now }

end

/-! ### Cleanup -/

def nanosecondsPerSecond : Int := 1000000000

def authFlowDefaultCleanupRetention : Int := 24 * 60 * 60 * nanosecondsPerSecond

def AuthFlow.stale (flow : AuthFlow) (now : Int) : Bool :=
  flow.expiresAt < now - authFlowDefaultCleanupRetention ||
    flow.consumedAt.any (· < now - authFlowDefaultCleanupRetention)

/-- A row that was consumed before it expired is deleted a day later at the earliest. -/
theorem AuthFlow.lt_of_stale {flow : AuthFlow} {now consumedAt : Int} (hconsumed : flow.consumedAt = some consumedAt)
    (hle : consumedAt ≤ flow.expiresAt) (h : flow.stale now = true) :
    consumedAt < now - authFlowDefaultCleanupRetention := by
  rw [AuthFlow.stale, hconsumed, Option.any_some, Bool.or_eq_true, decide_eq_true_eq, decide_eq_true_eq] at h
  omega

def deleteExpiredAuthFlows (now : Int) (fault : Fault) : Tx AuthDB AuthError Unit :=
  Tx.write fault fun db => { db with flows := fun key => (db.flows key).filter fun flow => !flow.stale now }

/-! ### What the operations do -/

variable {expiresAt : Int}

section

variable {hash : String → String} {db db' : AuthDB}
  {flow : AuthFlow} {token : String} {fault : Fault} {now : Int} {input : AuthFlowCreate}

theorem createAuthFlow_ok (h : (createAuthFlow hash input token now fault).run db = (.ok (), db')) :
    db.flows (hash token) = none ∧ ∃ flow, db' = db.setFlow (hash token) flow := by
  rw [createAuthFlow] at h
  split_ifs at h with hbad
  · simp at h
  · rw [bind_read] at h
    cases hrow : db.flows (hash token) with
    | some row => simp [hrow] at h
    | none =>
      simp only [hrow] at h
      exact ⟨rfl, _, (write_eq_ok.mp h).2⟩

theorem atomic_createAuthFlow : Tx.Atomic (createAuthFlow hash input token now fault) := by
  rw [createAuthFlow]
  split_ifs with hbad
  · exact atomic_fail _
  · refine atomic_bind_read fun row => ?_
    split
    · exact atomic_fail _
    · exact atomic_write _ _

theorem insertFlow_one (h : (insertFlow key flow fault).run db = (.ok 1, db')) :
    db.flows key = none ∧ db' = db.setFlow key flow := by
  rw [insertFlow, bind_read] at h
  cases hrow : db.flows key with simp only [hrow] at h
  | some row =>
    obtain ⟨_, _, _, hpure⟩ := bind_eq_ok.mp h
    simp at hpure
  | none =>
    obtain ⟨_, db₁, hwrite, hpure⟩ := bind_eq_ok.mp h
    obtain ⟨-, rfl⟩ := write_eq_ok.mp hwrite
    exact ⟨rfl, (Prod.mk.inj hpure).2.symm⟩

/-- **A claim that succeeds**: the assertion was not known, and is now. -/
theorem claimExternalAuthAssertionWithTx_ok {purpose assertion : String}
    (h : (claimExternalAuthAssertionWithTx hash purpose assertion expiresAt now fault).run db = (.ok (), db')) :
    now < expiresAt ∧ db.flows (assertionKey hash purpose assertion) = none ∧
      db' = db.setFlow (assertionKey hash purpose assertion) (assertionRow purpose expiresAt now) := by
  rw [claimExternalAuthAssertionWithTx] at h
  split_ifs at h with hbad
  · simp at h
  · obtain ⟨rows, db₁, hinsert, hrest⟩ := bind_eq_ok.mp h
    by_cases hrows : rows ≠ 1
    · rw [if_pos hrows] at hrest
      simp at hrest
    · rw [if_neg hrows] at hrest
      rw [not_not.mp hrows] at hinsert
      obtain ⟨hnone, rfl⟩ := insertFlow_one hinsert
      exact ⟨by omega, hnone, (Prod.mk.inj hrest).2.symm⟩

theorem updateConsumedAt_one (hrow : db.flows key = some flow)
    (h : (updateConsumedAt key now fault).run db = (.ok 1, db')) :
    db' = db.setFlow key { flow with consumedAt := some now } := by
  rw [updateConsumedAt, bind_read] at h
  simp only [hrow] at h
  split_ifs at h with hopen
  · obtain ⟨_, db₁, hwrite, hpure⟩ := bind_eq_ok.mp h
    obtain ⟨-, rfl⟩ := write_eq_ok.mp hwrite
    exact (Prod.mk.inj hpure).2.symm
  · obtain ⟨_, _, _, hpure⟩ := bind_eq_ok.mp h
    simp at hpure

theorem applyAuthFlowMatch_eq_some {m : AuthFlowMatch} :
    applyAuthFlowMatch hash db token m = some flow ↔ db.flows (hash token) = some flow ∧ m.fits flow := by
  simp [applyAuthFlowMatch, Option.filter_eq_some_iff]

section Consume

variable {token : String} {m : AuthFlowMatch} {action : AuthFlow → Tx AuthDB AuthError Unit} {now : Int}
  {faults : ConsumeFaults} {flow : AuthFlow}

/-- **A consumption that succeeds**: the row was there, fitted, was open, and its action ended well. -/
theorem consumeAuthFlowWithAction_ok
    (h : (consumeAuthFlowWithAction hash token m action now faults).run db = (.ok flow, db')) :
    ∃ row, db.flows (hash token) = some row ∧ m.fits row ∧ row.consumedAt = none ∧ now < row.expiresAt ∧
      flow = { row with consumedAt := some now } ∧
      (action flow).run (db.setFlow (hash token) flow) = (.ok (), db') := by
  rw [consumeAuthFlowWithAction] at h
  split_ifs at h with hempty
  · simp at h
  · obtain ⟨-, hbody⟩ := transaction_eq_ok.mp h
    rw [bind_read] at hbody
    generalize faults.select = select at hbody
    cases hrow : applyAuthFlowMatch hash db token m with
    | none => cases select <;> simp [hrow] at hbody
    | some row =>
      cases select with
      | some e => simp at hbody
      | none =>
        simp only [hrow] at hbody
        obtain ⟨hfound, hfits⟩ := applyAuthFlowMatch_eq_some.mp hrow
        split_ifs at hbody with hconsumed hexpired
        · simp at hbody
        · simp at hbody
        · obtain ⟨rows, db₁, hupdate, hrest⟩ := bind_eq_ok.mp hbody
          by_cases hrows : rows ≠ 1
          · rw [if_pos hrows] at hrest
            simp at hrest
          · rw [if_neg hrows] at hrest
            rw [not_not.mp hrows] at hupdate
            obtain rfl := updateConsumedAt_one hfound hupdate
            obtain ⟨_, db₂, haction, hpure⟩ := bind_eq_ok.mp hrest
            obtain ⟨hflow, rfl⟩ := Prod.mk.inj hpure
            obtain rfl := Except.ok.inj hflow
            exact ⟨row, hfound, hfits, by simpa using hconsumed, by omega, rfl, haction⟩

theorem atomic_consumeAuthFlowWithAction : Tx.Atomic (consumeAuthFlowWithAction hash token m action now faults) := by
  rw [consumeAuthFlowWithAction]
  split_ifs with hempty
  · exact atomic_fail _
  · exact atomic_transaction _ _

theorem consumeAuthFlowWithAction_of_not_fits {row : AuthFlow} (hrow : db.flows (hash token) = some row)
    (h : ¬ m.fits row) : ∃ e, (consumeAuthFlowWithAction hash token m action now faults).run db = (.error e, db) := by
  refine atomic_consumeAuthFlowWithAction.error fun flow db₁ hrun => ?_
  obtain ⟨row', hrow', hfits, -⟩ := consumeAuthFlowWithAction_ok hrun
  rw [hrow] at hrow'
  exact h (Option.some.inj hrow' ▸ hfits)

theorem consumeAuthFlowWithAction_of_action_fails (haction : ∀ row, db.flows (hash token) = some row →
      ∃ e db₁, (action { row with consumedAt := some now }).run
        (db.setFlow (hash token) { row with consumedAt := some now }) = (.error e, db₁)) :
    ∃ e, (consumeAuthFlowWithAction hash token m action now faults).run db = (.error e, db) := by
  refine atomic_consumeAuthFlowWithAction.error fun flow db₁ hrun => ?_
  obtain ⟨row, hrow, -, -, -, rfl, hran⟩ := consumeAuthFlowWithAction_ok hrun
  obtain ⟨e, db₂, hfail⟩ := haction row hrow
  rw [hran] at hfail
  cases (Prod.mk.inj hfail).1

end Consume

end

/-! ### Actions -/

/-- Rows stay as they are, and rows that are added are consumed from the start. -/
def FlowsGrow (db db' : AuthDB) : Prop :=
  ∀ key, db'.flows key = db.flows key ∨
    db.flows key = none ∧ ∃ flow, db'.flows key = some flow ∧ flow.consumedAt.isSome

variable {db db' : AuthDB}

theorem FlowsGrow.keeps (h : FlowsGrow db db') {flow : AuthFlow}
    (hflow : db.flows key = some flow) : db'.flows key = some flow := by
  rcases h key with heq | ⟨hnone, -⟩
  · rw [heq, hflow]
  · rw [hflow] at hnone
    cases hnone

theorem flowsGrow_claim {hash : String → String} {purpose assertion : String} {now : Int} {fault : Fault}
    (h : (claimExternalAuthAssertionWithTx hash purpose assertion expiresAt now fault).run db = (.ok (), db')) :
    FlowsGrow db db' := by
  obtain ⟨-, hnone, rfl⟩ := claimExternalAuthAssertionWithTx_ok h
  intro key
  by_cases hkey : key = assertionKey hash purpose assertion
  · subst hkey
    exact .inr ⟨hnone, _, AuthDB.setFlow_flows_self .., rfl⟩
  · exact .inl (AuthDB.setFlow_flows_ne db hkey _)

/-- An action of a consumption: it may claim assertions, and leaves the flows alone otherwise. -/
structure Action where
  exec : AuthFlow → Int → Tx AuthDB AuthError Unit
  grows : ∀ {flow now db db'}, (exec flow now).run db = (.ok (), db') → FlowsGrow db db'

/-- `ConsumeAuthFlow` passes no action. -/
def Action.none : Action := ⟨fun _ _ => pure (), fun h _ => .inl (by cases h; rfl)⟩

end WynthApi.Auth.Flow

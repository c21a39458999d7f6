import WynthApi.Auth.Telegram
import WynthApi.Lib.Run

/-!
# Flows and assertions are used once

The calls of `model/auth_flow.go` and of the Telegram handlers in any order, with any time between them.  One step is
one call; the rest of the program may write the other tables at any time.

* `RowMove` says what one call can do to one row, and `perform_effect` that every call does only that.
* `auth_flows_single_use`: cleanup forgets an accepted assertion a day after its claim
  at the earliest, when it has expired: it had at most seven minutes left (`Accepts.soon`).

The tokens of new flows are random: none has the hash of one that was consumed before.
-/

namespace WynthApi.Auth.SingleUse

open Flow Telegram StepSys List Tx

/-! ### Calls -/

inductive Call where
  | createAuthFlow (input : AuthFlowCreate) (token : String) (fault : Flow.Fault)
  | consumeAuthFlowWithAction (token : String) (m : AuthFlowMatch) (action : Flow.Action) (faults : ConsumeFaults)
  | claimExternalAuthAssertion (purpose assertion : String) (expiresAt : Int) (fault commit : Flow.Fault)
  | deleteExpiredAuthFlows (lag : Nat) (fault : Flow.Fault)
  | telegramLogin (r : LoginRequest)
  | telegramBind (r : BindRequest)
  | elsewhere (users : Int → Option FlowUser) (sessions : String → Option (UserSession String))
      (identities : List ExternalIdentityClaim)

structure Used where
  flow : Option String
  assertion : Option Assertion

section

variable (hash : String → String) (mac : String → String → List UInt8)

def perform (now : Int) : Call → Tx AuthDB Unit Used
  | .createAuthFlow input token fault => do
    Tx.mapError (fun _ => ()) (createAuthFlow hash input token now fault)
    pure ⟨none, none⟩
  | .consumeAuthFlowWithAction token m action faults => do
    let _ ← Tx.mapError (fun _ => ())
      (consumeAuthFlowWithAction hash token m (fun flow => action.exec flow now) now faults)
    pure ⟨some (hash token), none⟩
  | .claimExternalAuthAssertion purpose assertion expiresAt fault commit => do
    Tx.mapError (fun _ => ())
      (Flow.claimExternalAuthAssertion hash purpose assertion expiresAt now fault commit)
    pure ⟨none, none⟩
  | .deleteExpiredAuthFlows lag fault => do
    Tx.mapError (fun _ => ()) (Flow.deleteExpiredAuthFlows (now - lag) fault)
    pure ⟨none, none⟩
  | .telegramLogin r => do
    let _ ← Tx.mapError (fun _ => ()) (Telegram.telegramLogin hash mac r now)
    pure ⟨none, r.params.assertion⟩
  | .telegramBind r => do
    Tx.mapError (fun _ => ()) (Telegram.telegramBind hash mac r now)
    pure ⟨some (hash r.flowToken), r.params.assertion⟩
  | .elsewhere users sessions identities => do
    Tx.write none fun db => { db with users, sessions, identities }
    pure ⟨none, none⟩

/-! ### Runs -/

structure State where
  db : AuthDB
  now : Int
  consumed : List String
  accepted : List (Assertion × Int)

structure Event where
  wait : Nat
  call : Call

def step (s : State) (e : Event) : State :=
  let now := s.now + e.wait
  match (perform hash mac now e.call).run s.db with
  | (.ok used, db') =>
    { db := db', now, consumed := s.consumed ++ used.flow.toList
      accepted := s.accepted ++ used.assertion.toList.map fun a => (a, now) }
  | (.error _, db') => { s with db := db', now }

def Call.opens : Call → String → Prop
  | .createAuthFlow _ token _, key => key = hash token
  | _, _ => False

/-- A new flow does not get the key of one that was consumed. -/
def Fresh (s : State) (e : Event) : Prop := ∀ key, e.call.opens hash key → key ∉ s.consumed

end

/-! ### What a call can do -/

inductive RowMove (now : Int) (opens : Prop) : Option AuthFlow → Option AuthFlow → Prop where
  | same (row : Option AuthFlow) : RowMove now opens row row
  | opened (flow : AuthFlow) (h : opens) : RowMove now opens none (some flow)
  | added (flow : AuthFlow) (h : flow.consumedAt.isSome) : RowMove now opens none (some flow)
  | consumed (row : AuthFlow) (h : row.consumedAt = none) :
      RowMove now opens (some row) (some { row with consumedAt := some now })
  | deleted (row : AuthFlow) (lag : Nat) (h : row.stale (now - lag)) : RowMove now opens (some row) none

variable {db db' : AuthDB} {opens : Prop} {now : Int}

theorem RowMove.of_eq {row row' : Option AuthFlow} (h : row' = row) : RowMove now opens row row' := by
  rw [h]
  exact .same row

theorem RowMove.of_grow (h : FlowsGrow db db') (key : String) : RowMove now opens (db.flows key) (db'.flows key) := by
  rcases h key with heq | ⟨hnone, flow, hflow, hconsumed⟩
  · exact .of_eq heq
  · rw [hnone, hflow]
    exact .added flow hconsumed

variable {row : AuthFlow}

theorem RowMove.of_consume {key₀ : String} (hrow : db.flows key₀ = some row) (hopen : row.consumedAt = none)
    (h : FlowsGrow (db.setFlow key₀ { row with consumedAt := some now }) db') (key : String) :
    RowMove now opens (db.flows key) (db'.flows key) := by
  by_cases hkey : key = key₀
  · subst hkey
    rw [hrow, h.keeps (db.setFlow_flows_self _ _)]
    exact .consumed row hopen
  · rw [← db.setFlow_flows_ne hkey { row with consumedAt := some now }]
    exact .of_grow h key

variable {a : Assertion}

theorem grow_of_accepts {hash : String → String} (h : Accepts hash now a db db') : FlowsGrow db db' := by
  intro key
  by_cases hkey : key = a.key hash
  · subst hkey
    exact .inr ⟨h.unknown, _, h.row, rfl⟩
  · exact .inl (h.others key hkey)

structure Effect (hash : String → String) (now : Int) (opens : String → Prop) (used : Used)
    (db db' : AuthDB) : Prop where
  rows : ∀ key, RowMove now (opens key) (db.flows key) (db'.flows key)
  flow : ∀ key ∈ used.flow, ∃ row, db.flows key = some row ∧ row.consumedAt = none ∧
    db'.flows key = some { row with consumedAt := some now }
  inTime : ∀ a ∈ used.assertion, now < a.expiresAt
  soon : ∀ a ∈ used.assertion,
    a.expiresAt ≤ now + telegramAuthorizationFutureSkew + telegramAuthorizationMaxAge
  unknown : ∀ a ∈ used.assertion, db.flows (a.key hash) = none
  known : ∀ a ∈ used.assertion,
    db'.flows (a.key hash) = some (assertionRow authFlowPurposeTelegramAssertion a.expiresAt now)

variable {key : String}

section

variable {hash : String → String} {mac : String → String → List UInt8} {now : Int} {db db' : AuthDB}
  {opens : String → Prop}

theorem Effect.of_rows (h : ∀ key, RowMove now (opens key) (db.flows key) (db'.flows key)) :
    Effect hash now opens ⟨none, none⟩ db db' :=
  ⟨h, fun _ h => (nomatch h), fun _ h => (nomatch h), fun _ h => (nomatch h), fun _ h => (nomatch h),
    fun _ h => (nomatch h)⟩

theorem Effect.of_accepts (h : Accepts hash now a db db') : Effect hash now opens ⟨none, some a⟩ db db' := by
  refine ⟨fun key => .of_grow (grow_of_accepts h) key, fun _ h => (nomatch h), ?_, ?_, ?_, ?_⟩
  all_goals
    intro a' ha
    obtain rfl := Option.some.inj ha
  · exact h.inTime
  · exact h.soon
  · exact h.unknown
  · exact h.row

theorem Effect.of_bind (hrow : db.flows key = some row) (hopen : row.consumedAt = none)
    (h : Accepts hash now a (db.setFlow key { row with consumedAt := some now }) db') :
    Effect hash now opens ⟨some key, some a⟩ db db' := by
  have hgrow := grow_of_accepts h
  have hne : a.key hash ≠ key := by
    intro heq
    have hunknown := h.unknown
    rw [heq, AuthDB.setFlow_flows_self] at hunknown
    cases hunknown
  refine ⟨fun key => .of_consume hrow hopen hgrow key, ?_, ?_, ?_, ?_, ?_⟩
  · intro key' hkey
    obtain rfl := Option.some.inj hkey
    exact ⟨row, hrow, hopen, hgrow.keeps (db.setFlow_flows_self _ _)⟩
  all_goals
    intro a' ha
    obtain rfl := Option.some.inj ha
  · exact h.inTime
  · exact h.soon
  · rw [← db.setFlow_flows_ne hne { row with consumedAt := some now }]
    exact h.unknown
  · exact h.row

theorem reported_ok {ε α : Type} {x : Tx AuthDB ε α} {u used : Used}
    (h : (Tx.mapError (fun _ => ()) x >>= fun _ => pure u).run db = (.ok used, db')) :
    used = u ∧ ∃ a, x.run db = (.ok a, db') := by
  obtain ⟨a, db₁, hrun, hpure⟩ := bind_eq_ok.mp h
  obtain ⟨hused, rfl⟩ := Prod.mk.inj hpure
  exact ⟨(Except.ok.inj hused).symm, a, mapError_eq_ok.mp hrun⟩

theorem perform_effect {call : Call} {used : Used} (h : (perform hash mac now call).run db = (.ok used, db')) :
    Effect hash now (call.opens hash) used db db' := by
  cases call with
  | createAuthFlow input token fault =>
    obtain ⟨rfl, _, hrun⟩ := reported_ok h
    obtain ⟨hnone, flow, rfl⟩ := createAuthFlow_ok hrun
    refine .of_rows fun key => ?_
    by_cases hkey : key = hash token
    · subst hkey
      rw [hnone, AuthDB.setFlow_flows_self]
      exact .opened flow rfl
    · exact .of_eq (db.setFlow_flows_ne hkey flow)
  | consumeAuthFlowWithAction token m action faults =>
    obtain ⟨rfl, _, hrun⟩ := reported_ok h
    obtain ⟨row, hrow, -, hopen, -, rfl, haction⟩ := consumeAuthFlowWithAction_ok hrun
    have hgrow := action.grows haction
    refine ⟨fun key => .of_consume hrow hopen hgrow key, ?_, fun _ h => (nomatch h), fun _ h => (nomatch h),
      fun _ h => (nomatch h), fun _ h => (nomatch h)⟩
    intro key hkey
    obtain rfl := Option.some.inj hkey
    exact ⟨row, hrow, hopen, hgrow.keeps (db.setFlow_flows_self _ _)⟩
  | claimExternalAuthAssertion purpose assertion expiresAt fault commit =>
    obtain ⟨rfl, _, hrun⟩ := reported_ok h
    exact .of_rows fun key => .of_grow (flowsGrow_claim (transaction_eq_ok.mp hrun).2) key
  | deleteExpiredAuthFlows lag fault =>
    obtain ⟨rfl, _, hrun⟩ := reported_ok h
    obtain ⟨-, rfl⟩ := write_eq_ok.mp hrun
    refine .of_rows fun key => ?_
    show RowMove now _ (db.flows key) ((db.flows key).filter fun flow => !flow.stale (now - lag))
    cases db.flows key with
    | none => exact .same none
    | some row =>
      cases hstale : row.stale (now - lag) with
      | true =>
        rw [Option.filter_some_neg (by simp [hstale])]
        exact .deleted row lag hstale
      | false =>
        rw [Option.filter_some_pos (by simp [hstale])]
        exact .same _
  | telegramLogin r =>
    obtain ⟨rfl, userId, hrun⟩ := reported_ok h
    obtain ⟨a, ha, hacc⟩ := telegramLogin_ok hrun
    rw [ha]
    exact .of_accepts hacc
  | telegramBind r =>
    obtain ⟨rfl, _, hrun⟩ := reported_ok h
    obtain ⟨a, row, ha, hrow, hopen, hacc⟩ := telegramBind_ok hrun
    rw [ha]
    exact .of_bind hrow hopen hacc
  | elsewhere users sessions identities =>
    obtain ⟨_, db₁, hwrite, hpure⟩ := bind_eq_ok.mp h
    obtain ⟨-, rfl⟩ := write_eq_ok.mp hwrite
    obtain ⟨hused, rfl⟩ := Prod.mk.inj hpure
    obtain rfl := Except.ok.inj hused
    exact .of_rows fun key => .same _

theorem atomic_perform (call : Call) : Tx.Atomic (perform hash mac now call) := by
  cases call with
  | createAuthFlow input token fault =>
    exact atomic_bind_pure (atomic_mapError atomic_createAuthFlow) _
  | consumeAuthFlowWithAction token m action faults =>
    exact atomic_bind_pure (atomic_mapError atomic_consumeAuthFlowWithAction) _
  | claimExternalAuthAssertion purpose assertion expiresAt fault commit =>
    exact atomic_bind_pure (atomic_mapError (atomic_transaction _ _)) _
  | deleteExpiredAuthFlows lag fault =>
    exact atomic_bind_pure (atomic_mapError (atomic_write _ _)) _
  | telegramLogin r => exact atomic_bind_pure (atomic_mapError (atomic_telegramLogin r)) _
  | telegramBind r => exact atomic_bind_pure (atomic_mapError (atomic_telegramBind r)) _
  | elsewhere users sessions identities => exact atomic_bind_pure (atomic_write _ _) _

end

/-! ### The invariant -/

/-- An accepted assertion is on record, or was accepted more than a day ago. -/
structure Kept (hash : String → String) (s : State) (a : Assertion) (acceptedAt : Int) : Prop where
  soon : a.expiresAt ≤ acceptedAt + telegramAuthorizationFutureSkew + telegramAuthorizationMaxAge
  inTime : acceptedAt < a.expiresAt
  row : s.db.flows (a.key hash) =
      some (assertionRow authFlowPurposeTelegramAssertion a.expiresAt acceptedAt) ∨
    acceptedAt + authFlowDefaultCleanupRetention < s.now

structure Inv (hash : String → String) (s : State) : Prop where
  spent : ∀ key ∈ s.consumed, ∀ row, s.db.flows key = some row → row.consumedAt ≠ none
  once : s.consumed.Nodup
  kept : ∀ p ∈ s.accepted, Kept hash s p.1 p.2
  acceptedOnce : (s.accepted.map Prod.fst).Nodup

section

variable {hash : String → String} {now : Int} {opens : String → Prop} {used : Used} {s : State}
  {db' : AuthDB}

theorem spent_of_move (hspent : ∀ row, s.db.flows key = some row → row.consumedAt ≠ none)
    (hfresh : ¬ opens key) (h : RowMove now (opens key) (s.db.flows key) (db'.flows key)) (row : AuthFlow)
    (hrow : db'.flows key = some row) : row.consumedAt ≠ none := by
  generalize s.db.flows key = before at h hspent
  rw [hrow] at h
  cases h with
  | same => exact hspent row rfl
  | opened _ hopens => exact absurd hopens hfresh
  | added _ hconsumed => exact Option.isSome_iff_ne_none.mp hconsumed
  | consumed row₀ hopen => exact absurd hopen (hspent row₀ rfl)

theorem Kept.move {acceptedAt : Int} (h : Kept hash s a acceptedAt) (hnow : s.now ≤ now)
    (isNew : Prop) (hmove : RowMove now isNew (s.db.flows (a.key hash)) (db'.flows (a.key hash)))
    {s' : State} (hdb : s'.db = db') (hnow' : s'.now = now) : Kept hash s' a acceptedAt := by
  refine ⟨h.soon, h.inTime, ?_⟩
  rw [hdb, hnow']
  rcases h.row with hrow | hlate
  · rw [hrow] at hmove
    generalize db'.flows (a.key hash) = after at hmove
    cases hmove with
    | same => exact .inl rfl
    | consumed _ hopen => cases hopen
    | deleted _ lag hstale =>
      have hday := AuthFlow.lt_of_stale rfl h.inTime.le hstale
      right
      omega
  · right
    omega

end

section

variable {hash : String → String} {mac : String → String → List UInt8}

theorem inv_step (s : State) (e : Event) (hinv : Inv hash s) (hfresh : Fresh hash s e) :
    Inv hash (step hash mac s e) := by
  have hnow : s.now ≤ s.now + e.wait := by omega
  cases hrun : (perform hash mac (s.now + e.wait) e.call).run s.db with
  | mk result db' =>
    cases result with
    | error err =>
      obtain rfl := atomic_perform e.call hrun
      simp only [step, hrun]
      refine ⟨hinv.spent, hinv.once, fun p hp => ?_, hinv.acceptedOnce⟩
      exact (hinv.kept p hp).move hnow False (.same _) rfl rfl
    | ok used =>
      have heff := perform_effect hrun
      simp only [step, hrun]
      refine ⟨?_, ?_, ?_, ?_⟩
      · intro key hkey row hrow
        rcases mem_append.mp hkey with hold | hnew
        · exact spent_of_move (hinv.spent key hold) (fun h => hfresh key h hold) (heff.rows key) row hrow
        · obtain ⟨row₀, -, -, hrow₀⟩ := heff.flow key (Option.mem_toList.mp hnew)
          rw [hrow₀] at hrow
          rw [← Option.some.inj hrow]
          exact Option.some_ne_none _
      · refine nodup_append.mpr ⟨hinv.once, by cases used.flow <;> simp, ?_⟩
        rintro key hold key' hnew rfl
        obtain ⟨row, hrow, hopen, -⟩ := heff.flow key (Option.mem_toList.mp hnew)
        exact hinv.spent key hold row hrow hopen
      · intro p hp
        rcases mem_append.mp hp with hold | hnew
        · exact (hinv.kept p hold).move hnow _ (heff.rows _) rfl rfl
        · obtain ⟨a, ha, rfl⟩ := mem_map.mp hnew
          have ha' := Option.mem_toList.mp ha
          exact ⟨heff.soon a ha', heff.inTime a ha', .inl (heff.known a ha')⟩
      · rw [map_append, map_map]
        refine nodup_append.mpr ⟨hinv.acceptedOnce, by cases used.assertion <;> simp, ?_⟩
        · rintro a hold a' hnew rfl
          obtain ⟨⟨a, acceptedAt⟩, hp, rfl⟩ := mem_map.mp hold
          obtain ⟨a₁, ha₁, heq⟩ := mem_map.mp hnew
          obtain rfl : a₁ = a := heq
          have ha := Option.mem_toList.mp ha₁
          have hkept := hinv.kept _ hp
          rcases hkept.row with hrow | hlate
          · have hunknown := heff.unknown _ ha
            rw [hrow] at hunknown
            cases hunknown
          · have htime := heff.inTime _ ha
            have hsoon := hkept.soon
            simp only [telegramAuthorizationFutureSkew, telegramAuthorizationMaxAge,
              authFlowDefaultCleanupRetention, nanosecondsPerSecond] at hsoon hlate
            omega

def start (db : AuthDB) (now : Int) : State where
  db := db
  now := now
  consumed := []
  accepted := []

theorem inv_run (db : AuthDB) (now : Int) {es : List Event} (h : Along (step hash mac) (Fresh hash) (start db now) es) :
    Inv hash (run (step hash mac) (start db now) es) := by
  have hstart : Inv hash (start db now) :=
    ⟨fun _ h => (nomatch h), nodup_nil, fun _ h => (nomatch h), nodup_nil⟩
  exact run_inv (I := Inv hash) inv_step hstart h

/-- **Single use**: in every run of calls, a flow token is consumed by at most one transaction that commits, and
a Telegram assertion is accepted at most once, however its signature is written and whatever is cleaned up
in between.  A call that fails, such as a consumption whose action fails or that does not fit the row,
leaves all tables as they were. -/
theorem auth_flows_single_use (hash : String → String) (mac : String → String → List UInt8) (db : AuthDB)
    (now : Int) (es : List Event) (h : Along (step hash mac) (Fresh hash) (start db now) es) :
    let s := run (step hash mac) (start db now) es
    (∀ token, s.consumed.count (hash token) ≤ 1) ∧
    (∀ a, (s.accepted.map Prod.fst).count a ≤ 1) ∧
    (∀ now token m (action : Flow.Action) faults,
      (∀ row, s.db.flows (hash token) = some row →
        ∃ err db', (action.exec { row with consumedAt := some now } now).run
          (s.db.setFlow (hash token) { row with consumedAt := some now }) = (.error err, db')) →
      ∃ err, (consumeAuthFlowWithAction hash token m (fun flow => action.exec flow now) now faults).run s.db =
        (.error err, s.db)) ∧
    (∀ now token m (action : Flow.Action) faults row, s.db.flows (hash token) = some row → ¬ m.fits row →
      ∃ err, (consumeAuthFlowWithAction hash token m (fun flow => action.exec flow now) now faults).run s.db =
        (.error err, s.db)) ∧
    (∀ now call err db', (perform hash mac now call).run s.db = (.error err, db') → db' = s.db) := by
  have hinv : Inv hash (run (step hash mac) (start db now) es) := inv_run db now h
  refine ⟨?_, ?_, ?_, ?_, ?_⟩
  · exact fun token => List.nodup_iff_count_le_one.mp hinv.once _
  · exact fun a => List.nodup_iff_count_le_one.mp hinv.acceptedOnce _
  · exact fun now token m action faults hfails => consumeAuthFlowWithAction_of_action_fails hfails
  · exact fun now token m action faults row hrow hfits => consumeAuthFlowWithAction_of_not_fits hrow hfits
  · exact fun now call err db' hrun => atomic_perform call hrun

end

/-! ### One assertion, sent twice -/

def login (signature : String) : Event where
  wait := 0
  call := .telegramLogin
    { enabled := true, botToken := "bot"
      params := ((Multimap.push ∅ "id" "7").push "auth_date" "100").push "hash" signature
      filled := .ok 7, verifyLag := 0, claimLag := 0, insertFault := none, commitFault := none }

def noTables : AuthDB := ⟨fun _ => none, fun _ => none, fun _ => none, []⟩

theorem login_upper_then_lower :
    (run (step (fun text => text) fun _ _ => [0xab]) (start noTables 100000000000)
      [login "AB", login "ab"]).accepted = [(⟨[0xab], 100⟩, 100000000000)] ∧
    ∀ a, ((run (step (fun text => text) fun _ _ => [0xab]) (start noTables 100000000000)
      [login "AB", login "ab"]).accepted.map Prod.fst).count a ≤ 1 :=
  ⟨by decide +kernel,
    (auth_flows_single_use (fun text => text) (fun _ _ => [0xab]) noTables 100000000000 [login "AB", login "ab"]
      ⟨fun _ h => h.elim, fun _ h => h.elim, trivial⟩).2.1⟩

end WynthApi.Auth.SingleUse

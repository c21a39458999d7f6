import WynthApi.Lib.Run
import WynthApi.Store.TopUps

/-!
# A top-up order is credited once (controller/topup*.go)

Several server instances share the tables.  A call that completes or closes an order in one transaction is one step
(`TxCall`).  `EpayNotify` and Stripe's `sessionAsyncPaymentFailed` read the order, save it and (Epay) credit the user
in separate statements, so each is a `Handler` that moves one statement at a time; in between anything may happen, a
crash included.  `LockOrder` is a lock per instance and trade number: it keeps the calls of one instance apart.

For every provider but Epay the row lock is enough.  Two instances that handle one Epay notification may both credit
it, and one that stops between its two writes leaves a completed order that was never credited (`epay_miscredited`).
-/

namespace WynthApi.Store.TopUps

open StepSys Tx Option Function

/-- A handler that does not use a transaction: `EpayNotify` with the event's payment type, or
`sessionAsyncPaymentFailed`. -/
inductive Kind where
  | epay (type : String)
  | stripeFailed
  deriving DecidableEq

def Kind.provider : Kind → PaymentProvider
  | .epay _ => .epay
  | .stripeFailed => .stripe

def Kind.saves (copy : TopUp) : Kind → TopUp
  | .epay type => epaySaved copy type
  | .stripeFailed => { copy with status := .failed }

/-- How far a handler is: it holds the lock, it has read the order, it has saved it as completed. -/
inductive Phase where
  | locked
  | read (copy : TopUp)
  | saved (copy : TopUp)
  deriving DecidableEq

structure Handler where
  inst : ℕ
  tradeNo : String
  kind : Kind
  phase : Phase
  deriving DecidableEq

inductive Webhook where
  | stripe (customerId : String)
  | creem (customerEmail : String)
  | waffo
  | waffoPancake

def Webhook.completion : Webhook → Completion
  | .stripe customerId => recharge customerId
  | .creem customerEmail => rechargeCreem customerEmail
  | .waffo => rechargeWaffo
  | .waffoPancake => rechargeWaffoPancake

/-- A call that is one transaction: a success webhook, `AdminCompleteTopUp`, Stripe's
`sessionExpired`, and the failure branch of `handleWaffoPayment`. -/
inductive TxCall where
  | webhook (w : Webhook) (quotaPerUnit : ℚ) (tradeNo : String) (now : Int) (f : CompletionFaults)
  | manual (quotaPerUnit : ℚ) (tradeNo : String) (now : Int) (f : CompletionFaults)
  | sessionExpired (tradeNo : String) (lockFault saveFault commitFault : Fault)
  | waffoFailed (tradeNo : String) (lockFault saveFault commitFault : Fault)

def TxCall.tradeNo : TxCall → String
  | .webhook _ _ tradeNo _ _ => tradeNo
  | .manual _ tradeNo _ _ => tradeNo
  | .sessionExpired tradeNo _ _ _ => tradeNo
  | .waffoFailed tradeNo _ _ _ => tradeNo

/-- The failure branch of `handleWaffoPayment` does not call `LockOrder`. -/
def TxCall.takesLock : TxCall → Bool
  | .waffoFailed .. => false
  | _ => true

def TxCall.tx : TxCall → Tx TopUpDB String Unit
  | .webhook w quotaPerUnit tradeNo now f => w.completion.webhook quotaPerUnit tradeNo now f
  | .manual quotaPerUnit tradeNo now f => manualCompleteTopUp quotaPerUnit tradeNo now f
  | .sessionExpired tradeNo lock save commit =>
    updatePendingTopUpStatus tradeNo .stripe .expired lock save commit
  | .waffoFailed tradeNo lock save commit =>
    updatePendingTopUpStatus tradeNo .waffo .failed lock save commit

/-! ### The system -/

structure Sys where
  db : TopUpDB
  handlers : ℕ → Option Handler
  /-- Who holds `LockOrder` for a trade number on an instance. -/
  locks : ℕ → String → Option ℕ

inductive Action where
  | start (i inst : ℕ) (tradeNo : String) (kind : Kind)
  | read (i : ℕ) (fails : Bool)
  | save (i : ℕ) (fault : Fault)
  | credit (i : ℕ) (quotaPerUnit : ℚ) (fault : Fault)
  | crash (inst : ℕ)
  | call (inst : ℕ) (call : TxCall)

def setLock (locks : ℕ → String → Option ℕ) (inst : ℕ) (tradeNo : String) (holder : Option ℕ) :
    ℕ → String → Option ℕ :=
  fun n t => if n = inst ∧ t = tradeNo then holder else locks n t

variable (s : Sys) (i : ℕ) (h : Handler)

/-- The handler returns and its deferred `UnlockOrder` runs. -/
def Sys.finish : Sys :=
  { s with
    handlers := Function.update s.handlers i none
    locks := setLock s.locks h.inst h.tradeNo none }

def Sys.goOn (phase : Phase) : Sys :=
  { s with handlers := Function.update s.handlers i (some { h with phase }) }

def Sys.setDB (s : Sys) (db : TopUpDB) : Sys := { s with db }

/-- The read of a handler: it returns unless the order is there, its provider's and pending. -/
def stepRead (fails : Bool) : Sys :=
  match fails, admitted h.kind.provider (s.db.topUps h.tradeNo) with
  | false, some copy => s.goOn i h (.read copy)
  | _, _ => s.finish i h

/-- The save of a handler; Stripe's handler is done after it. -/
def stepSave (copy : TopUp) (fault : Fault) : Sys :=
  match (saveTopUp h.tradeNo (h.kind.saves copy) fault).run s.db, h.kind with
  | (.error _, _), _ => s.finish i h
  | (.ok _, db), .epay _ => (s.setDB db).goOn i h (.saved copy)
  | (.ok _, db), .stripeFailed => (s.setDB db).finish i h

/-- The credit of `EpayNotify`; its error is only logged. -/
def stepCredit (copy : TopUp) (quotaPerUnit : ℚ) (fault : Fault) : Sys :=
  (s.setDB ((increaseUserQuota h.tradeNo copy.userId (amountQuota quotaPerUnit copy) fault).run
    s.db).2).finish i h

/-- One step; an action that is not possible in the state leaves it alone. -/
def step (s : Sys) : Action → Sys
  | .start i inst tradeNo kind =>
    if s.handlers i = none ∧ s.locks inst tradeNo = none then
      { s with
        handlers := Function.update s.handlers i (some ⟨inst, tradeNo, kind, .locked⟩)
        locks := setLock s.locks inst tradeNo (some i) }
    else s
  | .read i fails =>
    match s.handlers i with
    | some h => if h.phase = .locked then stepRead s i h fails else s
    | none => s
  | .save i fault =>
    match s.handlers i with
    | some h =>
      match h.phase with
      | .read copy => stepSave s i h copy fault
      | _ => s
    | none => s
  | .credit i quotaPerUnit fault =>
    match s.handlers i with
    | some h =>
      match h.phase with
      | .saved copy => stepCredit s i h copy quotaPerUnit fault
      | _ => s
    | none => s
  | .crash inst =>
    { s with
      handlers := fun i => (s.handlers i).filter fun h => h.inst ≠ inst
      locks := fun n t => if n = inst then none else s.locks n t }
  | .call inst call =>
    if call.takesLock = true ∧ s.locks inst call.tradeNo ≠ none then s
    else s.setDB (call.tx.run s.db).2

def statusOf (db : TopUpDB) (t : String) : Option TopUpStatus := (db.topUps t).map TopUp.status

def creditsOf (db : TopUpDB) (t : String) : ℕ := (db.credits.filter fun c => c.1 = t).length

/-- Handler `i` works on the order. -/
def Sys.At (s : Sys) (t : String) (i : ℕ) (h : Handler) : Prop :=
  s.handlers i = some h ∧ h.tradeNo = t

variable (t : String) (s : Sys)

/-- No handler is between its save and its credit. -/
def Settled : Prop := ∀ i h copy, s.At t i h → h.phase ≠ .saved copy

def OnlyOn (inst : ℕ) : Prop := ∀ i h, s.At t i h → h.inst = inst

/-- What an Epay order needs of a step: handling it starts on one instance only while no other
instance handles it, and after its save neither the credit fails nor the instance stops. -/
def Careful : Action → Prop
  | .start _ inst tradeNo _ => tradeNo = t → OnlyOn t s inst
  | .call inst (.manual _ tradeNo _ _) => tradeNo = t → OnlyOn t s inst
  | .credit i quotaPerUnit fault => ∀ h copy, s.At t i h → h.phase = .saved copy →
      fault = none ∧ -1 < (copy.amount : ℚ) * quotaPerUnit
  | .crash inst => ∀ i h copy, s.At t i h → h.inst = inst → h.phase ≠ .saved copy
  | _ => True

def CarefulIfEpay (a : Action) : Prop :=
  (s.db.topUps t).any (·.paymentProvider = .epay) = true → Careful t s a

/-! ### The tables -/

variable {fault : Fault}

section Tables

variable {db db' : TopUpDB} {t u : String}

@[simp] theorem topUps_setTopUp_self (db : TopUpDB) (t : String) (row : TopUp) :
    (db.setTopUp t row).topUps t = some row := by
  simp [TopUpDB.setTopUp]

theorem topUps_setTopUp_ne (db : TopUpDB) (h : t ≠ u) (row : TopUp) : (db.setTopUp u row).topUps t = db.topUps t := by
  simp [TopUpDB.setTopUp, h]

@[simp] theorem creditsOf_setTopUp (db : TopUpDB) (t u : String) (row : TopUp) :
    creditsOf (db.setTopUp u row) t = creditsOf db t := rfl

@[simp] theorem topUps_credit (db : TopUpDB) (u : String) (userId : Int) (quota : ℚ)
    (touch : User → User) : (db.credit u userId quota touch).topUps = db.topUps := rfl

theorem creditsOf_credit (db : TopUpDB) (t u : String) (userId : Int) (quota : ℚ) (touch : User → User) :
    creditsOf (db.credit u userId quota touch) t = creditsOf db t + if u = t then 1 else 0 := by
  unfold creditsOf TopUpDB.credit
  rw [List.filter_append, List.length_append, List.filter_singleton]
  by_cases h : u = t <;> simp [h]

theorem lockTopUp_eq_ok {notFound : String} {row : TopUp} :
    (lockTopUp t fault notFound).run db = (.ok row, db') ↔ db.topUps t = some row ∧ fault = none ∧ db' = db := by
  rw [lockTopUp, bind_read]
  cases db.topUps t with
  | none => simp
  | some row =>
    cases fault with
    | some e => simp
    | none => simp [eq_comm]

theorem readUser_eq_ok {c : Completion} {x : Unit} (h : (c.readUser fault).run db = (.ok x, db')) : db' = db := by
  unfold Completion.readUser at h
  split_ifs at h
  · exact (write_eq_ok.mp h).2
  · exact (Prod.mk.inj h).2.symm

variable (c : Completion)

theorem completion_cases (quotaPerUnit : ℚ) (t : String) (now : Int)
    (f : CompletionFaults) (db : TopUpDB) : ((c.tx quotaPerUnit t now f).run db).2 = db ∨
    ∃ row, db.topUps t = some row ∧ row.status = .pending ∧ (∀ p ∈ c.provider, p = row.paymentProvider) ∧
      ((c.tx quotaPerUnit t now f).run db).2 = (db.setTopUp t (completed row now)).credit t
        row.userId (c.quota quotaPerUnit row) c.touch := by
  rcases hrun : (c.tx quotaPerUnit t now f).run db with ⟨e | x, db'⟩
  · exact .inl (transaction_error hrun)
  obtain ⟨-, hbody⟩ := transaction_eq_ok.mp hrun
  obtain ⟨row, db₁, hlock, hrest⟩ := bind_eq_ok.mp hbody
  obtain ⟨hrow, -, rfl⟩ := lockTopUp_eq_ok.mp hlock
  split_ifs at hrest with hprovider hdone hstatus hpositive
  · simp at hrest
  · exact .inl (Prod.mk.inj hrest).2.symm
  · simp at hrest
  · simp at hrest
  · obtain ⟨x₁, db₂, hsave, hrest₁⟩ := bind_eq_ok.mp hrest
    obtain ⟨-, rfl⟩ := write_eq_ok.mp hsave
    obtain ⟨x₂, db₃, hread, hcredit⟩ := bind_eq_ok.mp hrest₁
    obtain rfl := readUser_eq_ok hread
    obtain ⟨-, rfl⟩ := write_eq_ok.mp hcredit
    refine .inr ⟨row, hrow, not_not.mp hstatus, ?_, rfl⟩
    intro p hp
    by_contra hne
    exact hprovider (by simp [mem_def.mp hp, hne])

theorem updatePending_cases (t : String) {p : PaymentProvider} (hp : p ≠ .unset)
    (target : TopUpStatus) (lock save commit : Fault) (db : TopUpDB) :
    ((updatePendingTopUpStatus t p target lock save commit).run db).2 = db ∨
    ∃ row, db.topUps t = some row ∧ row.paymentProvider = p ∧
      ((updatePendingTopUpStatus t p target lock save commit).run db).2 =
        db.setTopUp t { row with status := target } := by
  unfold updatePendingTopUpStatus
  split_ifs with hempty
  · exact .inl rfl
  rcases hrun : Tx.run _ db with ⟨e | x, db'⟩
  · exact .inl (transaction_error hrun)
  obtain ⟨-, hbody⟩ := transaction_eq_ok.mp hrun
  obtain ⟨row, db₁, hlock, hrest⟩ := bind_eq_ok.mp hbody
  obtain ⟨hrow, -, rfl⟩ := lockTopUp_eq_ok.mp hlock
  split_ifs at hrest with hprovider hstatus
  · simp at hrest
  · simp at hrest
  · obtain ⟨-, rfl⟩ := write_eq_ok.mp hrest
    refine .inr ⟨row, hrow, ?_, rfl⟩
    by_contra hne
    exact hprovider ⟨hp, hne⟩

theorem webhook_snd (quotaPerUnit : ℚ) (t : String) (now : Int)
    (f : CompletionFaults) (db : TopUpDB) : ((c.webhook quotaPerUnit t now f).run db).2 = db ∨
      ((c.webhook quotaPerUnit t now f).run db).2 = ((c.tx quotaPerUnit t now f).run db).2 := by
  unfold Completion.webhook
  split_ifs with hempty
  · exact .inl rfl
  · exact .inr (withError_snd _ _ _)

/-- What one transaction does to the tables: nothing, a completion with its credit, or a close.  Only
an administrator completes an Epay order in a transaction, and nobody closes one. -/
theorem txCall_cases (call : TxCall) (db : TopUpDB) : (call.tx.run db).2 = db ∨
    (∃ row now quota touch, db.topUps call.tradeNo = some row ∧ row.status = .pending ∧
      (row.paymentProvider = .epay → ∃ q n f, call = .manual q call.tradeNo n f) ∧
      (call.tx.run db).2 = (db.setTopUp call.tradeNo (completed row now)).credit call.tradeNo row.userId quota touch) ∨
    ∃ row target, db.topUps call.tradeNo = some row ∧ row.paymentProvider ≠ .epay ∧
      (target = .failed ∨ target = .expired) ∧
      (call.tx.run db).2 = db.setTopUp call.tradeNo { row with status := target } := by
  cases call with
  | webhook w quotaPerUnit tradeNo now f =>
    rcases webhook_snd w.completion quotaPerUnit tradeNo now f db with hnone | hsame
    · exact .inl hnone
    rcases completion_cases w.completion quotaPerUnit tradeNo now f db with hnone | ⟨row, hrow, hst, hp, hdb⟩
    · exact .inl (hsame.trans hnone)
    · refine .inr (.inl ⟨row, now, _, _, hrow, hst, ?_, hsame.trans hdb⟩)
      intro hepay
      cases w with
      | stripe | creem | waffo | waffoPancake => exact absurd ((hp _ rfl).trans hepay) (by decide)
  | manual quotaPerUnit tradeNo now f =>
    by_cases hempty : tradeNo = ""
    · refine .inl ?_
      show ((manualCompleteTopUp quotaPerUnit tradeNo now f).run db).2 = db
      rw [manualCompleteTopUp, if_pos hempty]
      rfl
    · have hsame : ((TxCall.manual quotaPerUnit tradeNo now f).tx.run db).2 =
          ((manualCompletion.tx quotaPerUnit tradeNo now f).run db).2 := by
        show ((manualCompleteTopUp quotaPerUnit tradeNo now f).run db).2 = _
        rw [manualCompleteTopUp, if_neg hempty]
      rcases completion_cases manualCompletion quotaPerUnit tradeNo now f db with
        hnone | ⟨row, hrow, hst, -, hdb⟩
      · exact .inl (hsame.trans hnone)
      · exact .inr (.inl ⟨row, now, _, _, hrow, hst, fun _ => ⟨_, _, _, rfl⟩, hsame.trans hdb⟩)
  | sessionExpired tradeNo lock save commit =>
    rcases updatePending_cases tradeNo (p := .stripe) (by decide) .expired lock save commit db with
      hnone | ⟨row, hrow, hp, hdb⟩
    · exact .inl hnone
    · exact .inr (.inr ⟨row, .expired, hrow, by simp [hp], .inr rfl, hdb⟩)
  | waffoFailed tradeNo lock save commit =>
    rcases updatePending_cases tradeNo (p := .waffo) (by decide) .failed lock save commit db with
      hnone | ⟨row, hrow, hp, hdb⟩
    · exact .inl hnone
    · exact .inr (.inr ⟨row, .failed, hrow, by simp [hp], .inl rfl, hdb⟩)

theorem increaseUserQuota_cases (u : String) (userId quota : Int) (fault : Fault) (db : TopUpDB) :
    (((increaseUserQuota u userId quota fault).run db).2 = db ∧ (fault = none → quota < 0)) ∨
      ((increaseUserQuota u userId quota fault).run db).2 = db.credit u userId quota id := by
  unfold increaseUserQuota
  split_ifs with hneg
  · exact .inl ⟨rfl, fun _ => hneg⟩
  · cases fault with
    | some e => exact .inl ⟨rfl, nofun⟩
    | none => exact .inr rfl

theorem increaseUserQuota_other {u : String} (hne : u ≠ t) (userId quota : Int) (fault : Fault) (db : TopUpDB) :
    ((increaseUserQuota u userId quota fault).run db).2.topUps t = db.topUps t ∧
      creditsOf ((increaseUserQuota u userId quota fault).run db).2 t = creditsOf db t := by
  rcases increaseUserQuota_cases u userId quota fault db with ⟨hdb, -⟩ | hdb
  · rw [hdb]
    exact ⟨rfl, rfl⟩
  · rw [hdb, creditsOf_credit, if_neg hne]
    exact ⟨rfl, rfl⟩

theorem txCall_other {call : TxCall} (hne : call.tradeNo ≠ t) (db : TopUpDB) :
    (call.tx.run db).2.topUps t = db.topUps t ∧ creditsOf (call.tx.run db).2 t = creditsOf db t := by
  rcases txCall_cases call db with hdb | ⟨row, now, quota, touch, -, -, -, hdb⟩ | ⟨row, target, -, -, -, hdb⟩
  · rw [hdb]
    exact ⟨rfl, rfl⟩
  · rw [hdb, creditsOf_credit, if_neg hne]
    exact ⟨topUps_setTopUp_ne _ hne.symm _, rfl⟩
  · rw [hdb]
    exact ⟨topUps_setTopUp_ne _ hne.symm _, rfl⟩

end Tables

/-! ### Handlers -/

variable {inst : ℕ} {kind : Kind}

section Handlers

variable {s : Sys} {t : String} {i j : ℕ} {h g : Handler}

theorem At_finish : (s.finish i h).At t j g ↔ j ≠ i ∧ s.At t j g := by
  unfold Sys.At Sys.finish
  by_cases hj : j = i
  · subst hj
    simp
  · simp [hj]

theorem At_goOn {phase : Phase} : (s.goOn i h phase).At t j g ↔
    (j = i ∧ g = { h with phase } ∧ h.tradeNo = t) ∨ (j ≠ i ∧ s.At t j g) := by
  unfold Sys.At Sys.goOn
  by_cases hj : j = i
  · subst hj
    simp only [update_self, some.injEq, true_and, ne_eq, not_true_eq_false, false_and, or_false]
    constructor
    · rintro ⟨rfl, ht⟩
      exact ⟨rfl, ht⟩
    · rintro ⟨rfl, ht⟩
      exact ⟨rfl, ht⟩
  · simp [hj]

theorem At_start {u : String} (hi : s.handlers i = none)
    (hlock : s.locks inst u = none) : (step s (.start i inst u kind)).At t j g ↔
      (j = i ∧ g = ⟨inst, u, kind, .locked⟩ ∧ u = t) ∨ s.At t j g := by
  unfold Sys.At step
  simp only [hi, hlock, and_self, if_true]
  by_cases hj : j = i
  · subst hj
    simp only [update_self, some.injEq, true_and, hi, reduceCtorEq, false_and, or_false]
    constructor
    · rintro ⟨rfl, ht⟩
      exact ⟨rfl, ht⟩
    · rintro ⟨rfl, ht⟩
      exact ⟨rfl, ht⟩
  · simp [hj]

theorem At_crash : (step s (.crash inst)).At t j g ↔ s.At t j g ∧ g.inst ≠ inst := by
  unfold Sys.At step
  simp only [filter_eq_some_iff, decide_eq_true_eq]
  constructor
  · rintro ⟨⟨hg, hne⟩, ht⟩
    exact ⟨⟨hg, ht⟩, hne⟩
  · rintro ⟨⟨hg, ht⟩, hne⟩
    exact ⟨⟨hg, hne⟩, ht⟩

theorem locks_setLock_ne {u : String} (hne : u ≠ t) (locks : ℕ → String → Option ℕ) (inst n : ℕ)
    (holder : Option ℕ) : setLock locks inst u holder n t = locks n t := by
  have hno : ¬ (n = inst ∧ t = u) := fun hn => hne hn.2.symm
  simp only [setLock, if_neg hno]

/-- Nothing of the order `t` has changed. -/
structure Apart (t : String) (s s' : Sys) : Prop where
  handled : ∀ j g, s'.At t j g ↔ s.At t j g
  locks : ∀ n, s'.locks n t = s.locks n t
  row : s'.db.topUps t = s.db.topUps t
  credits : creditsOf s'.db t = creditsOf s.db t

theorem Apart.refl : Apart t s s := ⟨fun _ _ => Iff.rfl, fun _ => rfl, rfl, rfl⟩

section

variable (hi : s.handlers i = some h) (hne : h.tradeNo ≠ t) {db : TopUpDB} (hrow : db.topUps t = s.db.topUps t)
  (hcredits : creditsOf db t = creditsOf s.db t)

include hi hne hrow hcredits

theorem Apart.finish : Apart t s ((s.setDB db).finish i h) := by
  refine ⟨fun j g => ?_, fun n => locks_setLock_ne hne _ _ _ _, hrow, hcredits⟩
  rw [At_finish]
  refine ⟨And.right, fun hj => ⟨?_, hj⟩⟩
  -- a handler of `t` is not the one that returns
  rintro rfl
  exact hne (some.inj (hi.symm.trans hj.1) ▸ hj.2)

theorem Apart.goOn (phase : Phase) : Apart t s ((s.setDB db).goOn i h phase) := by
  refine ⟨fun j g => ?_, fun _ => rfl, hrow, hcredits⟩
  rw [At_goOn, ← (Apart.finish hi hne hrow hcredits).handled, At_finish]
  simp [hne, Sys.At, Sys.setDB]

end

/-- A step leaves the order alone, or it is one of these. -/
inductive Bears (t : String) (s : Sys) : Action → Sys → Prop
  | apart {a : Action} {s' : Sys} (h : Apart t s s') : Bears t s a s'
  | start (i inst : ℕ) (kind : Kind) (hi : s.handlers i = none) (hlock : s.locks inst t = none) :
    Bears t s (.start i inst t kind) (step s (.start i inst t kind))
  | read (i : ℕ) (h : Handler) (fails : Bool) (hat : s.At t i h) (hphase : h.phase = .locked) :
    Bears t s (.read i fails) (stepRead s i h fails)
  | save (i : ℕ) (h : Handler) (copy : TopUp) (fault : Fault) (hat : s.At t i h) (hphase : h.phase = .read copy) :
    Bears t s (.save i fault) (stepSave s i h copy fault)
  | credit (i : ℕ) (h : Handler) (copy : TopUp) (quotaPerUnit : ℚ) (fault : Fault) (hat : s.At t i h)
    (hphase : h.phase = .saved copy) : Bears t s (.credit i quotaPerUnit fault) (stepCredit s i h copy quotaPerUnit fault)
  | crash (inst : ℕ) : Bears t s (.crash inst) (step s (.crash inst))
  | call (inst : ℕ) (call : TxCall) (ht : call.tradeNo = t) (hfree : call.takesLock = true → s.locks inst t = none) :
    Bears t s (.call inst call) (s.setDB (call.tx.run s.db).2)

/-- Every invariant of one order is proved from this case split. -/
theorem step_bears (t : String) (s : Sys) (a : Action) : Bears t s a (step s a) := by
  cases a with
  | start i inst u kind =>
    by_cases hguard : s.handlers i = none ∧ s.locks inst u = none
    · by_cases hu : u = t
      · subst hu
        exact .start i inst kind hguard.1 hguard.2
      · refine .apart ⟨fun j g => ?_, fun n => ?_, by simp [step, hguard], by simp [step, hguard]⟩
        · rw [At_start hguard.1 hguard.2]
          simp [hu]
        · simp only [step, hguard, and_self, if_true]
          exact locks_setLock_ne hu _ _ _ _
    · rw [step, if_neg hguard]
      exact .apart .refl
  | read i fails =>
    simp only [step]
    cases hi : s.handlers i with
    | none => exact .apart .refl
    | some h =>
      simp only
      split_ifs with hphase
      · by_cases ht : h.tradeNo = t
        · exact .read i h fails ⟨hi, ht⟩ hphase
        · unfold stepRead
          split
          · exact .apart (.goOn hi ht rfl rfl _)
          · exact .apart (.finish hi ht rfl rfl)
      · exact .apart .refl
  | save i fault =>
    simp only [step]
    cases hi : s.handlers i with
    | none => exact .apart .refl
    | some h =>
      simp only
      split
      · rename_i copy hphase
        by_cases ht : h.tradeNo = t
        · exact .save i h copy fault ⟨hi, ht⟩ hphase
        · unfold stepSave
          cases fault with
          | some e => exact .apart (.finish hi ht rfl rfl)
          | none =>
            have hrow := topUps_setTopUp_ne s.db (Ne.symm ht) (h.kind.saves copy)
            cases hk : h.kind <;> rw [hk] at hrow
            · exact .apart (.goOn hi ht hrow rfl _)
            · exact .apart (.finish hi ht hrow rfl)
      · exact .apart .refl
  | credit i quotaPerUnit fault =>
    simp only [step]
    cases hi : s.handlers i with
    | none => exact .apart .refl
    | some h =>
      simp only
      split
      · rename_i copy hphase
        by_cases ht : h.tradeNo = t
        · exact .credit i h copy quotaPerUnit fault ⟨hi, ht⟩ hphase
        · obtain ⟨hrow, hcredits⟩ :=
            increaseUserQuota_other ht copy.userId (amountQuota quotaPerUnit copy) fault s.db
          exact .apart (.finish hi ht hrow hcredits)
      · exact .apart .refl
  | crash inst => exact .crash inst
  | call inst call =>
    simp only [step]
    split_ifs with hlock
    · exact .apart .refl
    · by_cases ht : call.tradeNo = t
      · refine .call inst call ht fun htakes => ?_
        by_contra hheld
        exact hlock ⟨htakes, ht ▸ hheld⟩
      · obtain ⟨hrow, hcredits⟩ := txCall_other ht s.db
        exact .apart ⟨fun _ _ => Iff.rfl, fun _ => rfl, hrow, hcredits⟩

end Handlers

/-! ### The books of one order -/

/-- Credited at most once, not at all while pending, once when completed. -/
structure Books (t : String) (db : TopUpDB) : Prop where
  pending : statusOf db t = some .pending → creditsOf db t = 0
  success : statusOf db t = some .success → creditsOf db t = 1
  le : creditsOf db t ≤ 1

section Books

variable {db db' : TopUpDB} {t : String} {row : TopUp}

theorem statusOf_eq (hrow : db.topUps t = some row) : statusOf db t = some row.status := by
  simp [statusOf, hrow]

theorem Books.congr (h : Books t db) (hrow : db'.topUps t = db.topUps t)
    (hcredits : creditsOf db' t = creditsOf db t) : Books t db' := by
  have hstatus : statusOf db' t = statusOf db t := by simp only [statusOf, hrow]
  refine ⟨?_, ?_, ?_⟩
  · rw [hstatus, hcredits]
    exact h.pending
  · rw [hstatus, hcredits]
    exact h.success
  · rw [hcredits]
    exact h.le

theorem Books.complete (h : Books t db) (hrow : db.topUps t = some row)
    (hpending : row.status = .pending) (now userId : Int) (quota : ℚ) (touch : User → User) :
    Books t ((db.setTopUp t (completed row now)).credit t userId quota touch) := by
  have hzero : creditsOf db t = 0 := h.pending (by rw [statusOf_eq hrow, hpending])
  have hone : creditsOf ((db.setTopUp t (completed row now)).credit t userId quota touch) t = 1 := by
    rw [creditsOf_credit, creditsOf_setTopUp, hzero, if_pos rfl]
  have hstatus : statusOf ((db.setTopUp t (completed row now)).credit t userId quota touch) t = some .success := by
    rw [statusOf, topUps_credit, topUps_setTopUp_self]
    rfl
  refine ⟨?_, fun _ => hone, hone.le⟩
  rw [hstatus]
  exact nofun

theorem Books.close (h : Books t db) {row' : TopUp}
    (hstatus : row'.status = .failed ∨ row'.status = .expired) : Books t (db.setTopUp t row') := by
  have hst : statusOf (db.setTopUp t row') t = some row'.status := by
    rw [statusOf, topUps_setTopUp_self]
    rfl
  refine ⟨?_, ?_, h.le⟩
  · rw [hst]
    rcases hstatus with hs | hs <;> simp [hs]
  · rw [hst]
    rcases hstatus with hs | hs <;> simp [hs]

end Books

/-! ### Orders of the other providers -/

/-- An order of another provider than Epay: only transactions complete it, and the only handler that
can save it is Stripe's, which closes it. -/
structure Plain : Prop where
  row : ∃ row, s.db.topUps t = some row ∧ row.paymentProvider ≠ .epay
  copies : ∀ i h copy, s.At t i h → h.phase = .read copy →
    h.kind = .stripeFailed ∧ copy.paymentProvider ≠ .epay
  settled : Settled t s
  books : Books t s.db

variable {fails : Bool} {copy : TopUp} {quotaPerUnit : ℚ} {call : TxCall}

section Plain

variable {s : Sys} {t : String}

theorem Plain.frame {s' : Sys} (h : Plain t s) (hat : ∀ i g, s'.At t i g → s.At t i g)
    (hrow : s'.db.topUps t = s.db.topUps t) (hcredits : creditsOf s'.db t = creditsOf s.db t) : Plain t s' := by
  refine ⟨?_, fun i g copy hg => h.copies i g copy (hat i g hg),
    fun i g copy hg => h.settled i g copy (hat i g hg), h.books.congr hrow hcredits⟩
  rw [hrow]
  exact h.row

theorem plain_read {i : ℕ} {h : Handler} (hp : Plain t s) (hat : s.At t i h) : Plain t (stepRead s i h fails) := by
  unfold stepRead
  split
  · rename_i copy hadm
    obtain ⟨hrow, hprovider, -⟩ : s.db.topUps h.tradeNo = some copy ∧
        copy.paymentProvider = h.kind.provider ∧ copy.status = .pending := by
      simpa [admitted, filter_eq_some_iff] using hadm
    refine ⟨hp.row, ?_, ?_, hp.books⟩
    · intro j g copy' hg hphase
      obtain ⟨rfl, rfl, -⟩ | ⟨-, hg⟩ := At_goOn.mp hg
      · obtain rfl : copy = copy' := by simpa using hphase
        obtain ⟨row, hrow', hne⟩ := hp.row
        rw [hat.2, hrow'] at hrow
        obtain rfl := some.inj hrow
        refine ⟨?_, hne⟩
        cases hk : h.kind with
        | epay type =>
          rw [hk] at hprovider
          exact absurd hprovider hne
        | stripeFailed => rfl
      · exact hp.copies j g copy' hg hphase
    · intro j g copy' hg
      obtain ⟨rfl, rfl, -⟩ | ⟨-, hg⟩ := At_goOn.mp hg
      · exact nofun
      · exact hp.settled j g copy' hg
  · exact hp.frame (fun j g hg => (At_finish.mp hg).2) rfl rfl

theorem plain_save {i : ℕ} {h : Handler} (hp : Plain t s) (hat : s.At t i h) (hphase : h.phase = .read copy) :
    Plain t (stepSave s i h copy fault) := by
  have hfinish : Plain t (s.finish i h) := hp.frame (fun j g hg => (At_finish.mp hg).2) rfl rfl
  unfold stepSave
  cases fault with
  | some e => exact hfinish
  | none =>
    obtain ⟨hkind, hne⟩ := hp.copies i h copy hat hphase
    simp only [saveTopUp, Tx.run, Tx.write, hkind, hat.2, Kind.saves]
    exact ⟨⟨_, topUps_setTopUp_self _ _ _, hne⟩, hfinish.copies, hfinish.settled, hp.books.close (.inl rfl)⟩

theorem plain_call (hp : Plain t s) (ht : call.tradeNo = t) : Plain t (s.setDB (call.tx.run s.db).2) := by
  obtain hnone | ⟨row, now, quota, touch, hrow, hst, -, hdb⟩ | ⟨row, target, hrow, hne, htarget, hdb⟩ :=
    txCall_cases call s.db
  · rw [hnone]
    exact hp
  · rw [hdb]
    rw [ht] at hrow ⊢
    obtain ⟨row', hrow', hne⟩ := hp.row
    obtain rfl := some.inj (hrow'.symm.trans hrow)
    refine ⟨⟨completed row' now, topUps_setTopUp_self _ _ _, hne⟩, hp.copies, hp.settled, ?_⟩
    exact hp.books.complete hrow hst now _ quota touch
  · rw [hdb, ht]
    exact ⟨⟨_, topUps_setTopUp_self _ _ _, hne⟩, hp.copies, hp.settled, hp.books.close htarget⟩

theorem plain_start {i : ℕ} (hp : Plain t s) (hi : s.handlers i = none) (hlock : s.locks inst t = none) :
    Plain t (step s (.start i inst t kind)) := by
  have hdb : (step s (.start i inst t kind)).db = s.db := by simp [step, hi, hlock]
  refine ⟨by rw [hdb]; exact hp.row, ?_, ?_, by rw [hdb]; exact hp.books⟩
  · intro j g copy hg hphase
    obtain ⟨-, rfl, -⟩ | hg := (At_start hi hlock).mp hg
    · cases hphase
    · exact hp.copies j g copy hg hphase
  · intro j g copy hg
    obtain ⟨-, rfl, -⟩ | hg := (At_start hi hlock).mp hg
    · exact nofun
    · exact hp.settled j g copy hg

theorem plain_step (a : Action) (hp : Plain t s) : Plain t (step s a) := by
  have hbears := step_bears t s a
  generalize step s a = s' at hbears ⊢
  cases hbears with
  | apart h => exact hp.frame (fun j g => (h.handled j g).mp) h.row h.credits
  | start i inst kind hi hlock => exact plain_start hp hi hlock
  | read i h fails hat hphase => exact plain_read hp hat
  | save i h copy fault hat hphase => exact plain_save hp hat hphase
  | credit i h copy quotaPerUnit fault hat hphase => exact absurd hphase (hp.settled i h copy hat)
  | crash inst => exact hp.frame (fun j g hg => (At_crash.mp hg).1) rfl rfl
  | call inst call ht hfree => exact plain_call hp ht

end Plain

/-! ### Epay orders -/

/-- An Epay order whose handlers hold the lock of one instance: while one of them has read it, it is
neither completed nor credited, and one that has saved it is what a completed order waits for. -/
structure Guarded : Prop where
  row : ∃ row, s.db.topUps t = some row ∧ row.paymentProvider = .epay
  locked : ∀ i h, s.At t i h → s.locks h.inst t = some i
  together : ∀ i j h g, s.At t i h → s.At t j g → h.inst = g.inst
  copies : ∀ i h copy, s.At t i h → h.phase = .read copy →
    (∃ type, h.kind = .epay type) ∧ copy.paymentProvider = .epay ∧ creditsOf s.db t = 0
  saved : ∀ i h copy, s.At t i h → h.phase = .saved copy →
    statusOf s.db t = some .success ∧ creditsOf s.db t = 0
  pending : statusOf s.db t = some .pending → creditsOf s.db t = 0
  success : Settled t s → statusOf s.db t = some .success → creditsOf s.db t = 1
  le : creditsOf s.db t ≤ 1

section Guarded

variable {s s' : Sys} {t : String} {i : ℕ} {h : Handler}

theorem Guarded.alone (hG : Guarded t s) (hi : s.At t i h) {j : ℕ} {g : Handler} (hj : s.At t j g) : j = i := by
  have hlock := hG.locked j g hj
  rw [← hG.together i j h g hi hj, hG.locked i h hi] at hlock
  exact (some.inj hlock).symm

theorem Guarded.free (hG : Guarded t s) (honly : OnlyOn t s inst)
    (hfree : s.locks inst t = none) (j : ℕ) (g : Handler) : ¬ s.At t j g := by
  intro hj
  have hlock := hG.locked j g hj
  rw [honly j g hj, hfree] at hlock
  cases hlock

theorem Guarded.books (hG : Guarded t s) (hsettled : Settled t s) : Books t s.db :=
  ⟨hG.pending, hG.success hsettled, hG.le⟩

theorem Guarded.frame (hG : Guarded t s) (h : Apart t s s') : Guarded t s' := by
  have hstatus : statusOf s'.db t = statusOf s.db t := by simp only [statusOf, h.row]
  refine ⟨by rw [h.row]; exact hG.row, ?_, ?_, ?_, ?_, ?_, ?_, by rw [h.credits]; exact hG.le⟩
  · intro j g hj
    rw [h.locks]
    exact hG.locked j g ((h.handled j g).mp hj)
  · intro j k g g' hj hk
    exact hG.together j k g g' ((h.handled j g).mp hj) ((h.handled k g').mp hk)
  · intro j g copy hj hphase
    rw [h.credits]
    exact hG.copies j g copy ((h.handled j g).mp hj) hphase
  · intro j g copy hj hphase
    rw [hstatus, h.credits]
    exact hG.saved j g copy ((h.handled j g).mp hj) hphase
  · rw [hstatus, h.credits]
    exact hG.pending
  · intro hsettled
    rw [hstatus, h.credits]
    exact hG.success fun j g copy hj => hsettled j g copy ((h.handled j g).mpr hj)

theorem guarded_of_none (hrow : ∃ row, s.db.topUps t = some row ∧ row.paymentProvider = .epay)
    (hbooks : Books t s.db) (hnone : ∀ j g, ¬ s.At t j g) : Guarded t s where
  row := hrow
  locked j g hj := absurd hj (hnone j g)
  together j _ g _ hj _ := absurd hj (hnone j g)
  copies j g _ hj _ := absurd hj (hnone j g)
  saved j g _ hj _ := absurd hj (hnone j g)
  pending := hbooks.pending
  success _ := hbooks.success
  le := hbooks.le

/-- What the phase of the only handler says of the order. -/
def PhaseOk (t : String) (db : TopUpDB) (h : Handler) : Prop :=
  match h.phase with
  | .locked => Books t db
  | .read copy => (∃ type, h.kind = .epay type) ∧ copy.paymentProvider = .epay ∧
      creditsOf db t = 0 ∧ Books t db
  | .saved _ => statusOf db t = some .success ∧ creditsOf db t = 0

theorem guarded_of_one (hrow : ∃ row, s.db.topUps t = some row ∧ row.paymentProvider = .epay)
    (hone : ∀ j g, s.At t j g ↔ j = i ∧ g = h) (hlock : s.locks h.inst t = some i)
    (hphase : PhaseOk t s.db h) : Guarded t s := by
  have hself : s.At t i h := (hone i h).mpr ⟨rfl, rfl⟩
  refine ⟨hrow, ?_, ?_, ?_, ?_, ?_, ?_, ?_⟩
  · intro j g hj
    obtain ⟨rfl, rfl⟩ := (hone j g).mp hj
    exact hlock
  · intro j k g g' hj hk
    rw [((hone j g).mp hj).2, ((hone k g').mp hk).2]
  · intro j g copy hj hread
    obtain ⟨rfl, rfl⟩ := (hone j g).mp hj
    simp only [PhaseOk, hread] at hphase
    exact ⟨hphase.1, hphase.2.1, hphase.2.2.1⟩
  · intro j g copy hj hsaved
    obtain ⟨rfl, rfl⟩ := (hone j g).mp hj
    simpa only [PhaseOk, hsaved] using hphase
  · intro hpending
    cases hp : h.phase with simp only [PhaseOk, hp] at hphase
    | locked => exact hphase.pending hpending
    | read copy => exact hphase.2.2.1
    | saved copy => exact hphase.2
  · intro hsettled hsuccess
    cases hp : h.phase with
    | locked =>
      simp only [PhaseOk, hp] at hphase
      exact hphase.success hsuccess
    | read copy =>
      simp only [PhaseOk, hp] at hphase
      exact hphase.2.2.2.success hsuccess
    | saved copy => exact absurd hp (hsettled i h copy hself)
  · cases hp : h.phase with simp only [PhaseOk, hp] at hphase
    | locked => exact hphase.le
    | read copy => exact hphase.2.2.2.le
    | saved copy =>
      rw [hphase.2]
      exact Nat.zero_le 1

theorem Guarded.settled_of_unsaved (hG : Guarded t s) (hi : s.At t i h)
    (hphase : ∀ copy, h.phase ≠ .saved copy) : Settled t s := by
  intro j g copy hj
  obtain rfl := hG.alone hi hj
  obtain rfl : g = h := some.inj (hj.1.symm.trans hi.1)
  exact hphase copy

theorem Guarded.none_after_finish (hG : Guarded t s) (hi : s.At t i h) (db : TopUpDB) (j : ℕ)
    (g : Handler) : ¬ ((s.setDB db).finish i h).At t j g := by
  intro hj
  obtain ⟨hne, hj⟩ := At_finish.mp hj
  exact hne (hG.alone hi hj)

theorem Guarded.one_after_goOn (hG : Guarded t s) (hi : s.At t i h) (phase : Phase) (db : TopUpDB)
    (j : ℕ) (g : Handler) : ((s.setDB db).goOn i h phase).At t j g ↔ j = i ∧ g = { h with phase } := by
  rw [At_goOn]
  constructor
  · rintro (⟨hj, hg, -⟩ | ⟨hne, hj⟩)
    · exact ⟨hj, hg⟩
    · exact absurd (hG.alone hi hj) hne
  · rintro ⟨hj, hg⟩
    exact .inl ⟨hj, hg, hi.2⟩

section

variable (hG : Guarded t s)

include hG

theorem guarded_read (hat : s.At t i h) (hphase : h.phase = .locked) : Guarded t (stepRead s i h fails) := by
  have hbooks : Books t s.db := hG.books (hG.settled_of_unsaved hat (by simp [hphase]))
  unfold stepRead
  split
  · rename_i copy hadm
    obtain ⟨hrow, hprovider, hpending⟩ : s.db.topUps h.tradeNo = some copy ∧
        copy.paymentProvider = h.kind.provider ∧ copy.status = .pending := by
      simpa [admitted, filter_eq_some_iff] using hadm
    rw [hat.2] at hrow
    obtain ⟨row, hrow', hepay⟩ := hG.row
    obtain rfl := some.inj (hrow'.symm.trans hrow)
    refine guarded_of_one hG.row (hG.one_after_goOn hat (.read row) s.db) (hG.locked i h hat) ⟨?_, hepay, ?_, hbooks⟩
    · cases hk : h.kind with
      | epay type => exact ⟨type, rfl⟩
      | stripeFailed =>
        rw [hk, hepay] at hprovider
        cases hprovider
    · exact hbooks.pending (by rw [statusOf_eq hrow, hpending])
  · exact guarded_of_none hG.row hbooks (hG.none_after_finish hat s.db)

theorem guarded_save (hat : s.At t i h) (hphase : h.phase = .read copy) : Guarded t (stepSave s i h copy fault) := by
  obtain ⟨⟨type, hkind⟩, hepay, hzero⟩ := hG.copies i h copy hat hphase
  unfold stepSave
  cases fault with
  | some e =>
    have hbooks : Books t s.db := hG.books (hG.settled_of_unsaved hat (by simp [hphase]))
    exact guarded_of_none hG.row hbooks (hG.none_after_finish hat s.db)
  | none =>
    simp only [saveTopUp, Tx.run, Tx.write, hkind, hat.2, Kind.saves]
    refine guarded_of_one ⟨_, topUps_setTopUp_self _ _ _, hepay⟩
      (hG.one_after_goOn hat (.saved copy) _) (hG.locked i h hat) ⟨?_, hzero⟩
    show statusOf (s.db.setTopUp t (epaySaved copy type)) t = _
    rw [statusOf, topUps_setTopUp_self]
    rfl

theorem guarded_credit (hat : s.At t i h) (hphase : h.phase = .saved copy) (hfault : fault = none)
    (hamount : -1 < (copy.amount : ℚ) * quotaPerUnit) : Guarded t (stepCredit s i h copy quotaPerUnit fault) := by
  unfold stepCredit
  obtain ⟨hsuccess, hzero⟩ := hG.saved i h copy hat hphase
  rcases increaseUserQuota_cases h.tradeNo copy.userId (amountQuota quotaPerUnit copy) fault s.db with
    ⟨-, hneg⟩ | hdb
  · have hnonneg : 0 ≤ amountQuota quotaPerUnit copy := (Truncate.truncate_nonneg_iff _).mpr hamount
    have := hneg hfault
    omega
  · rw [hdb, hat.2]
    have hone : creditsOf (s.db.credit t copy.userId (amountQuota quotaPerUnit copy) id) t = 1 := by
      rw [creditsOf_credit, hzero, if_pos rfl]
    refine guarded_of_none hG.row ⟨?_, fun _ => hone, hone.le⟩ (hG.none_after_finish hat _)
    intro hpending
    have hpending' : statusOf s.db t = some .pending := hpending
    rw [hsuccess] at hpending'
    cases hpending'

theorem guarded_call (ht : call.tradeNo = t) (hfree : call.takesLock = true → s.locks inst t = none)
    (hcareful : Careful t s (.call inst call)) : Guarded t (s.setDB (call.tx.run s.db).2) := by
  obtain ⟨row, hrow, hepay⟩ := hG.row
  obtain hnone | ⟨row', now, quota, touch, hrow', hst, honly, hdb⟩ | ⟨row', target, hrow', hne, -, -⟩ :=
    txCall_cases call s.db
  · rw [hnone]
    exact hG
  · rw [ht] at hrow' honly hdb
    obtain rfl := some.inj (hrow'.symm.trans hrow)
    -- only the administrator completes it here, under the lock of the only instance in question
    obtain ⟨q, n, f, rfl⟩ := honly hepay
    have hnobody := hG.free (hcareful rfl) (hfree rfl)
    rw [hdb]
    refine guarded_of_none ⟨completed row' now, topUps_setTopUp_self _ _ _, hepay⟩ ?_ hnobody
    exact (hG.books fun j g copy hj => absurd hj (hnobody j g)).complete hrow hst now _ quota touch
  · rw [ht] at hrow'
    rw [some.inj (hrow'.symm.trans hrow)] at hne
    exact absurd hepay hne

theorem guarded_start (hi : s.handlers i = none) (hlock : s.locks inst t = none) (honly : OnlyOn t s inst) :
    Guarded t (step s (.start i inst t kind)) := by
  have hdb : (step s (.start i inst t kind)).db = s.db := by simp [step, hi, hlock]
  have hnobody := hG.free honly hlock
  refine guarded_of_one (by rw [hdb]; exact hG.row) (i := i) (h := ⟨inst, t, kind, .locked⟩) (fun j g => ?_) ?_ ?_
  · rw [At_start hi hlock]
    constructor
    · rintro (⟨hj, hg, -⟩ | hj)
      · exact ⟨hj, hg⟩
      · exact absurd hj (hnobody j g)
    · rintro ⟨hj, hg⟩
      exact .inl ⟨hj, hg, rfl⟩
  · simp [step, hi, hlock, setLock]
  · rw [hdb]
    exact hG.books fun j g copy hj => absurd hj (hnobody j g)

theorem guarded_crash (hcareful : ∀ i h copy, s.At t i h → h.inst = inst → h.phase ≠ .saved copy) :
    Guarded t (step s (.crash inst)) := by
  refine ⟨hG.row, ?_, ?_, ?_, ?_, hG.pending, ?_, hG.le⟩
  · intro j g hj
    obtain ⟨hj, hne⟩ := At_crash.mp hj
    have hlock : (step s (.crash inst)).locks g.inst t = s.locks g.inst t := if_neg hne
    rw [hlock]
    exact hG.locked j g hj
  · intro j k g g' hj hk
    exact hG.together j k g g' (At_crash.mp hj).1 (At_crash.mp hk).1
  · intro j g copy hj
    exact hG.copies j g copy (At_crash.mp hj).1
  · intro j g copy hj
    exact hG.saved j g copy (At_crash.mp hj).1
  · intro hsettled
    refine hG.success fun j g copy hj hphase => ?_
    by_cases hinst : g.inst = inst
    · exact hcareful j g copy hj hinst hphase
    · exact hsettled j g copy (At_crash.mpr ⟨hj, hinst⟩) hphase

end

theorem guarded_step (a : Action) (hG : Guarded t s) (hcareful : Careful t s a) : Guarded t (step s a) := by
  have hbears := step_bears t s a
  generalize step s a = s' at hbears ⊢
  cases hbears with
  | apart h => exact hG.frame h
  | start i inst kind hi hlock => exact guarded_start hG hi hlock (hcareful rfl)
  | read i h fails hat hphase => exact guarded_read hG hat hphase
  | save i h copy fault hat hphase => exact guarded_save hG hat hphase
  | credit i h copy quotaPerUnit fault hat hphase =>
    obtain ⟨hfault, hamount⟩ := hcareful h copy hat hphase
    exact guarded_credit hG hat hphase hfault hamount
  | crash inst => exact guarded_crash hG hcareful
  | call inst call ht hfree => exact guarded_call hG ht hfree hcareful

end Guarded

/-! ### Runs -/

/-- A pending order that nobody handles and nobody was credited for. -/
structure Starts : Prop where
  row : ∃ row, s.db.topUps t = some row ∧ row.status = .pending
  idle : ∀ i h, ¬ s.At t i h
  uncredited : creditsOf s.db t = 0

theorem books_starts {t : String} {s : Sys} (h : Starts t s) : Books t s.db := by
  obtain ⟨row, hrow, hpending⟩ := h.row
  refine ⟨fun _ => h.uncredited, ?_, by rw [h.uncredited]; exact Nat.zero_le 1⟩
  rw [statusOf_eq hrow, hpending]
  exact nofun

/-- **Credited once**: in every run in which the steps are careful if it is an Epay order, a top-up
order is credited at most once, and exactly once if it ends completed. -/
theorem order_credited_once {t : String} {s : Sys} {as : List Action} (hstart : Starts t s)
    (hcareful : Along step (CarefulIfEpay t) s as) : creditsOf (run step s as).db t ≤ 1 ∧
      (Settled t (run step s as) → statusOf (run step s as).db t = some .success →
        creditsOf (run step s as).db t = 1) := by
  obtain ⟨row, hrow, -⟩ := hstart.row
  by_cases hepay : row.paymentProvider = .epay
  · have hG : Guarded t (run step s as) := by
      refine run_inv (P := CarefulIfEpay t) ?_ ?_ hcareful
      · intro s a hG hcare
        refine guarded_step a hG (hcare ?_)
        obtain ⟨row', hrow', hepay'⟩ := hG.row
        simp [hrow', hepay']
      · exact guarded_of_none ⟨row, hrow, hepay⟩ (books_starts hstart) hstart.idle
    exact ⟨hG.le, hG.success⟩
  · have hP : Plain t (run step s as) := by
      refine run_inv (P := CarefulIfEpay t) (fun s a hP _ => plain_step a hP) ?_ hcareful
      exact ⟨⟨row, hrow, hepay⟩, fun i h copy hi => absurd hi (hstart.idle i h),
        fun i h copy hi => absurd hi (hstart.idle i h), books_starts hstart⟩
    exact ⟨hP.books.le, fun _ => hP.books.success⟩

def epayOrder : TopUp := ⟨1, 100, 10, "alipay", .epay, 0, 0, .pending⟩

def epaySys : Sys where
  db := ⟨fun t => if t = "T1" then some epayOrder else none, fun _ => ⟨0, "", ""⟩, []⟩
  handlers := fun _ => none
  locks := fun _ _ => none

def oneNotify : List Action :=
  [.start 0 0 "T1" (.epay "alipay"), .read 0 false, .save 0 none, .credit 0 500000 none]

theorem one_notify_credited_once : statusOf (run step epaySys oneNotify).db "T1" = some .success ∧
      creditsOf (run step epaySys oneNotify).db "T1" = 1 := by
  have hidle (i : ℕ) (h : Handler) : ¬ epaySys.At "T1" i h := by
    rintro ⟨hi, -⟩
    cases hi
  have hstart : Starts "T1" epaySys := ⟨⟨epayOrder, rfl, rfl⟩, hidle, rfl⟩
  have hcareful : Along step (CarefulIfEpay "T1") epaySys oneNotify := by
    refine ⟨fun _ _ i h hi => absurd hi (hidle i h), fun _ => trivial, fun _ => trivial, ?_, trivial⟩
    intro _ h copy hat hphase
    obtain rfl : (⟨0, "T1", .epay "alipay", .saved epayOrder⟩ : Handler) = h := some.inj hat.1
    obtain rfl : epayOrder = copy := Phase.saved.inj hphase
    exact ⟨rfl, by norm_num [epayOrder]⟩
  have hsuccess : statusOf (run step epaySys oneNotify).db "T1" = some .success := by
    decide +kernel
  refine ⟨hsuccess, (order_credited_once hstart hcareful).2 ?_ hsuccess⟩
  intro i h copy hat
  have hfinal : (run step epaySys oneNotify).handlers = update (update
      (update (update (fun _ => none) 0 (some ⟨0, "T1", .epay "alipay", .locked⟩)) 0
        (some ⟨0, "T1", .epay "alipay", .read epayOrder⟩)) 0
          (some ⟨0, "T1", .epay "alipay", .saved epayOrder⟩)) 0 none := rfl
  rw [Sys.At, hfinal] at hat
  by_cases hi : i = 0 <;> simp [hi] at hat

/-- Two instances that handle one notification twice credit the order twice; an instance that stops
between the save and the credit leaves it completed and not credited. -/
theorem epay_miscredited : creditsOf (run step epaySys [.start 0 0 "T1" (.epay "alipay"), .read 0 false,
      .start 1 1 "T1" (.epay "alipay"), .read 1 false, .save 0 none, .save 1 none,
      .credit 0 500000 none, .credit 1 500000 none]).db "T1" = 2 ∧
    statusOf (run step epaySys [.start 0 0 "T1" (.epay "alipay"), .read 0 false, .save 0 none,
      .crash 0]).db "T1" = some .success ∧
    creditsOf (run step epaySys [.start 0 0 "T1" (.epay "alipay"), .read 0 false, .save 0 none,
      .crash 0]).db "T1" = 0 := by
  refine ⟨by decide +kernel, by decide +kernel, by decide +kernel⟩

end WynthApi.Store.TopUps

import WynthApi.Store.Groups
import WynthApi.Store.TopUps

/-!
# Subscription orders, completed by webhooks (model/subscription.go)

`CompleteSubscriptionOrder` turns a pending order into a subscription: in one transaction under the
order's row lock it creates the row from the plan (raising the user's group), writes the top-up
record and marks the order.  `ExpireSubscriptionOrder` marks a pending order expired.  Webhooks may
call both any number of times, in any order; one step is one call.

`created` is not in the source: it notes which order a subscription was created for.
-/

namespace WynthApi.Store.Orders

open StepSys Groups List Tx

/-- A `SubscriptionOrder` without its unique `trade_no`, the key of the table. -/
structure SubscriptionOrder where
  (userId planId : Int)
  money : ℚ
  paymentMethod : String
  paymentProvider : PaymentProvider
  status : TopUpStatus
  (createTime completeTime : Int)
  providerPayload : String
  deriving DecidableEq

structure OrderDB where
  orders : String → Option SubscriptionOrder
  groups : GroupDB
  topUps : String → Option TopUp
  created : List (String × Int)

variable (db : OrderDB) (tradeNo : String)

def OrderDB.setOrder (order : SubscriptionOrder) : OrderDB :=
  { db with orders := Function.update db.orders tradeNo (some order) }

def errSubscriptionOrderNotFound : String := "subscription order not found"

def errSubscriptionOrderStatusInvalid : String := "subscription order status invalid"

variable (tradeNo : String)

def lockOrder (fault : Fault) : Tx OrderDB String SubscriptionOrder := do
  let row ← Tx.read (·.orders tradeNo)
  match row, fault with
  | some order, none => pure order
  | _, _ => Tx.fail errSubscriptionOrderNotFound

variable (order : SubscriptionOrder)

def saveOrder (fault : Fault) : Tx OrderDB String Unit :=
  Tx.write fault fun db => db.setOrder tradeNo order

def saveTopUp (topUp : TopUp) (fault : Fault) : Tx OrderDB String Unit :=
  Tx.write fault fun db => { db with topUps := Function.update db.topUps tradeNo (some topUp) }

def createForOrder (cal : Calendar) (tradeNo : String) (userId : Int) (plan : SubscriptionPlan)
    (now : Int) (fault : Fault) : Tx OrderDB String Unit := do
  let groups ← Tx.read (·.groups)
  let groups' ← Tx.ofExcept (createUserSubscriptionFromPlanTx cal groups userId plan now fault)
  Tx.write none fun db =>
    { db with groups := groups', created := db.created ++ [(tradeNo, groups.nextId)] }

def upsertSubscriptionTopUpTx (now : Int)
    (readFault writeFault : Fault) : Tx OrderDB String Unit := do
  let row ← Tx.read (·.topUps tradeNo)
  match readFault, row with
  | some e, _ => Tx.fail e
  | none, none =>
    saveTopUp tradeNo
      { userId := order.userId, amount := 0, money := order.money
        paymentMethod := order.paymentMethod, paymentProvider := .unset
        createTime := order.createTime, completeTime := now, status := .success } writeFault
  | none, some topUp =>
    if topUp.paymentMethod ≠ "" ∧ topUp.paymentMethod ≠ order.paymentMethod then
      Tx.fail errPaymentMethodMismatch
    else
      saveTopUp tradeNo
        { topUp with
          money := order.money
          paymentMethod := order.paymentMethod
          createTime := if topUp.createTime = 0 then order.createTime else topUp.createTime
          completeTime := now
          status := .success } writeFault

def SubscriptionOrder.expired (now : Int) : SubscriptionOrder :=
  { order with status := .expired, completeTime := now }

structure CompleteAnswers where
  cal : Calendar
  plans : Int → Except String SubscriptionPlan
  (dbNow now : Int)
  (lockFault createFault topUpReadFault topUpWriteFault saveFault commitFault : Fault)

def SubscriptionOrder.completed (now : Int)
    (providerPayload actualPaymentMethod : String) : SubscriptionOrder :=
  { order with
    status := .success
    completeTime := now
    providerPayload := if providerPayload ≠ "" then providerPayload else order.providerPayload
    paymentMethod := if actualPaymentMethod ≠ "" then actualPaymentMethod else order.paymentMethod }

def fulfil (tradeNo providerPayload actualPaymentMethod : String) (order : SubscriptionOrder)
    (a : CompleteAnswers) : Tx OrderDB String Unit := do
  let plan ← Tx.ofExcept (a.plans order.planId)
  createForOrder a.cal tradeNo order.userId plan a.dbNow a.createFault
  upsertSubscriptionTopUpTx tradeNo order a.now a.topUpReadFault a.topUpWriteFault
  saveOrder tradeNo (order.completed a.now providerPayload actualPaymentMethod) a.saveFault

/-- `CompleteSubscriptionOrder`; an `expectedPaymentProvider` that is unset is not compared. -/
def completeSubscriptionOrder (tradeNo providerPayload : String)
    (expectedPaymentProvider : PaymentProvider) (actualPaymentMethod : String)
    (a : CompleteAnswers) : Tx OrderDB String Unit :=
  if tradeNo = "" then Tx.fail "tradeNo is empty"
  else Tx.transaction a.commitFault do
    let order ← lockOrder tradeNo a.lockFault
    if expectedPaymentProvider ≠ .unset ∧ order.paymentProvider ≠ expectedPaymentProvider then
      Tx.fail errPaymentMethodMismatch
    else if order.status = .success then pure ()
    else if order.status ≠ .pending then Tx.fail errSubscriptionOrderStatusInvalid
    else fulfil tradeNo providerPayload actualPaymentMethod order a

def expireSubscriptionOrder (expectedPaymentProvider : PaymentProvider)
    (now : Int) (lockFault saveFault commitFault : Fault) : Tx OrderDB String Unit :=
  if tradeNo = "" then Tx.fail "tradeNo is empty"
  else Tx.transaction commitFault do
    let order ← lockOrder tradeNo lockFault
    if expectedPaymentProvider ≠ .unset ∧ order.paymentProvider ≠ expectedPaymentProvider then
      Tx.fail errPaymentMethodMismatch
    else if order.status ≠ .pending then pure ()
    else saveOrder tradeNo (order.expired now) saveFault

/-! ### The system -/

inductive Call where
  | complete (tradeNo providerPayload : String) (expectedPaymentProvider : PaymentProvider)
      (actualPaymentMethod : String) (a : CompleteAnswers)
  | expire (tradeNo : String) (expectedPaymentProvider : PaymentProvider) (now : Int)
      (lockFault saveFault commitFault : Fault)

def Call.tx : Call → Tx OrderDB String Unit
  | .complete tradeNo payload expected method a =>
    completeSubscriptionOrder tradeNo payload expected method a
  | .expire tradeNo expected now lock save commit =>
    expireSubscriptionOrder tradeNo expected now lock save commit

def step (db : OrderDB) (call : Call) : OrderDB := (call.tx.run db).2

def statusOf : Option TopUpStatus :=
  (db.orders tradeNo).map SubscriptionOrder.status

def subscriptionsOf : List Row :=
  db.groups.rows.filter fun r => (tradeNo, r.id) ∈ db.created

/-! ### What a call does -/

section Calls

variable {db db' : OrderDB} {tradeNo : String} {order : SubscriptionOrder} {fault : Fault}

theorem lockOrder_eq_ok : (lockOrder tradeNo fault).run db = (.ok order, db') ↔
      db.orders tradeNo = some order ∧ fault = none ∧ db' = db := by
  rw [lockOrder, bind_read]
  cases db.orders tradeNo with
  | none => simp
  | some row =>
    cases fault with
    | some e => simp
    | none => simp [eq_comm]

variable {cal : Calendar} {userId now : Int} {plan : SubscriptionPlan}

theorem createUserSubscription_rows {g g' : GroupDB}
    (h : createUserSubscriptionFromPlanTx cal g userId plan now fault = .ok g') :
    ∃ row : Row, row.id = g.nextId ∧ g'.rows = g.rows ++ [row] ∧ g'.nextId = g.nextId + 1 := by
  obtain ⟨endUnix, -, hrows, hnext, -⟩ := purchase_cases h
  exact ⟨purchasedRow cal g userId plan now endUnix, rfl, hrows, hnext⟩

variable {u : Unit}

theorem createForOrder_eq_ok (h : (createForOrder cal tradeNo userId plan now fault).run db = (.ok u, db')) :
    ∃ groups, createUserSubscriptionFromPlanTx cal db.groups userId plan now fault = .ok groups ∧ db' = { db with
        groups, created := db.created ++ [(tradeNo, db.groups.nextId)] } := by
  rw [createForOrder, bind_read] at h
  obtain ⟨groups, db₁, hcreate, hwrite⟩ := bind_eq_ok.mp h
  obtain ⟨hgroups, rfl⟩ := ofExcept_eq_ok.mp hcreate
  obtain ⟨-, rfl⟩ := write_eq_ok.mp hwrite
  exact ⟨groups, hgroups, rfl⟩

theorem upsertTopUp_eq_ok {readFault writeFault : Fault}
    (h : (upsertSubscriptionTopUpTx tradeNo order now readFault writeFault).run db = (.ok u, db')) :
    ∃ topUp : TopUp, topUp.status = .success ∧
      db' = { db with topUps := Function.update db.topUps tradeNo (some topUp) } := by
  rw [upsertSubscriptionTopUpTx, bind_read] at h
  cases readFault with
  | some e => simp at h
  | none =>
    cases hrow : db.topUps tradeNo with simp only [hrow] at h
    | none => exact ⟨_, rfl, (write_eq_ok.mp h).2⟩
    | some topUp =>
      by_cases hmethod : topUp.paymentMethod ≠ "" ∧ topUp.paymentMethod ≠ order.paymentMethod
      · rw [if_pos hmethod] at h
        simp at h
      · rw [if_neg hmethod] at h
        exact ⟨_, rfl, (write_eq_ok.mp h).2⟩

structure Fulfilled (tradeNo : String) (db db' : OrderDB) : Prop where
  row : ∃ row : Row, row.id = db.groups.nextId ∧ db'.groups.rows = db.groups.rows ++ [row] ∧
    db'.groups.nextId = db.groups.nextId + 1
  created : db'.created = db.created ++ [(tradeNo, db.groups.nextId)]
  self : statusOf db' tradeNo = some .success
  other : ∀ t, t ≠ tradeNo → db'.orders t = db.orders t
  topUp : ∃ topUp : TopUp, db'.topUps tradeNo = some topUp ∧ topUp.status = .success

theorem fulfil_eq_ok {payload method : String} {a : CompleteAnswers}
    (h : (fulfil tradeNo payload method order a).run db = (.ok u, db')) : Fulfilled tradeNo db db' := by
  obtain ⟨plan, db₁, hplan, hrest₁⟩ := bind_eq_ok.mp h
  obtain ⟨-, rfl⟩ := ofExcept_eq_ok.mp hplan
  obtain ⟨u₁, db₂, hcreate, hrest₂⟩ := bind_eq_ok.mp hrest₁
  obtain ⟨groups, hgroups, rfl⟩ := createForOrder_eq_ok hcreate
  obtain ⟨u₂, db₃, htopUp, hsave⟩ := bind_eq_ok.mp hrest₂
  obtain ⟨topUp, hsuccess, rfl⟩ := upsertTopUp_eq_ok htopUp
  obtain ⟨-, rfl⟩ := write_eq_ok.mp hsave
  refine ⟨createUserSubscription_rows hgroups, rfl, ?_, ?_, topUp, ?_, hsuccess⟩
  · simp [statusOf, OrderDB.setOrder, SubscriptionOrder.completed]
  · intro t ht
    simp [OrderDB.setOrder, ht]
  · simp [OrderDB.setOrder]

variable {call : Call}

theorem call_eq_ok (h : call.tx.run db = (.ok u, db')) : db' = db ∨
    (∃ t, statusOf db t = some .pending ∧ Fulfilled t db db') ∨
    ∃ t order now, db.orders t = some order ∧ order.status = .pending ∧ db' = db.setOrder t (order.expired now) := by
  cases call with
  | complete tradeNo payload expected method a =>
    simp only [Call.tx, completeSubscriptionOrder] at h
    split_ifs at h with hempty
    · simp at h
    obtain ⟨-, hbody⟩ := transaction_eq_ok.mp h
    obtain ⟨order, db₁, hlock, hrest⟩ := bind_eq_ok.mp hbody
    obtain ⟨horder, -, rfl⟩ := lockOrder_eq_ok.mp hlock
    split_ifs at hrest with hexpected hdone hstatus
    · simp at hrest
    · exact .inl (Prod.mk.inj hrest).2.symm
    · simp at hrest
    · refine .inr (.inl ⟨tradeNo, ?_, fulfil_eq_ok hrest⟩)
      simp [statusOf, horder, not_not.mp hstatus]
  | expire tradeNo expected now lock save commit =>
    simp only [Call.tx, expireSubscriptionOrder] at h
    split_ifs at h with hempty
    · simp at h
    obtain ⟨-, hbody⟩ := transaction_eq_ok.mp h
    obtain ⟨order, db₁, hlock, hrest⟩ := bind_eq_ok.mp hbody
    obtain ⟨horder, -, rfl⟩ := lockOrder_eq_ok.mp hlock
    split_ifs at hrest with hexpected hstatus
    · simp at hrest
    · exact .inl (Prod.mk.inj hrest).2.symm
    · obtain ⟨-, rfl⟩ := write_eq_ok.mp hrest
      exact .inr (.inr ⟨tradeNo, order, now, horder, not_not.mp hstatus, rfl⟩)

theorem call_error {e : String} (h : (call.tx.run db).1 = .error e) : step db call = db := by
  have hrun : call.tx.run db = (.error e, step db call) := Prod.ext h rfl
  cases call with
  | complete tradeNo payload expected method a =>
    simp only [Call.tx, completeSubscriptionOrder] at hrun
    split_ifs at hrun with hempty
    · exact (Prod.mk.inj hrun).2.symm
    · exact transaction_error hrun
  | expire tradeNo expected now lock save commit =>
    simp only [Call.tx, expireSubscriptionOrder] at hrun
    split_ifs at hrun with hempty
    · exact (Prod.mk.inj hrun).2.symm
    · exact transaction_error hrun

theorem step_cases (db : OrderDB) (call : Call) : step db call = db ∨
    (∃ t, statusOf db t = some .pending ∧ Fulfilled t db (step db call)) ∨
    ∃ t order now, db.orders t = some order ∧ order.status = .pending ∧
      step db call = db.setOrder t (order.expired now) := by
  cases hres : (call.tx.run db).1 with
  | error e => exact .inl (call_error hres)
  | ok u => exact call_eq_ok (Prod.ext hres rfl)

end Calls

/-! ### Runs -/

section Runs

variable {t : String} {db db' : OrderDB}

/-- Row ids and noted ids are below the next one, and the order has one subscription once it is
completed, none before. -/
structure Inv (t : String) (db : OrderDB) : Prop where
  fresh : ∀ r ∈ db.groups.rows, r.id < db.groups.nextId
  known : ∀ p ∈ db.created, p.2 < db.groups.nextId
  count : (subscriptionsOf db t).length = if statusOf db t = some .success then 1 else 0

theorem subscriptionsOf_fulfilled {u : String} (hinv : Inv t db) (h : Fulfilled u db db') :
    (subscriptionsOf db' t).length = (subscriptionsOf db t).length + if t = u then 1 else 0 := by
  obtain ⟨row, hid, hrows, -⟩ := h.row
  have hold : db.groups.rows.filter (fun r => (t, r.id) ∈ db'.created) = subscriptionsOf db t := by
    refine filter_congr fun r hr => ?_
    have hlt := hinv.fresh r hr
    have hne : (t, r.id) ≠ (u, db.groups.nextId) := by
      intro heq
      have := (Prod.mk.inj heq).2
      omega
    simp [h.created, hne]
  have hnew : ((t, row.id) ∈ db'.created) ↔ t = u := by
    rw [h.created, mem_append, mem_singleton, hid]
    constructor
    · rintro (hmem | heq)
      · exact absurd (hinv.known _ hmem) (lt_irrefl _)
      · exact (Prod.mk.inj heq).1
    · rintro rfl
      exact .inr rfl
  unfold subscriptionsOf at hold ⊢
  rw [hrows, filter_append, length_append, hold]
  split_ifs with htu
  · rw [filter_singleton, decide_eq_true (hnew.mpr htu)]
    rfl
  · rw [filter_singleton, decide_eq_false (mt hnew.mp htu)]
    rfl

theorem statusOf_setOrder_self (db : OrderDB) (t : String) (order : SubscriptionOrder) :
    statusOf (db.setOrder t order) t = some order.status := by
  simp [statusOf, OrderDB.setOrder]

theorem statusOf_setOrder_ne (db : OrderDB) {u : String} (h : t ≠ u) (order : SubscriptionOrder) :
    statusOf (db.setOrder u order) t = statusOf db t := by
  simp [statusOf, OrderDB.setOrder, h]

theorem statusOf_fulfilled_ne {u : String} (h : Fulfilled u db db') (htu : t ≠ u) : statusOf db' t = statusOf db t := by
  simp only [statusOf, h.other t htu]

theorem inv_step (call : Call) (hinv : Inv t db) : Inv t (step db call) := by
  obtain hsame | ⟨u, hpending, h⟩ | ⟨u, order, now, horder, hpending, hset⟩ := step_cases db call
  · rw [hsame]
    exact hinv
  · obtain ⟨row, hid, hrows, hnext⟩ := h.row
    refine ⟨?_, ?_, ?_⟩
    · intro r hr
      rw [hrows, mem_append, mem_singleton] at hr
      rcases hr with hr | rfl
      · have := hinv.fresh r hr
        omega
      · omega
    · intro p hp
      rw [h.created, mem_append, mem_singleton] at hp
      rcases hp with hp | rfl
      · have := hinv.known p hp
        omega
      · show db.groups.nextId < _
        omega
    · rw [subscriptionsOf_fulfilled hinv h, hinv.count]
      by_cases htu : t = u
      · subst htu
        simp [hpending, h.self]
      · rw [statusOf_fulfilled_ne h htu, if_neg htu, add_zero]
  · rw [hset]
    refine ⟨hinv.fresh, hinv.known, ?_⟩
    have hsubs : subscriptionsOf (db.setOrder u (order.expired now)) t = subscriptionsOf db t := rfl
    rw [hsubs, hinv.count]
    by_cases htu : t = u
    · subst htu
      have hstatus : statusOf db t = some .pending := by simp [statusOf, horder, hpending]
      simp [hstatus, statusOf_setOrder_self, SubscriptionOrder.expired]
    · rw [statusOf_setOrder_ne db htu]

theorem statusOf_step (call : Call) (h : statusOf db t ≠ some .pending) :
    statusOf (step db call) t = statusOf db t := by
  obtain hsame | ⟨u, hpending, hdone⟩ | ⟨u, order, now, horder, hpending, hset⟩ := step_cases db call
  · rw [hsame]
  · refine statusOf_fulfilled_ne hdone ?_
    rintro rfl
    exact h hpending
  · rw [hset]
    refine statusOf_setOrder_ne db ?_ _
    rintro rfl
    exact h (by simp [statusOf, horder, hpending])

theorem statusOf_run (calls : List Call) (h : statusOf db t ≠ some .pending) :
    statusOf (run step db calls) t = statusOf db t := by
  have hall : Along step (fun _ _ => True) db calls := along_of_forall (fun _ _ => trivial) db
  refine run_rel (I := fun _ => True) (R := fun s s' => statusOf s t ≠ some .pending → statusOf s' t = statusOf s t)
    (fun _ _ => rfl) ?_ (fun s call _ _ => ⟨trivial, statusOf_step call⟩) trivial hall h
  intro s s₁ s₂ h₁ h₂ hs
  have hs₁ := h₁ hs
  exact (h₂ (by rwa [hs₁])).trans hs₁

theorem statusOf_final {calls as bs : List Call} (has : as <+: calls) (hbs : bs <+: calls)
    (ha : statusOf (run step db as) t ≠ some .pending) (hb : statusOf (run step db bs) t ≠ some .pending) :
    statusOf (run step db as) t = statusOf (run step db bs) t := by
  rcases prefix_or_prefix_of_prefix has hbs with ⟨rest, rfl⟩ | ⟨rest, rfl⟩
  · rw [run_append, statusOf_run rest ha]
  · rw [run_append, statusOf_run rest hb]

/-- A pending order nothing has been created for, in tables whose ids are below the next one. -/
structure Starts (t : String) (db : OrderDB) : Prop where
  pending : statusOf db t = some .pending
  unnoted : db.created = []
  fresh : ∀ r ∈ db.groups.rows, r.id < db.groups.nextId

theorem inv_starts (h : Starts t db) : Inv t db := by
  refine ⟨h.fresh, ?_, ?_⟩
  · rw [h.unnoted]
    exact forall_mem_nil _
  · simp [subscriptionsOf, h.unnoted, h.pending]

/-- **Exactly once**: along every run of completions and expiries, a pending order gets at most one
subscription, has one exactly when its status is success, is never both completed and expired, and a call
that fails leaves every table as it was. -/
theorem order_completed_once (hstart : Starts t db) (calls : List Call) :
    (subscriptionsOf (run step db calls) t).length ≤ 1 ∧
    (subscriptionsOf (run step db calls) t ≠ [] ↔ statusOf (run step db calls) t = some .success) ∧
    (∀ as bs, as <+: calls → bs <+: calls → ¬ (statusOf (run step db as) t = some .success ∧
        statusOf (run step db bs) t = some .expired)) ∧
    (∀ as call bs e, calls = as ++ call :: bs → (call.tx.run (run step db as)).1 = .error e →
      run step db (as ++ [call]) = run step db as) := by
  have hall : Along step (fun _ _ => True) db calls := along_of_forall (fun _ _ => trivial) db
  have hinv : Inv t (run step db calls) :=
    run_inv (fun s call h _ => inv_step call h) (inv_starts hstart) hall
  have hcount := hinv.count
  refine ⟨?_, ?_, ?_, ?_⟩
  · rw [hcount]
    split_ifs <;> omega
  · rw [← List.length_pos_iff, hcount]
    split_ifs with h <;> simp [h]
  · rintro as bs has hbs ⟨ha, hb⟩
    have heq : statusOf (run step db as) t = statusOf (run step db bs) t := by
      refine statusOf_final has hbs ?_ ?_
      · simp [ha]
      · simp [hb]
    rw [ha, hb] at heq
    cases heq
  · intro as call bs e _ herr
    rw [run_append, run_cons, run_nil]
    exact call_error herr

end Runs

def exampleOrders : OrderDB where
  orders := fun t => if t = "T1" then
    some ⟨1, 5, 10, "alipay", .epay, .pending, 100, 0, ""⟩ else none
  groups := ⟨[], fun _ => "default", 1⟩
  topUps := fun _ => none
  created := []

def exampleComplete (topUpFault : Fault) : Call :=
  .complete "T1" "paid" .epay "wxpay" ⟨uniformCalendar, fun id =>
    .ok ⟨id, "custom", 0, 1000, 0, "vip", "", 100, "never", 0⟩, 1000, 1000, none, none, none,
    topUpFault, none, none⟩

def exampleCalls : List Call :=
  [exampleComplete (some "disk full"), exampleComplete none, exampleComplete none,
    .expire "T1" .unset 2000 none none none]

theorem duplicate_webhooks_complete_once :
    (subscriptionsOf (run step exampleOrders exampleCalls) "T1").length ≤ 1 ∧
    subscriptionsOf (run step exampleOrders exampleCalls) "T1" ≠ [] ∧
    statusOf (run step exampleOrders exampleCalls) "T1" = some .success := by
  have hstart : Starts "T1" exampleOrders := ⟨rfl, rfl, List.forall_mem_nil _⟩
  have hdone : statusOf (run step exampleOrders exampleCalls) "T1" = some .success := by decide
  obtain ⟨hle, hiff, -, -⟩ := order_completed_once hstart exampleCalls
  exact ⟨hle, hiff.mpr hdone, hdone⟩

end WynthApi.Store.Orders

import WynthApi.Lib.Budget
import WynthApi.Lib.Run
import WynthApi.Store.Schedule
import WynthApi.Store.Subscription

/-!
# What the requests of one reset period are charged in all

Pre-consumes, settlement deltas, refunds and scheduled resets run in any order on the subscription table.  A step is
one transaction: a refund is two (its usage update commits on its own, its record is marked later), the scheduled task
one per row (`resetEach_run`).

Two ghost columns attribute every charge to its period.  `resets` counts the moves of a row's period start.  `charges`
holds for each request the subscription and the period it was pre-consumed in, and what it is charged so far.

The row's counter does not know periods: what arrives after a reset is booked on the new one, so a late refund makes
room there that the new period's own requests then use.  The counter itself stays within the limit in every run.
-/

namespace WynthApi.Store

open List AList

/-! ### What a pre-consume does to every row -/

/-- The rows after a pre-consume that answered `res`: a row is as it was or has been reset, and the
row of `res` has been reset, had room for `amount` and has been charged `x`. -/
structure RowsCharged (tx : PreConsumeTx) (amount x : Int) (db db' : DB)
    (res : SubscriptionPreConsumeResult) : Prop where
  others : ∀ i, i ≠ res.userSubscriptionId → db'.subs.lookup i = db.subs.lookup i ∨
    ∃ a b, db.subs.lookup i = some a ∧ tx.reset i a = .ok b ∧ db'.subs.lookup i = some b
  charged : ∃ a b, db.subs.lookup res.userSubscriptionId = some a ∧
    tx.reset res.userSubscriptionId a = .ok b ∧
    (0 < b.amountTotal → b.amountUsed + amount ≤ b.amountTotal) ∧
    db'.subs.lookup res.userSubscriptionId = some { b with amountUsed := b.amountUsed + x }

variable {requestId : String} {amount userId : Int} {tx : PreConsumeTx}

theorem chargeFirst_rows :
    ∀ {subs : List (Σ _ : Int, UserSubscription)} {db db' : DB} {res : SubscriptionPreConsumeResult},
      (∀ e ∈ subs, db.subs.lookup e.1 = some e.2) → (subs.map Sigma.fst).Nodup →
      chargeFirst tx requestId userId amount subs db = .ok (db', res) →
      RowsCharged tx amount (if tx.dup = none then amount else 0) db db' res ∧
        (∀ i, i ∉ subs.map Sigma.fst → db'.subs.lookup i = db.subs.lookup i) ∧
        res.userSubscriptionId ∈ subs.map Sigma.fst
  | [], _, _, _, _, _, h => by simp [chargeFirst] at h
  | ⟨id, candidate⟩ :: rest, db, db', res, hrows, hnodup, h => by
    have hid : db.subs.lookup id = some candidate := hrows ⟨id, candidate⟩ mem_cons_self
    rw [map_cons, nodup_cons] at hnodup
    obtain ⟨hnew, hnodup⟩ := hnodup
    unfold chargeFirst at h
    cases hr : tx.reset id candidate with
    | error e => simp [hr] at h
    | ok sub =>
      have hself : (db.subs.insert id sub).lookup id = some sub := lookup_insert _
      have hother : ∀ i, i ≠ id → (db.subs.insert id sub).lookup i = db.subs.lookup i :=
        fun i hi => lookup_insert_ne hi
      simp only [hr] at h
      by_cases hskip : 0 < sub.amountTotal ∧ sub.amountTotal - sub.amountUsed < amount
      · rw [if_pos hskip] at h
        have hrest : ∀ e ∈ rest, (db.subs.insert id sub).lookup e.1 = some e.2 := by
          intro e he
          have hne : e.1 ≠ id := fun heq => hnew (mem_map.mpr ⟨e, he, heq⟩)
          rw [hother e.1 hne]
          exact hrows e (mem_cons_of_mem _ he)
        obtain ⟨hcharged, hsame, hmem⟩ := chargeFirst_rows hrest hnodup h
        have hne : res.userSubscriptionId ≠ id := fun heq => hnew (heq ▸ hmem)
        refine ⟨⟨fun i hi => ?_, ?_⟩, fun i hi => ?_, mem_cons_of_mem _ hmem⟩
        · by_cases hii : i = id
          · subst hii
            exact .inr ⟨candidate, sub, hid, hr, (hsame i hnew).trans hself⟩
          · have hi' := hcharged.others i hi
            simp only [hother i hii] at hi'
            exact hi'
        · obtain ⟨a, b, ha, hb⟩ := hcharged.charged
          exact ⟨a, b, (hother _ hne).symm.trans ha, hb⟩
        · rw [map_cons, mem_cons, not_or] at hi
          exact (hsame i hi.2).trans (hother i hi.1)
      · rw [if_neg hskip] at h
        have hroom : 0 < sub.amountTotal → sub.amountUsed + amount ≤ sub.amountTotal := by
          intro hpos
          have := fun hlt => hskip ⟨hpos, hlt⟩
          omega
        cases hdup : tx.dup with simp only [hdup] at h
        | some dup =>
          split_ifs at h with hst
          obtain ⟨rfl, rfl⟩ := Prod.mk.inj (Except.ok.inj h)
          rw [if_neg (by simp)]
          refine ⟨⟨fun i hi => .inl (hother i hi), candidate, sub, hid, hr, hroom, ?_⟩,
            fun i hi => hother i (by simp_all), by simp⟩
          simp only [hself, add_zero]
        | none =>
          obtain ⟨rfl, rfl⟩ := Prod.mk.inj (Except.ok.inj h)
          have hpost : ∀ i, i ≠ id → (DB.post { db with
                subs := db.subs.insert id sub
                records := db.records.insert requestId ⟨userId, id, amount, .consumed⟩ }
              (.subscription id) amount amount).subs.lookup i = db.subs.lookup i := by
            intro i hi
            rw [post_subs_of_ne _ (by simpa using hi.symm)]
            exact hother i hi
          rw [if_pos rfl]
          refine ⟨⟨fun i hi => .inl (hpost i hi), candidate, sub, hid, hr, hroom, ?_⟩,
            fun i hi => hpost i (by simp_all), by simp⟩
          exact post_subs_self hself _ _

theorem mem_activeSubs {db : DB} {now : Int} {e : Σ _ : Int, UserSubscription}
    (h : e ∈ activeSubs db userId now) : db.subs.lookup e.1 = some e.2 := by
  unfold activeSubs at h
  rw [mem_insertionSort, mem_filter] at h
  exact mem_lookup_iff.mpr h.1

theorem nodup_activeSubs (db : DB) (userId now : Int) : ((activeSubs db userId now).map Sigma.fst).Nodup := by
  have hperm := (perm_insertionSort (fun e f : Σ _ : Int, UserSubscription =>
    e.2.endTime < f.2.endTime ∨ (e.2.endTime = f.2.endTime ∧ e.1 ≤ f.1)) (db.subs.entries.filter fun e =>
      e.2.userId = userId ∧ e.2.status = .active ∧ now < e.2.endTime)).map Sigma.fst
  refine hperm.nodup_iff.mpr ?_
  exact (filter_sublist.map Sigma.fst).nodup db.subs.nodupKeys

theorem chargeFirst_records {subs : List (Σ _ : Int, UserSubscription)} {db db' : DB}
    {res : SubscriptionPreConsumeResult}
    (h : chargeFirst tx requestId userId amount subs db = .ok (db', res)) : db'.records = if tx.dup = none
      then db.records.insert requestId ⟨userId, res.userSubscriptionId, amount, .consumed⟩
      else db.records := by
  obtain ⟨-, -, hout⟩ := chargeFirst_spec h
  cases hdup : tx.dup with simp only [hdup] at hout
  | none => exact hout.2.2
  | some dup => exact hout.2.2

/-- A call whose look-up of the record ran before another call with the same id committed: the
look-up sees no record, and the insert meets the one in `tx.dup`. -/
def preConsumeLate (tx : PreConsumeTx) (db : DB) (requestId : String) (userId amount : Int) :
    Except String (DB × SubscriptionPreConsumeResult) :=
  match preConsumeUserSubscription tx { db with records := db.records.erase requestId } requestId
      userId amount with
  | .error e => .error e
  | .ok (db', res) =>
    .ok ({ db' with records := if tx.dup = none then db'.records else db.records }, res)

end WynthApi.Store

namespace WynthApi.Store.Period

open StepSys List AList

/-- What a request is charged so far, and the subscription and period it was pre-consumed in. -/
structure Charge where
  userSubscriptionId : Int
  period : ℕ
  amount : Int
  refunded : Bool
  deriving DecidableEq

structure Sys where
  db : DB
  resets : Int → ℕ
  charges : AList fun _ : String => Charge

/-- One transaction.  `late` is a pre-consume whose look-up missed the record that is there now. -/
inductive Action where
  | preConsume (call : ResetCall) (late : Bool) (fault : Fault) (requestId : String)
      (userId amount : Int)
  | settle (requestId : String) (userSubscriptionId delta : Int) (fault : Fault)
  | refundUsage (requestId : String) (fault : Fault)
  | refundMark (requestId : String)
  | resetDue (call : ResetCall) (userSubscriptionId : Int) (plan : SubscriptionPlan) (fault : Fault)

section Defs

variable (s : Sys)

def Sys.moveTo (db : DB) : Sys :=
  { s with
    db
    resets := fun i =>
      if (db.subs.lookup i).map periodStart = (s.db.subs.lookup i).map periodStart then s.resets i
      else s.resets i + 1 }

variable (requestId : String)

def Sys.setCharge (c : Charge) : Sys :=
  { s with charges := s.charges.insert requestId c }

def Sys.book (userSubscriptionId delta : Int) : Sys :=
  match s.charges.lookup requestId with
  | some c =>
    if c.userSubscriptionId = userSubscriptionId then
      s.setCharge requestId { c with amount := c.amount + delta }
    else s
  | none => s

def Sys.giveBack (record : SubscriptionPreConsumeRecord) : Sys :=
  match s.charges.lookup requestId with
  | some c =>
    if c.userSubscriptionId = record.userSubscriptionId ∧ c.refunded = false then
      s.setCharge requestId { c with amount := c.amount - record.preConsumed, refunded := true }
    else s
  | none => s

def preConsumeTx (call : ResetCall) (fault : Fault) (requestId : String) : PreConsumeTx :=
  ⟨call.now, fun _ => call.reset, s.db.records.lookup requestId, fault⟩

def preConsumeCall (call : ResetCall) (late : Bool) (fault : Fault) (requestId : String)
    (userId amount : Int) : Except String (DB × SubscriptionPreConsumeResult) :=
  let tx := preConsumeTx s call fault requestId
  if late = true then preConsumeLate tx s.db requestId userId amount
  else preConsumeUserSubscription tx s.db requestId userId amount

def step : Action → Sys
  | .preConsume call late fault requestId userId amount =>
    match preConsumeCall s call late fault requestId userId amount with
    | .error _ => s
    | .ok (db, res) =>
      let s' := s.moveTo db
      if s.db.records.lookup requestId = none then
        s'.setCharge requestId
          ⟨res.userSubscriptionId, s'.resets res.userSubscriptionId, amount, false⟩
      else s'
  | .settle requestId userSubscriptionId delta fault =>
    match postConsumeUserSubscriptionDelta s.db userSubscriptionId delta fault with
    | .error _ => s
    | .ok db => (s.moveTo db).book requestId userSubscriptionId delta
  | .refundUsage requestId fault =>
    match s.db.records.lookup requestId with
    | none => s
    | some record =>
      if GoText.isBlank requestId = true ∨ record.status = .refunded ∨ record.preConsumed ≤ 0 then s
      else match postConsumeUserSubscriptionDelta s.db record.userSubscriptionId
          (-record.preConsumed) fault with
        | .error _ => s
        | .ok db => (s.moveTo db).giveBack requestId record
  | .refundMark requestId =>
    match s.db.records.lookup requestId with
    | none => s
    | some record =>
      if record.status = .refunded then s
      else s.moveTo (markRefunded s.db requestId record)
  | .resetDue call userSubscriptionId plan fault =>
    match resetDueSubscription call s.db userSubscriptionId plan fault with
    | .error _ => s
    | .ok (db, _) => s.moveTo db

def start (db : DB) : Sys := ⟨db, fun _ => 0, ∅⟩

/-- What the requests pre-consumed on subscription `i` in its period `k` are charged in all. -/
def periodTotal (i : Int) (k : ℕ) : Int :=
  Tally.total (fun c : Charge => if c.userSubscriptionId = i ∧ c.period = k then c.amount else 0)
    s.charges

def InPeriod (i : Int) : Prop :=
  (s.charges.lookup requestId).any fun c => c.userSubscriptionId = i ∧ c.period = s.resets i
  deriving Decidable

def Unused (i : Int) : Prop := (s.db.subs.lookup i).all fun sub => sub.amountUsed = 0
  deriving Decidable

/-- A delta finds its period open, and a refund is not a second one.  A negative delta may also come
late to a row with nothing used, which it leaves as it is. -/
def Timely : Action → Prop
  | .settle requestId i delta _ =>
    delta = 0 ∨ InPeriod s requestId i ∨ (delta < 0 ∧ Unused s i)
  | .refundUsage requestId _ =>
    match s.db.records.lookup requestId with
    | none => True
    | some record => Unused s record.userSubscriptionId ∨
        (InPeriod s requestId record.userSubscriptionId ∧
          (s.charges.lookup requestId).all fun c => !c.refunded)
  | _ => True

instance (s : Sys) (a : Action) : Decidable (Timely s a) := by
  unfold Timely
  repeat' split
  all_goals infer_instance

end Defs

/-! ### One row seen as a budget -/

variable {sub : UserSubscription} {r' : String}

section Views

variable {s : Sys} {i : Int}

def view (s : Sys) (i : Int) (sub : UserSubscription) : Budget :=
  ⟨sub.amountTotal, sub.amountUsed, s.resets i, periodTotal s i⟩

structure Inv (s : Sys) : Prop where
  sound : ∀ i sub, s.db.subs.lookup i = some sub → (view s i sub).Sound
  recorded : ∀ r, s.db.records.lookup r = none → s.charges.lookup r = none

theorem inv_start {db : DB} (h : ∀ i sub, db.subs.lookup i = some sub → 0 ≤ sub.amountUsed) : Inv (start db) := by
  refine ⟨fun i sub hsub => ?_, fun r _ => rfl⟩
  exact ⟨h i sub hsub, h i sub hsub, fun k _ => Int.le_refl 0, fun hpos k => Int.le_of_lt hpos⟩

theorem sound_moveTo {db : DB} {sub' : UserSubscription} (hsub : s.db.subs.lookup i = some sub)
    (hsub' : (db.subs.lookup i).map periodStart = some (periodStart sub')) (hcarried : Carried sub sub')
    (h : (view s i sub).Sound) : (view (s.moveTo db) i sub').Sound := by
  rcases hcarried.used with ⟨hstart, hused⟩ | ⟨hstart, hused⟩
  · have hview : view (s.moveTo db) i sub' = view s i sub := by
      apply Budget.ext
      · exact hcarried.total
      · exact hused
      · show (if _ then s.resets i else s.resets i + 1) = s.resets i
        rw [hsub, hsub', if_pos (by simp [hstart])]
      · rfl
    rw [hview]
    exact h
  · have hview : view (s.moveTo db) i sub' = (view s i sub).reopen := by
      apply Budget.ext
      · exact hcarried.total
      · exact hused
      · show (if _ then s.resets i else s.resets i + 1) = s.resets i + 1
        rw [hsub, hsub', if_neg (by simp [hstart])]
      · rfl
    rw [hview]
    exact h.reopen

theorem periodTotal_setCharge (s : Sys) (r : String) (c : Charge) (i : Int) (k : ℕ) :
    periodTotal (s.setCharge r c) i k = periodTotal s i k -
      (s.charges.lookup r).elim 0 (fun c => if c.userSubscriptionId = i ∧ c.period = k then c.amount
        else 0) + if c.userSubscriptionId = i ∧ c.period = k then c.amount else 0 :=
  Tally.total_insert _ _ _ _

variable {r : String} {d : Int} {c : Charge}

theorem periodTotal_new (hr : s.charges.lookup r = none) (j : Int) (p : ℕ) (x : Int) (b : Bool) (i : Int)
    (k : ℕ) : periodTotal (s.setCharge r ⟨j, p, x, b⟩) i k = periodTotal s i k + if j = i ∧ p = k then x else 0 := by
  rw [periodTotal_setCharge, hr, Option.elim_none, sub_zero]

theorem periodTotal_change (hc : s.charges.lookup r = some c) (x : Int) (b : Bool) (i : Int) (k : ℕ) :
    periodTotal (s.setCharge r { c with amount := c.amount + x, refunded := b }) i k =
      periodTotal s i k + if c.userSubscriptionId = i ∧ c.period = k then x else 0 := by
  rw [periodTotal_setCharge, hc, Option.elim_some]
  by_cases h : c.userSubscriptionId = i ∧ c.period = k
  · simp only [if_pos h]
    omega
  · simp only [if_neg h]
    omega

theorem charges_setCharge_none {c' : Charge} (hc : s.charges.lookup r = some c)
    (h : s.charges.lookup r' = none) : (s.setCharge r c').charges.lookup r' = none := by
  have hne : r' ≠ r := by
    rintro rfl
    rw [hc] at h
    cases h
  exact (lookup_insert_ne hne).trans h

/-- What a delta `d` on row `i` enters in the ledger: `d` itself in the current period, or, if the
row has nothing to give back, at most zero in some period. -/
structure Entered (s s' : Sys) (i d : Int) : Prop where
  db : s'.db = s.db
  resets : s'.resets = s.resets
  keys : ∀ r, s.charges.lookup r = none → s'.charges.lookup r = none
  spent : ∃ p x, (∀ j k, periodTotal s' j k = periodTotal s j k + if i = j ∧ p = k then x else 0) ∧
    ((p = s.resets i ∧ x = d) ∨ (d < 0 ∧ Unused s i ∧ x ≤ 0))

theorem Entered.nothing (i : Int) (hd : d < 0) (hunused : Unused s i) : Entered s s i d :=
  ⟨rfl, rfl, fun _ h => h, 0, 0, by simp, .inr ⟨hd, hunused, le_rfl⟩⟩

theorem Entered.charge {b : Bool} (hc : s.charges.lookup r = some c) (hi : c.userSubscriptionId = i)
    (h : c.period = s.resets i ∨ (d < 0 ∧ Unused s i)) :
    Entered s (s.setCharge r { c with amount := c.amount + d, refunded := b }) i d := by
  refine ⟨rfl, rfl, fun r' hr' => charges_setCharge_none hc hr', c.period, d, fun j k => ?_, ?_⟩
  · rw [periodTotal_change hc, hi]
  · rcases h with h | ⟨hd, hunused⟩
    · exact .inl ⟨h, rfl⟩
    · exact .inr ⟨hd, hunused, hd.le⟩

theorem InPeriod.charge (h : InPeriod s r i) : ∃ c, s.charges.lookup r = some c ∧
    c.userSubscriptionId = i ∧ c.period = s.resets i := by
  unfold InPeriod at h
  cases hc : s.charges.lookup r with
  | none => simp [hc] at h
  | some c =>
    simp only [hc, Option.any_some, decide_eq_true_eq] at h
    exact ⟨c, rfl, h⟩

theorem entered_book (h : InPeriod s r i ∨ (d < 0 ∧ Unused s i)) : Entered s (s.book r i d) i d := by
  unfold Sys.book
  rcases h with h | ⟨hd, hunused⟩
  · obtain ⟨c, hc, hi, hp⟩ := h.charge
    simp only [hc, if_pos hi]
    exact Entered.charge hc hi (.inl hp)
  · cases hc : s.charges.lookup r with
    | none => exact Entered.nothing i hd hunused
    | some c =>
      simp only
      split_ifs with hi
      · exact Entered.charge hc hi (.inr ⟨hd, hunused⟩)
      · exact Entered.nothing i hd hunused

theorem entered_giveBack {record : SubscriptionPreConsumeRecord} (hpos : 0 < record.preConsumed)
    (h : Unused s record.userSubscriptionId ∨ (InPeriod s r record.userSubscriptionId ∧
      (s.charges.lookup r).all fun c => !c.refunded)) :
    Entered s (s.giveBack r record) record.userSubscriptionId (-record.preConsumed) := by
  have hneg : -record.preConsumed < 0 := by omega
  unfold Sys.giveBack
  rcases h with hunused | ⟨h, hopen⟩
  · cases hc : s.charges.lookup r with
    | none => exact Entered.nothing _ hneg hunused
    | some c =>
      simp only
      split_ifs with hi
      · rw [sub_eq_add_neg]
        exact Entered.charge hc hi.1 (.inr ⟨hneg, hunused⟩)
      · exact Entered.nothing _ hneg hunused
  · obtain ⟨c, hc, hi, hp⟩ := h.charge
    rw [hc, Option.all_some] at hopen
    simp only [hc, if_pos (show c.userSubscriptionId = record.userSubscriptionId ∧ c.refunded = false from
      ⟨hi, by simpa using hopen⟩), sub_eq_add_neg]
    exact Entered.charge hc hi (.inl hp)

end Views

/-! ### Every timely step keeps the rows sound -/

section Steps

variable {s : Sys}

variable {db : DB} {fault : Fault} {call : ResetCall} {amount d i : Int} {r : String}

theorem moveTo_resets (h : ∀ i, (db.subs.lookup i).map periodStart = (s.db.subs.lookup i).map periodStart) :
    s.moveTo db = { s with db } := by
  unfold Sys.moveTo
  simp only [h, if_true]

theorem periodStart_post (db : DB) (i r x : Int) (j : Int) :
    ((db.post (.subscription i) r x).subs.lookup j).map periodStart = (db.subs.lookup j).map periodStart := by
  by_cases hj : i = j
  · subst hj
    cases hsub : db.subs.lookup i with
    | none => simp [DB.post, hsub]
    | some sub =>
      rw [post_subs_self hsub]
      rfl
  · rw [post_subs_of_ne _ (by simpa using hj)]

theorem inv_usage {s' : Sys} (hinv : Inv s) (hd : d ≠ 0) (h : postConsumeUserSubscriptionDelta s.db i d fault = .ok db)
    (hentered : Entered s { s' with db := s.db } i d) (hdb : s'.db = db) : Inv s' := by
  obtain ⟨-, ⟨h0, -⟩ | ⟨-, -, sub, hsub, hfit, hpost⟩⟩ := postConsume_cases h
  · exact absurd h0 hd
  obtain ⟨p, x, hspent, hx⟩ := hentered.spent
  have hresets : s'.resets = s.resets := hentered.resets
  have htotal : ∀ j k, periodTotal s' j k = periodTotal s j k + if i = j ∧ p = k then x else 0 := hspent
  refine ⟨fun j sub' hsub' => ?_, fun r hr => ?_⟩
  · rw [hdb, hpost] at hsub'
    by_cases hj : i = j
    · subst hj
      rw [post_subs_self hsub, Option.some.injEq] at hsub'
      have hused : sub'.amountUsed = clampUsed sub.amountUsed d := by
        rw [← hsub']
        show sub.amountUsed + (clampUsed sub.amountUsed d - sub.amountUsed) = _
        omega
      have hclamp : clampUsed sub.amountUsed d = max 0 (sub.amountUsed + d) := by
        unfold clampUsed
        split_ifs <;> omega
      have hlimit : sub'.amountTotal = sub.amountTotal := by rw [← hsub']
      have hsound := hinv.sound i sub hsub
      rcases hx with ⟨rfl, rfl⟩ | ⟨hneg, hunused, hx⟩
      · have hview : view s' i sub' = (view s i sub).adjust x := by
          apply Budget.ext
          · exact hlimit
          · exact hused.trans hclamp
          · exact congrFun hresets i
          · funext k
            show periodTotal s' i k = periodTotal s i k + if k = s.resets i then x else 0
            rw [htotal]
            simp only [true_and, eq_comm]
        rw [hview]
        refine hsound.adjust fun hpos => ?_
        have hpos' : 0 < sub.amountTotal := hpos
        show max 0 (sub.amountUsed + x) ≤ sub.amountTotal
        rw [← hclamp]
        exact not_lt.mp fun hlt => hfit ⟨hpos', hlt⟩
      · have hzero : sub.amountUsed = 0 := by
          unfold Unused at hunused
          simpa [hsub] using hunused
        have hview : view s' i sub' = (view s i sub).release p x := by
          apply Budget.ext
          · exact hlimit
          · show sub'.amountUsed = sub.amountUsed
            rw [hused, hclamp]
            omega
          · exact congrFun hresets i
          · funext k
            show periodTotal s' i k = periodTotal s i k + if k = p then x else 0
            rw [htotal]
            simp only [true_and, eq_comm]
        rw [hview]
        exact hsound.release hx
    · rw [post_subs_of_ne _ (by simpa using hj)] at hsub'
      have hview : view s' j sub' = view s j sub' := by
        apply Budget.ext
        · rfl
        · rfl
        · exact congrFun hresets j
        · funext k
          show periodTotal s' j k = periodTotal s j k
          rw [htotal, if_neg (fun hij => hj hij.1), add_zero]
      rw [hview]
      exact hinv.sound j sub' hsub'
  · rw [hdb, postConsume_records h] at hr
    exact hentered.keys r (hinv.recorded r hr)

theorem book_db (s : Sys) (db : DB) (r : String) (i d : Int) :
    ({ s with db } : Sys).book r i d = { s.book r i d with db } := by
  unfold Sys.book
  cases s.charges.lookup r with
  | none => rfl
  | some c =>
    simp only
    split <;> rfl

theorem giveBack_db (s : Sys) (db : DB) (r : String) (record : SubscriptionPreConsumeRecord) :
    ({ s with db } : Sys).giveBack r record = { s.giveBack r record with db } := by
  unfold Sys.giveBack
  cases s.charges.lookup r with
  | none => rfl
  | some c =>
    simp only
    split <;> rfl

theorem moveTo_of_postConsume (h : postConsumeUserSubscriptionDelta s.db i d fault = .ok db) :
    s.moveTo db = { s with db } := by
  obtain ⟨-, ⟨-, rfl⟩ | ⟨-, -, sub, -, -, rfl⟩⟩ := postConsume_cases h
  · exact moveTo_resets fun _ => rfl
  · exact moveTo_resets fun j => periodStart_post _ _ _ _ j

theorem inv_book_zero (hinv : Inv s) (r : String) (i : Int) : Inv (s.book r i 0) := by
  unfold Sys.book
  cases hc : s.charges.lookup r with
  | none => exact hinv
  | some c =>
    simp only
    split_ifs with hi
    · refine ⟨fun j sub hsub => ?_, fun r' hr' =>
        charges_setCharge_none hc (hinv.recorded r' hr')⟩
      have hview : view (s.setCharge r { c with amount := c.amount + 0 }) j sub = view s j sub := by
        apply Budget.ext
        · rfl
        · rfl
        · rfl
        · funext k
          have h := periodTotal_change hc 0 c.refunded j k
          rw [ite_self] at h
          exact h.trans (add_zero _)
      rw [hview]
      exact hinv.sound j sub hsub
    · exact hinv

theorem inv_settle (hinv : Inv s) (htimely : Timely s (.settle r i d fault)) : Inv (step s (.settle r i d fault)) := by
  simp only [step]
  cases h : postConsumeUserSubscriptionDelta s.db i d fault with
  | error e => exact hinv
  | ok db =>
    have hback : ({ ({ s with db } : Sys).book r i d with db := s.db } : Sys) = s.book r i d := by rw [← book_db]
    simp only [moveTo_of_postConsume h]
    by_cases hd : d = 0
    · subst hd
      obtain ⟨-, ⟨-, rfl⟩ | ⟨h0, -⟩⟩ := postConsume_cases h
      · exact inv_book_zero hinv r i
      · exact absurd rfl h0
    · refine inv_usage hinv hd h ?_ ?_
      · rw [hback]
        exact entered_book (htimely.resolve_left hd)
      · rw [book_db]

theorem inv_refundUsage (hinv : Inv s) (htimely : Timely s (.refundUsage r fault)) :
    Inv (step s (.refundUsage r fault)) := by
  simp only [step]
  cases hrec : s.db.records.lookup r with
  | none => exact hinv
  | some record =>
    simp only [Timely, hrec] at htimely
    simp only
    split_ifs with hskip
    · exact hinv
    · have hpos : 0 < record.preConsumed := by
        simp only [not_or, not_le] at hskip
        exact hskip.2.2
      cases h : postConsumeUserSubscriptionDelta s.db record.userSubscriptionId
          (-record.preConsumed) fault with
      | error e => exact hinv
      | ok db =>
        have hback : ({ ({ s with db } : Sys).giveBack r record with db := s.db } : Sys) =
            s.giveBack r record := by rw [← giveBack_db]
        simp only [moveTo_of_postConsume h]
        refine inv_usage hinv (by omega) h ?_ ?_
        · rw [hback]
          exact entered_giveBack hpos htimely
        · rw [giveBack_db]

theorem inv_moveTo (hinv : Inv s)
    (hrows : ∀ i sub', db.subs.lookup i = some sub' → ∃ sub, s.db.subs.lookup i = some sub ∧ Carried sub sub')
    (hrecords : ∀ r, db.records.lookup r = none → s.db.records.lookup r = none) : Inv (s.moveTo db) := by
  refine ⟨fun i sub' hsub' => ?_, fun r hr => hinv.recorded r (hrecords r hr)⟩
  obtain ⟨sub, hsub, hcarried⟩ := hrows i sub' hsub'
  have hstart : (db.subs.lookup i).map periodStart = some (periodStart sub') := by
    rw [show db.subs.lookup i = some sub' from hsub']
    rfl
  exact sound_moveTo hsub hstart hcarried (hinv.sound i sub hsub)

theorem lookup_insert_eq_none {ν : Type} {m : AList fun _ : String => ν} {v : ν}
    (h : (m.insert r v).lookup r' = none) : r' ≠ r ∧ m.lookup r' = none := by
  have hne : r' ≠ r := by
    rintro rfl
    rw [lookup_insert] at h
    cases h
  rw [lookup_insert_ne hne] at h
  exact ⟨hne, h⟩

theorem inv_refundMark (hinv : Inv s) : Inv (step s (.refundMark r)) := by
  simp only [step]
  cases hrec : s.db.records.lookup r with
  | none => exact hinv
  | some record =>
    simp only
    split_ifs with hst
    · exact hinv
    · refine inv_moveTo hinv (fun i sub hsub => ⟨sub, hsub, Carried.refl sub⟩) fun r' hr' => ?_
      have hr : (s.db.records.insert r { record with status := .refunded }).lookup r' = none := hr'
      exact (lookup_insert_eq_none hr).2

theorem inv_resetDue {plan : SubscriptionPlan} (hinv : Inv s) : Inv (step s (.resetDue call i plan fault)) := by
  simp only [step]
  cases h : resetDueSubscription call s.db i plan fault with
  | error e => exact hinv
  | ok r =>
    obtain ⟨db, counted⟩ := r
    rcases resetDueSubscription_cases h with rfl | ⟨sub, sub', hsub, hcarried, rfl⟩
    · exact inv_moveTo hinv (fun i sub hsub => ⟨sub, hsub, Carried.refl sub⟩) fun _ hr => hr
    · refine inv_moveTo hinv (fun j sub₁ hsub₁ => ?_) fun _ hr => hr
      by_cases hj : j = i
      · subst hj
        rw [lookup_insert, Option.some.injEq] at hsub₁
        exact ⟨sub, hsub, hsub₁ ▸ hcarried⟩
      · rw [lookup_insert_ne hj] at hsub₁
        exact ⟨sub₁, hsub₁, Carried.refl sub₁⟩

/-! ### The pre-consume step -/

variable {late : Bool}

section Call

variable {userId : Int} {res : SubscriptionPreConsumeResult}
  (h : preConsumeCall s call late fault r userId amount = .ok (db, res))

include h

theorem preConsumeCall_loop : 0 < amount ∧ ((db = s.db ∧ ∃ existing, s.db.records.lookup r = some existing ∧
        res.userSubscriptionId = existing.userSubscriptionId ∧ res.preConsumed = existing.preConsumed) ∨
    ∃ records db₁, chargeFirst (preConsumeTx s call fault r) r userId amount
        (activeSubs { s.db with records } userId call.now) { s.db with records } = .ok (db₁, res) ∧
      (late = false → s.db.records.lookup r = none) ∧ (s.db.records.lookup r = none →
        (∀ r', r' ≠ r → records.lookup r' = s.db.records.lookup r') ∧ db = db₁) ∧
      (s.db.records.lookup r ≠ none → db = { db₁ with records := s.db.records })) := by
  unfold preConsumeCall at h
  cases late with
  | false =>
    rw [if_neg (by simp)] at h
    obtain ⟨hpos, hfound | ⟨hnone, hcharge⟩⟩ := preConsume_cases h
    · exact ⟨hpos, .inl hfound⟩
    · exact ⟨hpos, .inr ⟨_, db, hcharge, fun _ => hnone, fun _ => ⟨fun _ _ => rfl, rfl⟩,
        fun hsome => absurd hnone hsome⟩⟩
  | true =>
    rw [if_pos rfl, preConsumeLate] at h
    cases hcall : preConsumeUserSubscription (preConsumeTx s call fault r)
        { s.db with records := s.db.records.erase r } r userId amount with
    | error e => simp [hcall] at h
    | ok out =>
      obtain ⟨db₁, res₁⟩ := out
      simp only [hcall, Except.ok.injEq, Prod.mk.injEq] at h
      obtain ⟨rfl, rfl⟩ := h
      obtain ⟨hpos, ⟨-, existing, hfound, -⟩ | ⟨-, hcharge⟩⟩ := preConsume_cases hcall
      · simp [lookup_erase] at hfound
      · refine ⟨hpos, .inr ⟨_, db₁, hcharge, fun hlate => (by cases hlate), fun hnone => ?_, fun hsome => ?_⟩⟩
        · rw [if_pos (show (preConsumeTx s call fault r).dup = none from hnone)]
          exact ⟨fun r' hne => lookup_erase_ne hne, rfl⟩
        · rw [if_neg (show (preConsumeTx s call fault r).dup ≠ none from hsome)]

/-- What a successful call did: nothing, if its record was there; else it went through the rows, and
charged one of them if no other call had inserted the record. -/
theorem preConsumeCall_cases : 0 < amount ∧ ((db = s.db ∧ s.db.records.lookup r ≠ none) ∨
      (RowsCharged (preConsumeTx s call fault r) amount
          (if s.db.records.lookup r = none then amount else 0) s.db db res ∧
        (∀ r', db.records.lookup r' = none → s.db.records.lookup r' = none ∧
          (s.db.records.lookup r = none → r' ≠ r)))) := by
  obtain ⟨hpos, ⟨rfl, existing, hfound, -⟩ | ⟨records, db₁, hcharge, -, hnew, hold⟩⟩ := preConsumeCall_loop h
  · exact ⟨hpos, .inl ⟨rfl, by simp [hfound]⟩⟩
  obtain ⟨hrows, -, -⟩ := chargeFirst_rows (fun e he => mem_activeSubs he) (nodup_activeSubs _ userId call.now) hcharge
  have hrecords := chargeFirst_records hcharge
  by_cases hnone : s.db.records.lookup r = none
  · obtain ⟨hsame, rfl⟩ := hnew hnone
    refine ⟨hpos, .inr ⟨⟨hrows.others, hrows.charged⟩, fun r' hr' => ?_⟩⟩
    rw [hrecords, if_pos (show (preConsumeTx s call fault r).dup = none from hnone)] at hr'
    obtain ⟨hne, hr'⟩ := lookup_insert_eq_none hr'
    exact ⟨(hsame r' hne).symm.trans hr', fun _ => hne⟩
  · obtain rfl := hold hnone
    exact ⟨hpos, .inr ⟨⟨hrows.others, hrows.charged⟩, fun r' hr' => ⟨hr', fun hr => absurd hr hnone⟩⟩⟩

end Call

theorem sound_charge (hnew : s.charges.lookup r = none) (hpos : 0 < amount)
    (hroom : 0 < sub.amountTotal → sub.amountUsed + amount ≤ sub.amountTotal) (h : (view s i sub).Sound) :
    (view (s.setCharge r ⟨i, s.resets i, amount, false⟩) i
      { sub with amountUsed := sub.amountUsed + amount }).Sound := by
  have hnonneg : 0 ≤ sub.amountUsed := h.nonneg
  have hmax : max 0 (sub.amountUsed + amount) = sub.amountUsed + amount := by omega
  have hview : view (s.setCharge r ⟨i, s.resets i, amount, false⟩) i
      { sub with amountUsed := sub.amountUsed + amount } = (view s i sub).adjust amount := by
    apply Budget.ext
    · rfl
    · exact hmax.symm
    · rfl
    · funext k
      show periodTotal _ i k = periodTotal s i k + if k = s.resets i then amount else 0
      rw [periodTotal_new hnew]
      simp only [true_and, eq_comm]
  rw [hview]
  refine h.adjust fun hlimit => ?_
  show max 0 (sub.amountUsed + amount) ≤ sub.amountTotal
  rw [hmax]
  exact hroom hlimit

theorem inv_preConsume {userId : Int} (hinv : Inv s) : Inv (step s (.preConsume call late fault r userId amount)) := by
  simp only [step]
  cases h : preConsumeCall s call late fault r userId amount with
  | error e => exact hinv
  | ok out =>
    obtain ⟨db, res⟩ := out
    simp only
    obtain ⟨hpos, ⟨rfl, hfound⟩ | ⟨hrows, hrecords⟩⟩ := preConsumeCall_cases h
    · rw [if_neg hfound]
      exact inv_moveTo hinv (fun i sub hsub => ⟨sub, hsub, Carried.refl sub⟩) fun _ hr => hr
    have hothers : ∀ i sub', i ≠ res.userSubscriptionId → db.subs.lookup i = some sub' →
        ∃ sub, s.db.subs.lookup i = some sub ∧ Carried sub sub' := by
      intro i sub' hi hsub'
      rcases hrows.others i hi with hsame | ⟨a, b, ha, hb, hdb⟩
      · exact ⟨sub', hsame ▸ hsub', Carried.refl sub'⟩
      · rw [hdb, Option.some.injEq] at hsub'
        exact ⟨a, ha, hsub' ▸ ResetCall.reset_carried hb⟩
    obtain ⟨a, b, ha, hb, hroom, hrow⟩ := hrows.charged
    have hcarried : Carried a b := ResetCall.reset_carried hb
    by_cases hnone : s.db.records.lookup r = none
    · rw [if_pos hnone] at hrow ⊢
      have hnew : (s.moveTo db).charges.lookup r = none := hinv.recorded r hnone
      refine ⟨fun i sub' hsub' => ?_, fun r' hr' => ?_⟩
      · by_cases hi : i = res.userSubscriptionId
        · subst hi
          have hsub : some { b with amountUsed := b.amountUsed + amount } = some sub' :=
            hrow.symm.trans hsub'
          obtain rfl := Option.some.inj hsub
          have hstart : (db.subs.lookup res.userSubscriptionId).map periodStart = some (periodStart b) := by
            rw [hrow]
            rfl
          exact sound_charge hnew hpos hroom (sound_moveTo ha hstart hcarried (hinv.sound _ a ha))
        · obtain ⟨sub, hsub, hsub'c⟩ := hothers i sub' hi hsub'
          have hview : view ((s.moveTo db).setCharge r ⟨res.userSubscriptionId,
              (s.moveTo db).resets res.userSubscriptionId, amount, false⟩) i sub' = view (s.moveTo db) i sub' := by
            apply Budget.ext
            · rfl
            · rfl
            · rfl
            · funext k
              show periodTotal _ i k = periodTotal (s.moveTo db) i k
              rw [periodTotal_new hnew, if_neg (fun hij => hi hij.1.symm), add_zero]
          have hstart : (db.subs.lookup i).map periodStart = some (periodStart sub') := by
            rw [show db.subs.lookup i = some sub' from hsub']
            rfl
          rw [hview]
          exact sound_moveTo hsub hstart hsub'c (hinv.sound i sub hsub)
      · obtain ⟨hr, hne⟩ := hrecords r' hr'
        exact (lookup_insert_ne (hne hnone)).trans (hinv.recorded r' hr)
    · rw [if_neg hnone] at hrow ⊢
      refine inv_moveTo hinv (fun i sub' hsub' => ?_) fun r' hr' => (hrecords r' hr').1
      by_cases hi : i = res.userSubscriptionId
      · subst hi
        rw [hrow, Option.some.injEq] at hsub'
        subst hsub'
        simp only [add_zero]
        exact ⟨a, ha, hcarried⟩
      · exact hothers i sub' hi hsub'

theorem inv_step (s : Sys) (a : Action) (hinv : Inv s) (htimely : Timely s a) : Inv (step s a) := by
  cases a with
  | preConsume call late fault r userId amount => exact inv_preConsume hinv
  | settle r i d fault => exact inv_settle hinv htimely
  | refundUsage r fault => exact inv_refundUsage hinv htimely
  | refundMark r => exact inv_refundMark hinv
  | resetDue call i plan fault => exact inv_resetDue hinv

/-- **Period limit**: in every run whose deltas and refunds find the period of their request open,
the requests pre-consumed in one period of a limited subscription are charged no more than its
limit in all. -/
theorem period_within_limit {db : DB} {as : List Action}
    (hused : ∀ i sub, db.subs.lookup i = some sub → 0 ≤ sub.amountUsed)
    (htimely : Along step Timely (start db) as) {i : Int} {sub : UserSubscription}
    (hsub : (run step (start db) as).db.subs.lookup i = some sub) (hlimit : 0 < sub.amountTotal)
    (k : ℕ) : periodTotal (run step (start db) as) i k ≤ sub.amountTotal := by
  have hinv : Inv (run step (start db) as) := run_inv inv_step (inv_start hused) htimely
  exact (hinv.sound i sub hsub).within hlimit k

/-! ### Stored usage -/

/-- What a row has stored as used is neither negative nor beyond its limit. -/
def Within (sub : UserSubscription) : Prop :=
  0 ≤ sub.amountUsed ∧ (0 < sub.amountTotal → sub.amountUsed ≤ sub.amountTotal)

def Limited (db : DB) : Prop := ∀ i sub, db.subs.lookup i = some sub → Within sub

theorem within_carried {sub sub' : UserSubscription} (hsub : Within sub) (h : Carried sub sub') : Within sub' := by
  rw [Within, h.total]
  rcases h.used with ⟨-, hused⟩ | ⟨-, hused⟩ <;> rw [hused]
  · exact hsub
  · exact ⟨le_rfl, le_of_lt⟩

theorem limited_postConsume (hs : Limited s.db) (h : postConsumeUserSubscriptionDelta s.db i d fault = .ok db) :
    Limited db := by
  obtain ⟨-, ⟨-, rfl⟩ | ⟨-, -, sub, hsub, hfit, rfl⟩⟩ := postConsume_cases h
  · exact hs
  intro j row hrow
  by_cases hj : i = j
  · have hself := post_subs_self hsub d (clampUsed sub.amountUsed d - sub.amountUsed)
    grind [clampUsed, Within]
  · rw [post_subs_of_ne _ (by simpa using hj)] at hrow
    exact hs j row hrow

theorem limited_preConsume {late : Bool} {userId : Int} {res : SubscriptionPreConsumeResult} (hs : Limited s.db)
    (h : preConsumeCall s call late fault r userId amount = .ok (db, res)) : Limited db := by
  obtain ⟨hpos, ⟨rfl, -⟩ | ⟨hrows, -⟩⟩ := preConsumeCall_cases h
  · exact hs
  intro i row hrow
  by_cases hi : i = res.userSubscriptionId
  · obtain ⟨a, b, ha, hb, hroom, hcharged⟩ := hrows.charged
    have hb' := within_carried (hs _ a ha) (ResetCall.reset_carried hb)
    grind [Within]
  · rcases hrows.others i hi with hsame | ⟨a, b, ha, hb, hdb⟩
    · exact hs i row (hsame ▸ hrow)
    · rw [hdb, Option.some.injEq] at hrow
      exact hrow ▸ within_carried (hs i a ha) (ResetCall.reset_carried hb)

theorem limited_resetDue {plan : SubscriptionPlan} {counted : Bool} (hs : Limited s.db)
    (h : resetDueSubscription call s.db i plan fault = .ok (db, counted)) : Limited db := by
  rcases resetDueSubscription_cases h with rfl | ⟨sub, sub', hsub, hcarried, rfl⟩
  · exact hs
  intro j row hrow
  by_cases hj : j = i
  · grind [within_carried, lookup_insert, Limited]
  · rw [lookup_insert_ne hj] at hrow
    exact hs j row hrow

theorem limited_step (s : Sys) (a : Action) (hs : Limited s.db) : Limited (step s a).db := by
  have husage {i d fault db} := @limited_postConsume s db fault d i hs
  cases a with
  | preConsume call late fault r userId amount =>
    have hcharge {db res} := @limited_preConsume s db fault call amount r late userId res hs
    grind [step, Sys.moveTo, Sys.setCharge]
  | settle r i d fault => grind [step, moveTo_of_postConsume, book_db]
  | refundUsage r fault => grind [step, moveTo_of_postConsume, giveBack_db]
  | refundMark r => grind [step, Sys.moveTo, markRefunded, Limited]
  | resetDue call i plan fault =>
    have hreset {db counted} := @limited_resetDue s db fault call i plan counted hs
    grind [step, Sys.moveTo]

/-- **Stored usage**: in every run, timely or not, no row is used beyond its limit or below zero. -/
theorem usage_within_limit (as : List Action) (hs : Limited s.db) : Limited (run step s as).db :=
  run_inv (I := fun s => Limited s.db) (fun s a h _ => limited_step s a h) hs
    (along_of_forall (fun (_ : Action) _ => trivial) _)

end Steps

/-! ### Calls as steps -/

section Calls

variable {s : Sys}

/-- The transactions of a refund call that returned `err`: the record is marked if there was no
error. -/
def refundSteps (r : String) (f : RefundFaults) : Option String → List Action
  | none => [.refundUsage r f.delta, .refundMark r]
  | some _ => [.refundUsage r f.delta]

/-- **Refinement**: a refund call that gets to read the record is its transactions. -/
theorem refund_call {r : String} {f : RefundFaults} (hselect : f.select = none) :
    (refundSubscriptionPreConsume s.db r f).1 =
      (run step s (refundSteps r f (refundSubscriptionPreConsume s.db r f).2)).db := by
  have hmark : ∀ (t : Sys) (record : SubscriptionPreConsumeRecord),
      t.db.records.lookup r = some record → record.status ≠ .refunded →
      (step t (.refundMark r)).db = markRefunded t.db r record := by
    intro t record hrec hst
    simp only [step, hrec, if_neg hst]
    rfl
  unfold refundSubscriptionPreConsume
  by_cases hb : GoText.isBlank r = true
  · cases hrec : s.db.records.lookup r <;> simp [hb, refundSteps, step, hrec]
  rw [if_neg hb, hselect]
  cases hrec : s.db.records.lookup r with
  | none => simp [refundSteps, step, hrec]
  | some record =>
    simp only
    by_cases hst : record.status = .refunded
    · have hskip : step s (.refundUsage r f.delta) = s := by simp [step, hrec, hst]
      have hnop : step s (.refundMark r) = s := by simp [step, hrec, hst]
      cases f.commit <;> simp [hst, refundSteps, hskip, hnop]
    by_cases hp : record.preConsumed ≤ 0
    · have hskip : step s (.refundUsage r f.delta) = s := by simp [step, hrec, hp]
      cases f.save.or f.commit with
      | some e => simp [hst, hp, refundSteps, hskip]
      | none => simp [hst, hp, refundSteps, hskip, hmark s record hrec hst]
    rw [if_neg hst, if_neg hp]
    cases h : postConsumeUserSubscriptionDelta s.db record.userSubscriptionId
        (-record.preConsumed) f.delta with
    | error e => simp [refundSteps, step, hrec, hb, hst, hp, h]
    | ok db =>
      have husage : step s (.refundUsage r f.delta) =
          { s.giveBack r record with db } := by
        simp only [step, hrec, h, if_neg (by simp [hb, hst, hp] :
          ¬ (GoText.isBlank r = true ∨ record.status = .refunded ∨ record.preConsumed ≤ 0))]
        rw [moveTo_of_postConsume h, giveBack_db]
      have hrec' : db.records.lookup r = some record := (postConsume_records h) ▸ hrec
      cases f.save.or f.commit with
      | some e => simp [refundSteps, husage]
      | none => simp [refundSteps, husage, hmark { s.giveBack r record with db } record hrec' hst]

/-- **Refinement**: the scheduled task is one step for each row with a plan that it picks, up to the first error. -/
theorem resetEach_run {call : ResetCall} {faults : Int → Fault} {subs : List (Σ _ : Int, UserSubscription)}
    {count : ℕ} :
    ∃ n, (resetEach call faults subs s.db count).1 = (run step s ((subs.take n).filterMap fun e =>
      (call.plans e.2.planId).toOption.map fun plan => .resetDue call e.1 plan (faults e.1))).db ∧
      ((resetEach call faults subs s.db count).2.2 = none → subs.length ≤ n) := by
  induction subs generalizing s count with
  | nil => exact ⟨0, rfl, fun _ => le_rfl⟩
  | cons e rest ih =>
    obtain ⟨id, sub⟩ := e
    unfold resetEach
    cases hplan : call.plans sub.planId with
    | error err =>
      obtain ⟨n, hrun, hall⟩ := @ih s count
      exact ⟨n + 1, by simpa [hplan, Except.toOption] using hrun, by simpa using hall⟩
    | ok plan =>
      cases hrow : resetDueSubscription call s.db id plan (faults id) with
      | error err => exact ⟨0, by simp [hrow], by simp [hrow]⟩
      | ok out =>
        obtain ⟨n, hrun, hall⟩ := @ih (s.moveTo out.1) (count + if out.2 then 1 else 0)
        have hstep : step s (.resetDue call id plan (faults id)) = s.moveTo out.1 := by simp only [step, hrow]
        have hdb : (s.moveTo out.1).db = out.1 := rfl
        exact ⟨n + 1, by simpa [hplan, hrow, Except.toOption, hstep, hdb] using hrun, by simpa [hrow, hdb] using hall⟩

end Calls

/-! ### A refund that comes after the reset -/

def examplePlan : SubscriptionPlan := ⟨1, "custom", 0, 1000, 0, "", "", 100, "custom", 10⟩

def exampleCall (now : Int) : ResetCall := ⟨uniformCalendar, now, 5, fun _ => .ok examplePlan⟩

def exampleDB : DB :=
  { userQuota := fun _ => 0, tokenQuota := fun _ => 0
    subs := AList.singleton 7 ⟨1, 1, 100, 0, 1, 1001, .active, 1, 11⟩
    records := ∅, journal := [] }

theorem exampleDB_used (i : Int) (sub : UserSubscription)
    (h : exampleDB.subs.lookup i = some sub) : 0 ≤ sub.amountUsed := by
  have hmem : (⟨i, sub⟩ : Σ _ : Int, UserSubscription) ∈ exampleDB.subs.entries := mem_lookup_iff.mp h
  simp only [exampleDB, singleton_entries, mem_singleton, Sigma.mk.injEq] at hmem
  rw [eq_of_heq hmem.2]

/-- Charges, a surcharge and a refund inside their periods, a reset between them, and a refund of
the first period that comes late to a row with nothing used. -/
theorem period_within_limit_across_reset : periodTotal (run step (start exampleDB)
      [.preConsume (exampleCall 2) false none "a" 1 50, .settle "a" 7 20 none,
        .preConsume (exampleCall 3) false none "b" 1 30, .resetDue (exampleCall 11) 7 examplePlan none,
        .refundUsage "b" none, .refundMark "b", .preConsume (exampleCall 12) true none "c" 1 100,
        .refundUsage "c" none, .refundMark "c", .preConsume (exampleCall 13) false none "d" 1 100])
      7 1 ≤ 100 := by
  let sub : UserSubscription := ⟨1, 1, 100, 100, 1, 1001, .active, 11, 21⟩
  have hlimit : 0 < sub.amountTotal := by decide
  refine period_within_limit exampleDB_used ?_ ?_ hlimit 1
  · decide
  · rfl

/-- The refund of a request of the first period comes after the reset and makes room in the second
period, whose requests are charged `150` in all. -/
theorem period_over_limit : ¬ periodTotal (run step (start exampleDB)
      [.preConsume (exampleCall 2) false none "a" 1 50, .resetDue (exampleCall 11) 7 examplePlan none,
        .preConsume (exampleCall 12) false none "b" 1 100, .refundUsage "a" none, .refundMark "a",
        .preConsume (exampleCall 13) false none "c" 1 50]) 7 1 ≤ 100 := by
  decide

theorem usage_within_limit_after_reset : Limited (run step (start exampleDB)
      [.preConsume (exampleCall 2) false none "a" 1 50, .resetDue (exampleCall 11) 7 examplePlan none,
        .refundUsage "a" none]).db := by
  refine usage_within_limit _ fun i sub h => ?_
  obtain ⟨-, rfl⟩ : i = 7 ∧ sub = ⟨1, 1, 100, 0, 1, 1001, .active, 1, 11⟩ := by
    simpa [start, exampleDB] using mem_lookup_iff.mp h
  exact ⟨le_rfl, by decide⟩

theorem refund_call_of_consumed :
    let s := step (start exampleDB) (.preConsume (exampleCall 2) false none "a" 1 50)
    (refundSubscriptionPreConsume s.db "a" {}).1 = (run step s [.refundUsage "a" none, .refundMark "a"]).db :=
  refund_call rfl

end WynthApi.Store.Period

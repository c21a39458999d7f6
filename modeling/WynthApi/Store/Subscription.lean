import Mathlib.Data.List.Sort
import WynthApi.Lib.GoText
import WynthApi.Store.Ledger

/-!
# Pre-consume, delta and refund of model/subscription.go

Every function is one call seen from outside, run alone: a transaction either commits as a whole or leaves the tables
as they were.  Not so `RefundSubscriptionPreConsume`: it calls `PostConsumeUserSubscriptionDelta`, which opens a
transaction on `DB` and not on the caller's `tx`, so the usage update commits even if the status update after it fails.
-/

namespace WynthApi.Store

/-! ### PostConsumeUserSubscriptionDelta -/

def clampUsed (used delta : Int) : Int := if used + delta < 0 then 0 else used + delta

theorem clampUsed_of_nonneg {used delta : Int} (h : 0 ≤ used + delta) : clampUsed used delta = used + delta := by
  unfold clampUsed
  split_ifs <;> omega

/-- `PostConsumeUserSubscriptionDelta`: positive consumes more, negative gives back. -/
def postConsumeUserSubscriptionDelta (db : DB) (userSubscriptionId delta : Int) (fault : Fault) :
    Except String DB :=
  if userSubscriptionId ≤ 0 then .error "invalid userSubscriptionId"
  else if delta = 0 then .ok db
  else match fault with
    | some e => .error e
    | none =>
      match db.subs.lookup userSubscriptionId with
      | none => .error "record not found"
      | some sub =>
        let newUsed := clampUsed sub.amountUsed delta
        let total := sub.amountTotal
        if 0 < total ∧ total < newUsed then
          .error s!"subscription used exceeds total, used={newUsed} total={total}"
        else .ok (db.post (.subscription userSubscriptionId) delta (newUsed - sub.amountUsed))

variable {delta i : Int} {db db' : DB} {fault : Fault} {requestId : String}
  (h : postConsumeUserSubscriptionDelta db i delta fault = .ok db')

include h in
theorem postConsume_cases :
    0 < i ∧ ((delta = 0 ∧ db' = db) ∨ (delta ≠ 0 ∧ fault = none ∧ ∃ sub, db.subs.lookup i = some sub ∧
      ¬ (0 < sub.amountTotal ∧ sub.amountTotal < clampUsed sub.amountUsed delta) ∧
      db' = db.post (.subscription i) delta (clampUsed sub.amountUsed delta - sub.amountUsed))) := by
  unfold postConsumeUserSubscriptionDelta at h
  by_cases hi : i ≤ 0
  · simp [hi] at h
  · rw [if_neg hi] at h
    refine ⟨by omega, ?_⟩
    by_cases hd : delta = 0
    · rw [if_pos hd] at h
      exact .inl ⟨hd, (Except.ok.inj h).symm⟩
    · rw [if_neg hd] at h
      cases fault with
      | some e => simp at h
      | none =>
        cases hs : db.subs.lookup i with
        | none => simp [hs] at h
        | some sub =>
          simp only [hs] at h
          split_ifs at h with ht
          exact .inr ⟨hd, rfl, sub, rfl, ht, (Except.ok.inj h).symm⟩

include h in
theorem postConsume_moves : Moves db db' (.subscription i) delta := by
  obtain ⟨-, ⟨rfl, rfl⟩ | ⟨-, -, sub, -, -, rfl⟩⟩ := postConsume_cases h
  · exact Moves.refl _ _
  · exact Moves.post _ _ _ _

include h in
theorem postConsume_records : db'.records = db.records := by
  obtain ⟨-, ⟨-, rfl⟩ | ⟨-, -, sub, -, -, rfl⟩⟩ := postConsume_cases h
  · rfl
  · exact post_records _ _ _ _

/-! ### PreConsumeUserSubscription -/

/-- What one pre-consume sees: the clock, the plan look-up with the period reset of a candidate row, a record
another transaction committed for the request id after the first look-up (the insert then fails on the
unique index), and a statement that fails. -/
structure PreConsumeTx where
  now : Int
  reset : Int → UserSubscription → Except String UserSubscription
  dup : Option SubscriptionPreConsumeRecord
  fault : Fault

structure SubscriptionPreConsumeResult where
  (userSubscriptionId preConsumed amountTotal amountUsedBefore amountUsedAfter : Int)
  deriving DecidableEq

def activeSubs (db : DB) (userId now : Int) : List (Σ _ : Int, UserSubscription) :=
  (db.subs.entries.filter fun e =>
    e.2.userId = userId ∧ e.2.status = .active ∧ now < e.2.endTime).insertionSort fun e f =>
      e.2.endTime < f.2.endTime ∨ (e.2.endTime = f.2.endTime ∧ e.1 ≤ f.1)

/-- The loop over the candidates: reset the row if it is due, skip it if it has too little left,
else insert the record and charge the row. -/
def chargeFirst (tx : PreConsumeTx) (requestId : String) (userId amount : Int) :
    List (Σ _ : Int, UserSubscription) → DB → Except String (DB × SubscriptionPreConsumeResult)
  | [], _ => .error s!"subscription quota insufficient, need={amount}"
  | ⟨id, candidate⟩ :: rest, db =>
    match tx.reset id candidate with
    | .error e => .error e
    | .ok sub =>
      let db : DB := { db with subs := db.subs.insert id sub }
      if 0 < sub.amountTotal ∧ sub.amountTotal - sub.amountUsed < amount then
        chargeFirst tx requestId userId amount rest db
      else match tx.dup with
        | some dup =>
          if dup.status = .refunded then .error "subscription pre-consume already refunded"
          else .ok (db, ⟨id, dup.preConsumed, sub.amountTotal, sub.amountUsed, sub.amountUsed⟩)
        | none =>
          let record : SubscriptionPreConsumeRecord := ⟨userId, id, amount, .consumed⟩
          let db : DB := { db with records := db.records.insert requestId record }
          .ok (db.post (.subscription id) amount amount,
            ⟨id, amount, sub.amountTotal, sub.amountUsed, sub.amountUsed + amount⟩)

def preConsumeUserSubscription (tx : PreConsumeTx) (db : DB) (requestId : String)
    (userId amount : Int) : Except String (DB × SubscriptionPreConsumeResult) :=
  if userId ≤ 0 then .error "invalid userId"
  else if GoText.isBlank requestId then .error "requestId is empty"
  else if amount ≤ 0 then .error "amount must be > 0"
  else match tx.fault with
    | some e => .error e
    | none =>
      match db.records.lookup requestId with
      | some existing =>
        if existing.status = .refunded then .error "subscription pre-consume already refunded"
        else match db.subs.lookup existing.userSubscriptionId with
          | none => .error "record not found"
          | some sub => .ok (db, ⟨existing.userSubscriptionId, existing.preConsumed,
              sub.amountTotal, sub.amountUsed, sub.amountUsed⟩)
      | none =>
        match activeSubs db userId tx.now with
        | [] => .error "no active subscription"
        | subs => chargeFirst tx requestId userId amount subs db

def firstWithRoom (tx : PreConsumeTx) (amount : Int) : List (Σ _ : Int, UserSubscription) → Option Int
  | [] => none
  | ⟨id, candidate⟩ :: rest =>
    match tx.reset id candidate with
    | .error _ => none
    | .ok sub =>
      if 0 < sub.amountTotal ∧ sub.amountTotal - sub.amountUsed < amount then
        firstWithRoom tx amount rest
      else some id

section

variable {tx : PreConsumeTx} {userId amount : Int} {res : SubscriptionPreConsumeResult}

/-- The first row with room is charged and recorded, or, if another call's record is there, only
reported. -/
theorem chargeFirst_spec : ∀ {subs : List (Σ _ : Int, UserSubscription)} {db : DB},
    chargeFirst tx requestId userId amount subs db = .ok (db', res) →
    firstWithRoom tx amount subs = some res.userSubscriptionId ∧ (db'.subs.lookup res.userSubscriptionId).isSome ∧
      match tx.dup with
      | none => res.preConsumed = amount ∧
        db'.journal = db.journal ++ [⟨.subscription res.userSubscriptionId, amount, amount⟩] ∧
        db'.records = db.records.insert requestId ⟨userId, res.userSubscriptionId, amount, .consumed⟩
      | some dup => res.preConsumed = dup.preConsumed ∧ db'.journal = db.journal ∧ db'.records = db.records
  | [], _, h => by simp [chargeFirst] at h
  | ⟨id, candidate⟩ :: rest, db, h => by
    unfold chargeFirst at h
    unfold firstWithRoom
    cases hr : tx.reset id candidate with
    | error e => simp [hr] at h
    | ok sub =>
      simp only [hr] at h ⊢
      by_cases hskip : 0 < sub.amountTotal ∧ sub.amountTotal - sub.amountUsed < amount
      · rw [if_pos hskip] at h ⊢
        have ih := chargeFirst_spec h
        exact ih
      · rw [if_neg hskip] at h ⊢
        cases hdup : tx.dup with simp only [hdup] at h ⊢
        | some dup =>
          split_ifs at h with hst
          obtain ⟨rfl, rfl⟩ := Prod.mk.inj (Except.ok.inj h)
          exact ⟨rfl, by simp, rfl, rfl, rfl⟩
        | none =>
          obtain ⟨rfl, rfl⟩ := Prod.mk.inj (Except.ok.inj h)
          refine ⟨rfl, ?_, rfl, post_journal _ _ _ _, post_records _ _ _ _⟩
          rw [post_subs_self (AList.lookup_insert _)]
          rfl

theorem preConsume_cases (h : preConsumeUserSubscription tx db requestId userId amount = .ok (db', res)) :
    0 < amount ∧ ((db' = db ∧ ∃ existing, db.records.lookup requestId = some existing ∧
        res.userSubscriptionId = existing.userSubscriptionId ∧ res.preConsumed = existing.preConsumed) ∨
      (db.records.lookup requestId = none ∧
        chargeFirst tx requestId userId amount (activeSubs db userId tx.now) db = .ok (db', res))) := by
  unfold preConsumeUserSubscription at h
  by_cases h1 : userId ≤ 0
  · simp [h1] at h
  by_cases h2 : GoText.isBlank requestId = true
  · simp [h1, h2] at h
  by_cases h3 : amount ≤ 0
  · simp [h1, h2, h3] at h
  rw [if_neg h1, if_neg h2, if_neg h3] at h
  refine ⟨by omega, ?_⟩
  cases hf : tx.fault with
  | some e => simp [hf] at h
  | none =>
    cases hrec : db.records.lookup requestId with
    | some existing =>
      simp only [hf, hrec] at h
      split_ifs at h with hst
      cases hs : db.subs.lookup existing.userSubscriptionId with
      | none => simp [hs] at h
      | some sub =>
        simp only [hs, Except.ok.injEq, Prod.mk.injEq] at h
        obtain ⟨rfl, rfl⟩ := h
        exact .inl ⟨rfl, existing, rfl, rfl, rfl⟩
    | none =>
      cases hs : activeSubs db userId tx.now with
      | nil => simp [hf, hrec, hs] at h
      | cons c rest =>
        simp only [hf, hrec, hs] at h
        exact .inr ⟨rfl, h⟩

theorem preConsumeUserSubscription_spec (hdup : tx.dup = none) (hfresh : db.records.lookup requestId = none)
    (h : preConsumeUserSubscription tx db requestId userId amount = .ok (db', res)) :
    0 < amount ∧ res.preConsumed = amount ∧
      db'.journal = db.journal ++ [⟨.subscription res.userSubscriptionId, amount, amount⟩] ∧
      db'.records.lookup requestId = some ⟨userId, res.userSubscriptionId, amount, .consumed⟩ ∧
      (db'.subs.lookup res.userSubscriptionId).isSome := by
  obtain ⟨hpos, ⟨-, existing, hfound, -⟩ | ⟨-, hcharge⟩⟩ := preConsume_cases h
  · rw [hfresh] at hfound
    cases hfound
  · obtain ⟨-, hsub, hout⟩ := chargeFirst_spec hcharge
    simp only [hdup] at hout
    obtain ⟨hp, hj, hr⟩ := hout
    refine ⟨hpos, hp, hj, ?_, hsub⟩
    rw [hr, AList.lookup_insert]

end

/-! ### RefundSubscriptionPreConsume -/

/-- The faults of one refund call: the locking `SELECT`, the usage update (a transaction of its
own), the status update and the commit. -/
structure RefundFaults where
  select : Fault := none
  delta : Fault := none
  save : Fault := none
  commit : Fault := none
  deriving DecidableEq

def markRefunded (db : DB) (requestId : String) (record : SubscriptionPreConsumeRecord) : DB :=
  { db with records := db.records.insert requestId { record with status := .refunded } }

/-- `RefundSubscriptionPreConsume`.  The tables are returned in the failing case too: a failed
status update or commit does not take back the usage update. -/
def refundSubscriptionPreConsume (db : DB) (requestId : String) (f : RefundFaults) : DB × Option String :=
  if GoText.isBlank requestId then (db, some "requestId is empty")
  else match f.select, db.records.lookup requestId with
    | some e, _ => (db, some e)
    | none, none => (db, some "record not found")
    | none, some record =>
      if record.status = .refunded then (db, f.commit)
      else if record.preConsumed ≤ 0 then
        match f.save.or f.commit with
        | some e => (db, some e)
        | none => (markRefunded db requestId record, none)
      else
        match postConsumeUserSubscriptionDelta db record.userSubscriptionId
            (-record.preConsumed) f.delta with
        | .error e => (db, some e)
        | .ok db₁ =>
          match f.save.or f.commit with
          | some e => (db₁, some e)
          | none => (markRefunded db₁ requestId record, none)

/-- `refundWithRetry`: up to `attempts` calls (three in the source), stopping at the first that
returns without an error; the last error is returned. -/
def refundWithRetry (fn : ℕ → DB → DB × Option String) : ℕ → DB → Option String → DB × Option String
  | 0, db, lastErr => (db, lastErr)
  | n + 1, db, _ =>
    match fn n db with
    | (db', none) => (db', none)
    | (db', some e) => refundWithRetry fn n db' (some e)

variable {f : RefundFaults}

theorem refundSubscriptionPreConsume_moves {record : SubscriptionPreConsumeRecord}
    (hrec : db.records.lookup requestId = some record) (hst : record.status = .consumed)
    (hpos : 0 < record.preConsumed) (h : refundSubscriptionPreConsume db requestId f = (db', none)) :
    Moves db db' (.subscription record.userSubscriptionId) (-record.preConsumed) := by
  unfold refundSubscriptionPreConsume at h
  by_cases hb : GoText.isBlank requestId = true
  · simp [hb] at h
  rw [if_neg hb] at h
  cases hsel : f.select with
  | some e => simp [hsel] at h
  | none =>
    have hp : ¬ record.preConsumed ≤ 0 := by omega
    simp only [hsel, hrec, hst, reduceCtorEq, if_false, hp] at h
    cases hd : postConsumeUserSubscriptionDelta db record.userSubscriptionId
        (-record.preConsumed) f.delta with
    | error e => simp [hd] at h
    | ok db₁ =>
      cases hsave : f.save.or f.commit with
      | some e => simp [hd, hsave] at h
      | none =>
        simp only [hd, hsave, Prod.mk.injEq, and_true] at h
        subst h
        exact ⟨(postConsume_moves hd).journal, (postConsume_moves hd).net⟩

theorem refundSubscriptionPreConsume_fails {e : String} (hsave : f.save = none)
    (hcommit : f.commit = none) (h : refundSubscriptionPreConsume db requestId f = (db', some e)) : db' = db := by
  unfold refundSubscriptionPreConsume at h
  by_cases hb : GoText.isBlank requestId = true
  · simp only [hb, if_true, Prod.mk.injEq] at h
    exact h.1.symm
  rw [if_neg hb] at h
  cases hsel : f.select with
  | some e' =>
    simp only [hsel, Prod.mk.injEq] at h
    exact h.1.symm
  | none =>
    cases hrec : db.records.lookup requestId with
    | none =>
      simp only [hsel, hrec, Prod.mk.injEq] at h
      exact h.1.symm
    | some record =>
      simp only [hsel, hrec, hsave, hcommit, Option.or_none] at h
      split_ifs at h with hst hp
      · simp at h
      · simp at h
      · cases hd : postConsumeUserSubscriptionDelta db record.userSubscriptionId
            (-record.preConsumed) f.delta with
        | error e' =>
          simp only [hd, Prod.mk.injEq] at h
          exact h.1.symm
        | ok db₁ => simp [hd] at h

end WynthApi.Store

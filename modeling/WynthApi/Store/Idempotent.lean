import WynthApi.Lib.Emit
import WynthApi.Store.Period

/-!
# Many pre-consumes with one request id (model/subscription.go)

The record of a request id is inserted once, so one subscription is charged, once.  A call that looked
the record up too early goes through the rows again and meets it at its insert.  It then answers with
the row that it would have charged, which need not be the row of the record.
-/

namespace WynthApi.Store.Idempotent

open Emit Period

/-- One call for the request id; `late` if it looked up the record before the first call committed. -/
structure Attempt where
  call : ResetCall
  late : Bool
  fault : Fault
  amount : Int

variable (requestId : String) (userId : Int)

def preConsume (a : Attempt) : Program DB SubscriptionPreConsumeResult := fun db =>
  match preConsumeCall (start db) a.call a.late a.fault requestId userId a.amount with
  | .error _ => ([], db)
  | .ok (db', res) => ([res], db')

/-- If a late call meets the record, the first row with room for its amount is the row of the record. -/
def SameRow (db : DB) (a : Attempt) : Prop :=
  a.late = true → ∀ record ∈ db.records.lookup requestId,
    ∀ i ∈ firstWithRoom (preConsumeTx (start db) a.call a.fault requestId) a.amount
      (activeSubs db userId a.call.now), i = record.userSubscriptionId
  deriving Decidable

/-- The request was charged once, as its record says, and every answer says the same. -/
def Settled (journal : List Entry) (results : List SubscriptionPreConsumeResult) (db : DB) : Prop :=
  ∃ record, db.records.lookup requestId = some record ∧ db.journal = journal ++
      [⟨.subscription record.userSubscriptionId, record.preConsumed, record.preConsumed⟩] ∧
    ∀ res ∈ results, res.userSubscriptionId = record.userSubscriptionId ∧
      res.preConsumed = record.preConsumed

variable {requestId userId} {db : DB} {a : Attempt} {as : List Attempt}

theorem preConsume_first (hnew : db.records.lookup requestId = none) :
    preConsume requestId userId a db = ([], db) ∨
      Settled requestId db.journal (preConsume requestId userId a db).1 (preConsume requestId userId a db).2 := by
  unfold preConsume
  cases h : preConsumeCall (start db) a.call a.late a.fault requestId userId a.amount with
  | error e => exact .inl rfl
  | ok out =>
    obtain ⟨db', res⟩ := out
    obtain ⟨-, ⟨-, existing, hfound, -⟩ | ⟨records, db₁, hcharge, -, hrecords, -⟩⟩ := preConsumeCall_loop h
    · exact absurd (hnew.symm.trans hfound) (by simp)
    · obtain ⟨-, rfl⟩ := hrecords hnew
      obtain ⟨-, -, hout⟩ := chargeFirst_spec hcharge
      rw [show (preConsumeTx (start db) a.call a.fault requestId).dup = none from hnew] at hout
      obtain ⟨hpre, hjournal, hrecord⟩ := hout
      refine .inr ⟨⟨userId, res.userSubscriptionId, a.amount, .consumed⟩, ?_, hjournal, fun r hr => ?_⟩
      · show db'.records.lookup requestId = _
        rw [hrecord, AList.lookup_insert]
      rw [List.mem_singleton.mp hr]
      exact ⟨rfl, hpre⟩

theorem preConsume_again {record : SubscriptionPreConsumeRecord}
    (hrecord : db.records.lookup requestId = some record) (hsame : SameRow requestId userId db a) :
    (preConsume requestId userId a db).2.records.lookup requestId = some record ∧
      (preConsume requestId userId a db).2.journal = db.journal ∧ ∀ res ∈ (preConsume requestId userId a db).1,
        res.userSubscriptionId = record.userSubscriptionId ∧ res.preConsumed = record.preConsumed := by
  unfold preConsume
  cases h : preConsumeCall (start db) a.call a.late a.fault requestId userId a.amount with
  | error e => exact ⟨hrecord, rfl, by simp⟩
  | ok out =>
    obtain ⟨db', res⟩ := out
    simp only [List.mem_singleton, forall_eq]
    have hne : (start db).db.records.lookup requestId ≠ none := by simp [start, hrecord]
    obtain ⟨-, ⟨rfl, existing, hfound, hid, hpre⟩ | ⟨records, db₁, hcharge, hlate, -, hold⟩⟩ :=
      preConsumeCall_loop h
    · obtain rfl := Option.some.inj (hrecord.symm.trans hfound)
      exact ⟨hrecord, rfl, hid, hpre⟩
    · obtain rfl := hold hne
      obtain ⟨hfirst, -, hout⟩ := chargeFirst_spec hcharge
      rw [show (preConsumeTx (start db) a.call a.fault requestId).dup = some record from hrecord] at hout
      have hlate' : a.late = true := by
        by_contra hnot
        exact hne (hlate (by simpa using hnot))
      exact ⟨hrecord, hout.2.1, hsame hlate' record hrecord _ hfirst, hout.1⟩

theorem settled_run {journal : List Entry} {results : List SubscriptionPreConsumeResult}
    (hs : Settled requestId journal results db)
    (h : StepSys.Along (after (preConsume requestId userId)) (SameRow requestId userId) db as) :
    Settled requestId journal (results ++ (each (preConsume requestId userId) as db).1)
      (each (preConsume requestId userId) as db).2 := by
  induction as generalizing db results with
  | nil =>
    rw [each_nil, List.append_nil]
    exact hs
  | cons a as ih =>
    obtain ⟨record, hrecord, hjournal, hresults⟩ := hs
    obtain ⟨hrecord', hjournal', hanswers⟩ := preConsume_again hrecord h.1
    rw [each_cons, ← List.append_assoc]
    refine ih ⟨record, hrecord', hjournal'.trans hjournal, fun res hres => ?_⟩ h.2
    rcases List.mem_append.mp hres with hres | hres
    · exact hresults res hres
    · exact hanswers res hres

/-- **One charge for one request id**: if every late call that meets the record finds its row first, then
no call succeeds and nothing changes, or one subscription is charged once, and every call that succeeds
reports the subscription and the amount of the record. -/
theorem charged_once (requestId : String) (userId : Int) (db : DB) (as : List Attempt)
    (hnew : db.records.lookup requestId = none)
    (h : StepSys.Along (after (preConsume requestId userId)) (SameRow requestId userId) db as) :
    each (preConsume requestId userId) as db = ([], db) ∨
      Settled requestId db.journal (each (preConsume requestId userId) as db).1
        (each (preConsume requestId userId) as db).2 := by
  induction as with
  | nil => exact .inl rfl
  | cons a as ih =>
    rw [each_cons]
    rcases preConsume_first hnew with hnone | hs
    · have hrest := h.2
      rw [after, hnone] at hrest
      rw [hnone]
      exact ih hrest
    · exact .inr (settled_run hs h.2)

def twoRows : DB :=
  { exampleDB with subs := exampleDB.subs.insert 8 ⟨1, 1, 100, 0, 1, 2001, .active, 1, 11⟩ }

def ask (late : Bool) : Attempt := ⟨exampleCall 2, late, none, 100⟩

/-- Row 7 has room for the late call, which meets the record of row 7. -/
def askLess (late : Bool) : Attempt := { ask late with amount := 40 }

theorem charged_once_repeated : each (preConsume "r" 1) [askLess false, askLess true] twoRows = ([], twoRows) ∨
      Settled "r" [] (each (preConsume "r" 1) [askLess false, askLess true] twoRows).1
        (each (preConsume "r" 1) [askLess false, askLess true] twoRows).2 :=
  charged_once "r" 1 twoRows [askLess false, askLess true] rfl (by decide)

/-- The second call meets the record of row 7, which is full, and answers with row 8. -/
theorem late_call_reports_other_row :
    ((each (preConsume "r" 1) [ask false, ask true] twoRows).2.records.lookup "r").map
        (·.userSubscriptionId) = some 7 ∧
      (each (preConsume "r" 1) [ask false, ask true] twoRows).1.map (·.userSubscriptionId) = [7, 8] := by
  decide

end WynthApi.Store.Idempotent

import Mathlib.Algebra.BigOperators.Group.List.Basic
import Mathlib.Algebra.Ring.Int.Defs
import Mathlib.Data.List.AList

/-!
# The balances billing moves (model/user.go, model/token.go)

The wallets, the remaining quotas of tokens, the subscription rows and the pre-consume records.  Amounts are `Int`:
the billing code keeps quotas inside the 32-bit range, so no sum of this model wraps.

A statement gets its fault as an argument: `none` means that it runs, `some e` that it fails with the driver's text
`e` and changes nothing.

`journal` is a ghost column.  Every statement that moves a balance appends what it was asked to take and what it took
(negative: given back); `balance_add_taken_post` ties it to the real balances.
-/

namespace WynthApi.Store

abbrev Fault := Option String

inductive Account where
  | wallet (userId : Int)
  | token (tokenId : Int)
  | subscription (userSubscriptionId : Int)
  deriving DecidableEq

structure Entry where
  account : Account
  (requested applied : Int)
  deriving DecidableEq

inductive SubscriptionStatus where
  | active
  | expired
  | cancelled
  deriving DecidableEq

/-- A `UserSubscription` row without its primary key, which is the key of the table. -/
structure UserSubscription where
  (userId planId amountTotal amountUsed startTime endTime : Int)
  status : SubscriptionStatus
  (lastResetTime nextResetTime : Int)
  deriving DecidableEq

inductive RecordStatus where
  | consumed
  | refunded
  deriving DecidableEq

/-- A `SubscriptionPreConsumeRecord` without its unique `request_id`, the key of the table. -/
structure SubscriptionPreConsumeRecord where
  (userId userSubscriptionId preConsumed : Int)
  status : RecordStatus
  deriving DecidableEq

structure DB where
  (userQuota tokenQuota : Int → Int)
  subs : AList fun _ : Int => UserSubscription
  records : AList fun _ : String => SubscriptionPreConsumeRecord
  journal : List Entry

/-! ### The journal -/

variable (j : List Entry) (a : Account)

def taken : Int :=
  ((j.filter (·.account = a)).map Entry.applied).sum

/-- Every statement of the journal did all it was asked to do. -/
def AppliedInFull : Prop := ∀ e ∈ j, e.applied = e.requested
  deriving Decidable

@[simp] theorem taken_nil : taken [] a = 0 := rfl

@[simp] theorem taken_append (i j : List Entry) (a : Account) : taken (i ++ j) a = taken i a + taken j a := by
  simp [taken]

@[simp] theorem taken_singleton (e : Entry) (a : Account) : taken [e] a = if e.account = a then e.applied else 0 := by
  by_cases h : e.account = a <;> simp [taken, h]

theorem AppliedInFull.anti {i j : List Entry} (h : AppliedInFull j) (hij : i <+: j) :
    AppliedInFull i := fun e he => h e (hij.subset he)

theorem AppliedInFull.last {j : List Entry} {e : Entry} (h : AppliedInFull (j ++ [e])) :
    e.applied = e.requested := h e (by simp)

def entriesOn : List Entry := j.filter (·.account = a)

theorem taken_eq_sum_entriesOn : taken j a = ((entriesOn j a).map Entry.applied).sum := rfl

/-! ### Moving a balance -/

variable (db : DB)

/-- Write `applied` off the account, after a statement that asked for `requested`. -/
def DB.post (a : Account) (requested applied : Int) : DB :=
  let entry : Entry := ⟨a, requested, applied⟩
  let db : DB := { db with journal := db.journal ++ [entry] }
  match a with
  | .wallet u =>
    { db with userQuota := Function.update db.userQuota u (db.userQuota u - applied) }
  | .token t =>
    { db with tokenQuota := Function.update db.tokenQuota t (db.tokenQuota t - applied) }
  | .subscription i =>
    match db.subs.lookup i with
    | none => db
    | some sub =>
      { db with subs := db.subs.insert i { sub with amountUsed := sub.amountUsed + applied } }

/-- What is left on an account; for a subscription, the used amount counted down from `0`. -/
def DB.balance : Account → Int
  | .wallet u => db.userQuota u
  | .token t => db.tokenQuota t
  | .subscription i => -((db.subs.lookup i).elim 0 UserSubscription.amountUsed)

@[simp] theorem post_journal (a : Account) (r x : Int) : (db.post a r x).journal = db.journal ++ [⟨a, r, x⟩] := by
  cases a with
  | wallet | token => rfl
  | subscription i =>
    simp only [DB.post]
    cases db.subs.lookup i <;> rfl

@[simp] theorem post_records (a : Account) (r x : Int) : (db.post a r x).records = db.records := by
  cases a with
  | wallet | token => rfl
  | subscription i =>
    simp only [DB.post]
    cases db.subs.lookup i <;> rfl

theorem post_subs_of_ne {a : Account} {i : Int} (h : a ≠ .subscription i) (r x : Int) :
    (db.post a r x).subs.lookup i = db.subs.lookup i := by
  cases a with
  | wallet | token => rfl
  | subscription k =>
    have hk : i ≠ k := by rintro rfl; exact h rfl
    simp only [DB.post]
    cases db.subs.lookup k with
    | none => rfl
    | some sub => exact AList.lookup_insert_ne hk

theorem post_subs_self {db : DB} {i : Int} {sub : UserSubscription} (h : db.subs.lookup i = some sub) (r x : Int) :
    (db.post (.subscription i) r x).subs.lookup i = some { sub with amountUsed := sub.amountUsed + x } := by
  simp [DB.post, h]

/-- The journal is honest: what it says was taken is missing from the balance. -/
theorem balance_add_taken_post (a b : Account) (r x : Int) (h : ∀ i, a = .subscription i → (db.subs.lookup i).isSome) :
    (db.post a r x).balance b + taken (db.post a r x).journal b = db.balance b + taken db.journal b := by
  rw [post_journal, taken_append, taken_singleton]
  by_cases hab : a = b
  · subst hab
    cases a with
    | wallet | token => simp only [DB.post, DB.balance, Function.update_self, if_true]; omega
    | subscription i =>
      obtain ⟨sub, hsub⟩ := Option.isSome_iff_exists.mp (h i rfl)
      simp only [DB.balance, post_subs_self hsub, hsub, Option.elim_some, if_true]
      omega
  · rw [if_neg hab, add_zero]
    cases b with
    | wallet u =>
      cases a with
      | wallet v =>
        have : u ≠ v := by rintro rfl; exact hab rfl
        simp [DB.post, DB.balance, this]
      | token t => rfl
      | subscription i => simp only [DB.post, DB.balance]; cases db.subs.lookup i <;> rfl
    | token t =>
      cases a with
      | wallet v => rfl
      | token t' =>
        have : t ≠ t' := by rintro rfl; exact hab rfl
        simp [DB.post, DB.balance, this]
      | subscription i => simp only [DB.post, DB.balance]; cases db.subs.lookup i <;> rfl
    | subscription i => simp only [DB.balance, post_subs_of_ne db hab]

/-! ### What a call moved -/

theorem AppliedInFull.post {db : DB} (h : AppliedInFull db.journal) (a : Account) (x : Int) :
    AppliedInFull (db.post a x x).journal := by
  intro e he
  rw [post_journal, List.mem_append, List.mem_singleton] at he
  rcases he with he | rfl
  · exact h e he
  · rfl

/-- From `db` to `db'` the journal only grew, and if all of it applied in full then `x` left the
account `a` and no other balance moved. -/
structure Moves (db db' : DB) (a : Account) (x : Int) : Prop where
  journal : db.journal <+: db'.journal
  net : AppliedInFull db'.journal → ∀ b,
    taken db'.journal b = taken db.journal b + if a = b then x else 0

namespace Moves

theorem refl (a : Account) : Moves db db a 0 :=
  ⟨List.prefix_rfl, fun _ b => by simp⟩

theorem post (db : DB) (a : Account) (requested applied : Int) :
    Moves db (db.post a requested applied) a requested := by
  refine ⟨?_, fun hfull b => ?_⟩
  · rw [post_journal]
    exact List.prefix_append _ _
  · rw [post_journal] at hfull ⊢
    have happ : applied = requested := hfull.last
    simp [happ]

theorem trans {db db₁ db₂ : DB} {a : Account} {x y : Int} (h₁ : Moves db db₁ a x)
    (h₂ : Moves db₁ db₂ a y) : Moves db db₂ a (x + y) := by
  refine ⟨h₁.journal.trans h₂.journal, fun hfull b => ?_⟩
  rw [h₂.net hfull b, h₁.net (hfull.anti h₂.journal) b]
  by_cases hab : a = b
  · simp only [if_pos hab]
    omega
  · simp only [if_neg hab, add_zero]

end Moves

/-! ### Quota statements -/

/-- The four quota statements: refuse a negative `quota`, else move `delta` off the account. -/
def quotaStatement (a : Account) (quota delta : Int) (fault : Fault) : Except String DB :=
  if quota < 0 then .error "quota 不能为负数！"
  else match fault with
    | some e => .error e
    | none => .ok (db.post a delta delta)

variable (id quota : Int) (fault : Fault)

def decreaseUserQuota : Except String DB :=
  quotaStatement db (.wallet id) quota quota fault

def increaseUserQuota : Except String DB :=
  quotaStatement db (.wallet id) quota (-quota) fault

def decreaseTokenQuota : Except String DB :=
  quotaStatement db (.token id) quota quota fault

def increaseTokenQuota : Except String DB :=
  quotaStatement db (.token id) quota (-quota) fault

theorem quotaStatement_eq_ok {db db' : DB} {a : Account} {quota delta : Int} {fault : Fault} :
    quotaStatement db a quota delta fault = .ok db' ↔ 0 ≤ quota ∧ fault = none ∧ db' = db.post a delta delta := by
  unfold quotaStatement
  by_cases h : quota < 0
  · have h' : ¬ 0 ≤ quota := by omega
    simp [h, h']
  · have h' : 0 ≤ quota := by omega
    cases fault with
    | none => simp [h, h', eq_comm]
    | some e => simp [h]

end WynthApi.Store

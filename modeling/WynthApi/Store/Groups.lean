import WynthApi.Lib.Run
import WynthApi.Lib.Table
import WynthApi.Store.Schedule

/-!
# The user group that subscriptions raise and restore (model/subscription.go)

A purchase whose plan names an upgrade group moves the user there and keeps the group it found in the
new row.  The end of a subscription (expiry, invalidation or deletion) moves the user back to the
group kept in one row, if no other upgraded subscription runs.  One step is one transaction; the
expiry task is one per user (`expireUsers_run`).

A renewal finds the user already in the upgrade group and keeps nothing, an overlapping purchase keeps the other's
upgrade group; when such a row ends last, the user stays upgraded.
-/

namespace WynthApi.Store.Groups

open StepSys Table List GoText Function

structure Row extends UserSubscription where
  id : Int
  (upgradeGroup prevUserGroup downgradeGroup : String)
  deriving DecidableEq

structure GroupDB where
  rows : List Row
  group : Int → String
  nextId : Int

def GroupDB.setGroup (db : GroupDB) (userId : Int) (group : String) : GroupDB :=
  { db with group := Function.update db.group userId group }

def GroupDB.setRows (db : GroupDB) (rows : List Row) : GroupDB := { db with rows }

section Defs

variable (db : GroupDB)

def countPurchases (userId planId : Int) : Int :=
  (db.rows.filter fun r => r.userId = userId ∧ r.planId = planId).length

variable (cal : Calendar) (db : GroupDB) (userId : Int) (plan : SubscriptionPlan)

def purchasedRow (now endUnix : Int) : Row :=
  let nextReset := calcNextResetTime cal plan endUnix now
  let upgradeGroup := GoText.trimSpace plan.upgradeGroup
  { userId
    planId := plan.id
    amountTotal := plan.totalAmount
    amountUsed := 0
    startTime := now
    endTime := endUnix
    status := .active
    lastResetTime := if 0 < nextReset then now else 0
    nextResetTime := nextReset
    id := db.nextId
    upgradeGroup
    prevUserGroup :=
      if upgradeGroup ≠ "" ∧ db.group userId ≠ upgradeGroup then db.group userId else ""
    downgradeGroup := GoText.trimSpace plan.downgradeGroup }

theorem purchasedRow_prevUserGroup (now endUnix : Int) :
    (purchasedRow cal db userId plan now endUnix).prevUserGroup = if trimSpace plan.upgradeGroup ≠ "" ∧
          db.group userId ≠ trimSpace plan.upgradeGroup then db.group userId else "" := by
  simp only [purchasedRow]

def createUserSubscriptionFromPlanTx (now : Int) (fault : Fault) : Except String GroupDB :=
  if plan.id = 0 then .error "invalid plan"
  else if userId ≤ 0 then .error "invalid user id"
  else if 0 < plan.maxPurchasePerUser ∧
      plan.maxPurchasePerUser ≤ countPurchases db userId plan.id then
    .error "已达到该套餐购买上限"
  else match calcPlanEndTime cal now plan, fault with
    | .error e, _ => .error e
    | .ok _, some e => .error e
    | .ok endUnix, none =>
      let row := purchasedRow cal db userId plan now endUnix
      let db' : GroupDB := { db with rows := db.rows ++ [row], nextId := db.nextId + 1 }
      if row.upgradeGroup ≠ "" ∧ db.group userId ≠ row.upgradeGroup then
        .ok (db'.setGroup userId row.upgradeGroup)
      else .ok db'

/-- An active row of the user that ends after `now` and has an upgrade group. -/
def runsUpgraded (userId now : Int) (r : Row) : Bool :=
  r.userId = userId ∧ r.status = .active ∧ now < r.endTime ∧ r.upgradeGroup ≠ ""

def downgradeTarget (sub : Row) (currentGroup : String) : String :=
  let downgradeGroup := GoText.trimSpace sub.downgradeGroup
  if downgradeGroup = "" then
    if currentGroup ≠ GoText.trimSpace sub.upgradeGroup then ""
    else GoText.trimSpace sub.prevUserGroup
  else downgradeGroup

/-- `downgradeUserGroupForSubscriptionTx`: the tables and the group moved to.  A failed query for
other active rows (`activeFails`) counts as none found. -/
def downgradeUserGroupForSubscriptionTx (sub : Row) (now : Int)
    (activeFails : Bool) : Except String (GroupDB × String) :=
  if GoText.trimSpace sub.downgradeGroup = "" ∧ GoText.trimSpace sub.upgradeGroup = "" then
    .ok (db, "")
  else if sub.userId ≤ 0 then .error "invalid userId"
  else if activeFails = false ∧
      db.rows.any (fun r => runsUpgraded sub.userId now r && r.id ≠ sub.id) = true then .ok (db, "")
  else
    let currentGroup := db.group sub.userId
    let target := downgradeTarget sub currentGroup
    if target = "" ∨ target = currentGroup then .ok (db, "")
    else .ok (db.setGroup sub.userId target, target)

def fallbackMessage (target : String) : String :=
  if target = "" then "" else s!"用户分组将回退到 {target}"

def findRow (id : Int) : Option Row := db.rows.find? fun r => r.id = id

def cancelRow (id now : Int) : GroupDB :=
  db.setRows (updateWhere (fun r => r.id = id)
    (fun r => { r with status := .cancelled, endTime := now }) db.rows)

/-- An administrator ends a row; `before` and `after` are done to the rows around the move of the user's group. -/
def adminEnd (before after : GroupDB → GroupDB) (id now : Int) (activeFails : Bool)
    (fault : Fault) : Except String (GroupDB × String) :=
  if id ≤ 0 then .error "invalid userSubscriptionId"
  else match findRow db id, fault with
    | none, _ => .error "record not found"
    | some _, some e => .error e
    | some sub, none =>
      match downgradeUserGroupForSubscriptionTx (before db) sub now activeFails with
      | .error e => .error e
      | .ok (db, target) => .ok (after db, fallbackMessage target)

def adminInvalidateUserSubscription (id now : Int) (activeFails : Bool) (fault : Fault) :
    Except String (GroupDB × String) :=
  adminEnd db (fun db => cancelRow db id now) (fun db => db) id now activeFails fault

def adminDeleteUserSubscription (id now : Int) (activeFails : Bool) (fault : Fault) :
    Except String (GroupDB × String) :=
  adminEnd db (fun db => db) (fun db => db.setRows (deleteWhere (fun r => r.id = id) db.rows)) id now activeFails fault

/-! ### Expiry -/

def isDue (now : Int) (r : Row) : Bool := r.status = .active ∧ 0 < r.endTime ∧ r.endTime ≤ now

def laterEnd (r r' : Row) : Prop := r'.endTime < r.endTime ∨ (r.endTime = r'.endTime ∧ r'.id ≤ r.id)

instance : DecidableRel laterEnd := fun _ _ => inferInstanceAs (Decidable (_ ∨ _))

/-- An expired row of the user that says where to move the user. -/
def definesTransition (userId : Int) (r : Row) : Bool :=
  r.userId = userId ∧ r.status = .expired ∧ (r.downgradeGroup ≠ "" ∨ r.upgradeGroup ≠ "")

def expiryTarget (lastExpired : Row) (currentGroup : String) : String :=
  let target := GoText.trimSpace lastExpired.downgradeGroup
  if target = "" then
    let upgradeGroup := GoText.trimSpace lastExpired.upgradeGroup
    let prevGroup := GoText.trimSpace lastExpired.prevUserGroup
    if upgradeGroup = "" ∨ prevGroup = "" then ""
    else if currentGroup ≠ upgradeGroup then ""
    else prevGroup
  else target

/-- Statements of one user's expiry: the transaction fails, the query for active rows fails (as if
there were none), the query for the last expired row fails (as if there were none). -/
structure ExpiryFaults where
  fault : Fault := none
  activeFails : Bool := false
  expiredFails : Bool := false
  deriving DecidableEq

def markExpired (userId now : Int) : GroupDB :=
  db.setRows (updateWhere (fun r => r.userId = userId ∧ isDue now r)
    (fun r => { r with status := .expired }) db.rows)

def regroupExpired (userId now : Int) (f : ExpiryFaults) : GroupDB :=
  if f.activeFails = false ∧ db.rows.any (runsUpgraded userId now) = true then db
  else match f.expiredFails, selectFirst (definesTransition userId) laterEnd db.rows with
    | true, _ => db
    | false, none => db
    | false, some lastExpired =>
      let currentGroup := db.group userId
      let target := expiryTarget lastExpired currentGroup
      if target = "" ∨ target = currentGroup then db else db.setGroup userId target

/-- The transaction of `ExpireDueSubscriptions` for one user, with the number of rows it marked. -/
def expireUser (userId now : Int) (f : ExpiryFaults) : Except String (GroupDB × ℕ) :=
  match f.fault with
  | some e => .error e
  | none => .ok (regroupExpired (markExpired db userId now) userId now f,
      (db.rows.filter fun r => r.userId = userId ∧ isDue now r).length)

/-- The users of the due rows, `ORDER BY end_time, id LIMIT limit`, each once. -/
def dueUsers (now : Int) (limit : ℕ) : List Int :=
  ((((db.rows.filter fun r => isDue now r).insertionSort fun r r' => laterEnd r' r).take limit).map
    fun r => r.userId).dedup.filter fun u => 0 < u

def expireUsers (now : Int) (faults : Int → ExpiryFaults) :
    List Int → GroupDB → ℕ → GroupDB × ℕ × Option String
  | [], db, count => (db, count, none)
  | userId :: rest, db, count =>
    match expireUser db userId now (faults userId) with
    | .error e => (db, count, some e)
    | .ok (db, n) => expireUsers now faults rest db (count + n)

/-- `ExpireDueSubscriptions`; Go's map iteration visits the users in some order. -/
def expireDueSubscriptions (order : List Int → List Int) (db : GroupDB) (limit now : Int)
    (faults : Int → ExpiryFaults) : GroupDB × ℕ × Option String :=
  let limit := if limit ≤ 0 then 200 else limit
  expireUsers now faults (order (dueUsers db now limit.toNat)) db 0

/-! ### The system -/

structure Sys where
  db : GroupDB
  clock : Int

inductive Action where
  | purchase (cal : Calendar) (userId : Int) (plan : SubscriptionPlan) (now : Int) (fault : Fault)
  | invalidate (id now : Int) (activeFails : Bool) (fault : Fault)
  | delete (id now : Int) (activeFails : Bool) (fault : Fault)
  | expire (userId now : Int) (f : ExpiryFaults)

def Action.now : Action → Int
  | .purchase _ _ _ now _ => now
  | .invalidate _ now _ _ => now
  | .delete _ now _ _ => now
  | .expire _ now _ => now

def apply : Action → GroupDB
  | .purchase cal userId plan now fault =>
    match createUserSubscriptionFromPlanTx cal db userId plan now fault with
    | .error _ => db
    | .ok db => db
  | .invalidate id now activeFails fault =>
    match adminInvalidateUserSubscription db id now activeFails fault with
    | .error _ => db
    | .ok (db, _) => db
  | .delete id now activeFails fault =>
    match adminDeleteUserSubscription db id now activeFails fault with
    | .error _ => db
    | .ok (db, _) => db
  | .expire userId now f =>
    match expireUser db userId now f with
    | .error _ => db
    | .ok (db, _) => db

def step (s : Sys) (a : Action) : Sys := ⟨apply s.db a, a.now⟩

/-- A user without subscriptions, in group `g`, in tables whose ids are keys. -/
structure Starts (s : Sys) (u : Int) (g : String) : Prop where
  group : s.db.group u = g
  rows : ∀ r ∈ s.db.rows, r.userId ≠ u
  key : ∀ r ∈ s.db.rows, ∀ r' ∈ s.db.rows, r.id = r'.id → r = r'
  fresh : ∀ r ∈ s.db.rows, r.id < s.db.nextId

/-- The user has a subscription with an upgrade group whose end has not been processed. -/
def Upgraded (u : Int) : Prop :=
  ∃ r ∈ db.rows, r.userId = u ∧ r.status = .active ∧ r.upgradeGroup ≠ ""
  deriving Decidable

def Restored (u : Int) (g : String) (s : Sys) : Prop := ¬ Upgraded s.db u → s.db.group u = g
  deriving Decidable

def EndsLater (now : Int) (plan : SubscriptionPlan) : Prop :=
  match calcPlanEndTime cal now plan with
  | .ok e => now < e
  | .error _ => True

instance (cal : Calendar) (now : Int) (plan : SubscriptionPlan) : Decidable (EndsLater cal now plan) := by
  unfold EndsLater
  split <;> infer_instance

/-- The clock does not go back; user `u` buys plans without a downgrade group that end after the purchase, and
an upgrade only when no other one is unfinished; the look-up of their last expired row does not fail. -/
def Apart (u : Int) (s : Sys) (a : Action) : Prop :=
  s.clock ≤ a.now ∧
    match a with
    | .purchase cal userId plan now _ => userId = u →
        GoText.trimSpace plan.downgradeGroup = "" ∧ EndsLater cal now plan ∧
        (GoText.trimSpace plan.upgradeGroup ≠ "" → ¬ Upgraded s.db u)
    | .expire userId _ f => userId = u → f.expiredFails = false
    | _ => True

instance (u : Int) (s : Sys) (a : Action) : Decidable (Apart u s a) := by
  unfold Apart
  split <;> infer_instance

end Defs

/-! ### What a row keeps -/

section Rows

variable {g : String} {r : Row}

/-- A row of a user whose original group is `g`: it has no downgrade group, and an upgrade keeps `g`
unless `g` is the upgrade group itself. -/
structure Kept (g : String) (r : Row) : Prop where
  downgrade : r.downgradeGroup = ""
  trimmed : GoText.trimSpace r.upgradeGroup = r.upgradeGroup
  prev : (r.prevUserGroup = "" ∧ (r.upgradeGroup = "" ∨ r.upgradeGroup = g)) ∨
    (r.prevUserGroup = g ∧ r.upgradeGroup ≠ "" ∧ r.upgradeGroup ≠ g)

@[simp] theorem trimSpace_empty : trimSpace "" = "" := rfl

section

variable (h : Kept g r)

include h

theorem Kept.trimSpace_prev (hg : trimSpace g = g) :
    trimSpace r.prevUserGroup = "" ∨ trimSpace r.prevUserGroup = g := by
  rcases h.prev with ⟨hp, -⟩ | ⟨hp, -⟩
  · exact .inl (by rw [hp, trimSpace_empty])
  · exact .inr (by rw [hp, hg])

theorem Kept.downgradeTarget_cases (hg : trimSpace g = g) (c : String) :
    downgradeTarget r c = "" ∨ downgradeTarget r c = g := by
  unfold downgradeTarget
  simp only [h.downgrade, trimSpace_empty, if_true]
  split_ifs
  · exact .inl rfl
  · exact h.trimSpace_prev hg

theorem Kept.prev_eq (hup : r.upgradeGroup ≠ "") (hne : r.upgradeGroup ≠ g) : r.prevUserGroup = g := by
  rcases h.prev with ⟨-, hu | hu⟩ | ⟨hp, -⟩
  · exact absurd hu hup
  · exact absurd hu hne
  · exact hp

theorem Kept.downgradeTarget_upgrade (hg : trimSpace g = g)
    (hup : r.upgradeGroup ≠ "") (hne : r.upgradeGroup ≠ g) : downgradeTarget r r.upgradeGroup = g := by
  unfold downgradeTarget
  simp [h.downgrade, h.trimmed, h.prev_eq hup hne, hg]

theorem Kept.expiryTarget_cases (hg : trimSpace g = g) (c : String) : expiryTarget r c = "" ∨ expiryTarget r c = g := by
  unfold expiryTarget
  simp only [h.downgrade, trimSpace_empty, if_true]
  split_ifs
  · exact .inl rfl
  · exact .inl rfl
  · exact h.trimSpace_prev hg

theorem Kept.expiryTarget_upgrade (hg : trimSpace g = g) (hg₀ : g ≠ "")
    (hup : r.upgradeGroup ≠ "") (hne : r.upgradeGroup ≠ g) : expiryTarget r r.upgradeGroup = g := by
  unfold expiryTarget
  simp [h.downgrade, h.trimmed, h.prev_eq hup hne, hg, hg₀, hup]

end

end Rows

/-! ### The invariant -/

section Invariant

variable {u : Int} {g : String} {s s' : Sys}

structure Keyed (db : GroupDB) : Prop where
  key : ∀ r ∈ db.rows, ∀ r' ∈ db.rows, r.id = r'.id → r = r'
  fresh : ∀ r ∈ db.rows, r.id < db.nextId

/-- Row `b` is the one upgrade of the user that has not been ended; the user is in its group, or
back in `g` already, and upgrades that have expired ended before it does. -/
structure Runs (u : Int) (g : String) (db : GroupDB) (b : Row) : Prop where
  mem : b ∈ db.rows
  user : b.userId = u
  active : b.status = .active
  upgrade : b.upgradeGroup ≠ ""
  alone : ∀ r ∈ db.rows, r.userId = u → r.status = .active → r.upgradeGroup ≠ "" → r = b
  group : db.group u = g ∨ db.group u = b.upgradeGroup
  last : ∀ r ∈ db.rows, r.userId = u → r.status = .expired → r.upgradeGroup ≠ "" →
    r.endTime < b.endTime

structure Inv (u : Int) (g : String) (s : Sys) : Prop where
  keyed : Keyed s.db
  kept : ∀ r ∈ s.db.rows, r.userId = u → Kept g r
  ended : ∀ r ∈ s.db.rows, r.userId = u → r.status = .expired → r.endTime ≤ s.clock
  phase : (¬ Upgraded s.db u ∧ s.db.group u = g) ∨ ∃ b, Runs u g s.db b

theorem Inv.restored (h : Inv u g s) : Restored u g s := by
  intro hno
  rcases h.phase with ⟨-, hgroup⟩ | ⟨b, hb⟩
  · exact hgroup
  · exact absurd ⟨b, hb.mem, hb.user, hb.active, hb.upgrade⟩ hno

theorem Inv.frame (h : Inv u g s) (hkeyed : Keyed s'.db) (hclock : s.clock ≤ s'.clock)
    (hold : ∀ r ∈ s.db.rows, r.userId = u → r ∈ s'.db.rows) (hnew : ∀ r ∈ s'.db.rows, r.userId = u →
      r ∈ s.db.rows ∨ (r.upgradeGroup = "" ∧ r.status = .active ∧ Kept g r))
    (hgroup : s'.db.group u = s.db.group u) : Inv u g s' := by
  have hback : ∀ r ∈ s'.db.rows, r.userId = u → r.upgradeGroup ≠ "" → r ∈ s.db.rows :=
    fun r hr hu hup => (hnew r hr hu).resolve_right fun hplain => hup hplain.1
  refine ⟨hkeyed, fun r hr hu => ?_, fun r hr hu hst => ?_, ?_⟩
  · rcases hnew r hr hu with hr | ⟨-, -, hk⟩
    · exact h.kept r hr hu
    · exact hk
  · rcases hnew r hr hu with hr | ⟨-, hactive, -⟩
    · exact (h.ended r hr hu hst).trans hclock
    · rw [hst] at hactive
      cases hactive
  · rcases h.phase with ⟨hno, hg⟩ | ⟨b, hb⟩
    · refine .inl ⟨?_, hgroup.trans hg⟩
      rintro ⟨r, hr, hu, hst, hup⟩
      exact hno ⟨r, hback r hr hu hup, hu, hst, hup⟩
    · refine .inr ⟨b, hold b hb.mem hb.user, hb.user, hb.active, hb.upgrade,
        fun r hr hu hst hup => hb.alone r (hback r hr hu hup) hu hst hup, ?_,
        fun r hr hu hst hup => hb.last r (hback r hr hu hup) hu hst hup⟩
      rw [hgroup]
      exact hb.group

theorem Inv.ending (h : Inv u g s) (sub : Row) (hkeyed : Keyed s'.db) (hclock : s.clock ≤ s'.clock)
    (hrows : ∀ r ∈ s'.db.rows, r.userId = u → (r ∈ s.db.rows ∧ r ≠ sub) ∨ (r.status = .cancelled ∧ Kept g r))
    (hothers : ∀ r ∈ s.db.rows, r ≠ sub → r ∈ s'.db.rows) (hgroup : s'.db.group u = s.db.group u ∨ s'.db.group u = g)
    (hend : Runs u g s.db sub → s'.db.group u = g) : Inv u g s' := by
  have hold : ∀ r ∈ s'.db.rows, r.userId = u → r.status ≠ .cancelled → r ∈ s.db.rows ∧ r ≠ sub := by
    intro r hr hu hst
    exact (hrows r hr hu).resolve_right fun hc => hst hc.1
  refine ⟨hkeyed, fun r hr hu => ?_, fun r hr hu hst => ?_, ?_⟩
  · rcases hrows r hr hu with ⟨hr, -⟩ | ⟨-, hk⟩
    · exact h.kept r hr hu
    · exact hk
  · obtain ⟨hr, -⟩ := hold r hr hu (by simp [hst])
    exact (h.ended r hr hu hst).trans hclock
  · rcases h.phase with ⟨hno, hg⟩ | ⟨b, hb⟩
    · refine .inl ⟨?_, hgroup.elim (fun hsame => hsame.trans hg) id⟩
      rintro ⟨r, hr, hu, hst, hup⟩
      exact hno ⟨r, (hold r hr hu (by simp [hst])).1, hu, hst, hup⟩
    · by_cases hsub : b = sub
      · subst hsub
        refine .inl ⟨?_, hend hb⟩
        rintro ⟨r, hr, hu, hst, hup⟩
        obtain ⟨hr, hne⟩ := hold r hr hu (by simp [hst])
        exact hne (hb.alone r hr hu hst hup)
      · refine .inr ⟨b, hothers b hb.mem hsub, hb.user, hb.active, hb.upgrade,
          fun r hr hu hst hup => ?_, ?_, fun r hr hu hst hup => ?_⟩
        · exact hb.alone r (hold r hr hu (by simp [hst])).1 hu hst hup
        · rcases hgroup with hsame | hg
          · rw [hsame]
            exact hb.group
          · exact .inl hg
        · exact hb.last r (hold r hr hu (by simp [hst])).1 hu hst hup

end Invariant

/-! ### The steps -/

section Steps

variable {u : Int} {g : String} {s : Sys}

@[simp] theorem setGroup_self (db : GroupDB) (v : Int) (x : String) : (db.setGroup v x).group v = x := update_self ..

theorem setGroup_of_ne (db : GroupDB) {v w : Int} (h : w ≠ v) (x : String) :
    (db.setGroup v x).group w = db.group w := update_of_ne h ..

variable {db db' : GroupDB} {fault : Fault} {t : String} {id now userId : Int} {sub : Row}
  {activeFails : Bool}

/-- What one ending does to the user's group: nothing, because another upgrade runs or the row has no
other group to go to, or the move to the row's target. -/
theorem downgrade_cases (h : downgradeUserGroupForSubscriptionTx db sub now activeFails = .ok (db', t)) :
    (db' = db ∧ (trimSpace sub.upgradeGroup = "" ∨
      (∃ r ∈ db.rows, runsUpgraded sub.userId now r = true ∧ r.id ≠ sub.id) ∨
      downgradeTarget sub (db.group sub.userId) = "" ∨
      downgradeTarget sub (db.group sub.userId) = db.group sub.userId)) ∨
    (db' = db.setGroup sub.userId (downgradeTarget sub (db.group sub.userId)) ∧
      downgradeTarget sub (db.group sub.userId) ≠ "") := by
  unfold downgradeUserGroupForSubscriptionTx at h
  by_cases hnone : trimSpace sub.downgradeGroup = "" ∧ trimSpace sub.upgradeGroup = ""
  · rw [if_pos hnone, Except.ok.injEq, Prod.mk.injEq] at h
    exact .inl ⟨h.1.symm, .inl hnone.2⟩
  rw [if_neg hnone] at h
  by_cases hid : sub.userId ≤ 0
  · simp [hid] at h
  rw [if_neg hid] at h
  by_cases hactive : activeFails = false ∧
      db.rows.any (fun r => runsUpgraded sub.userId now r && r.id ≠ sub.id) = true
  · rw [if_pos hactive, Except.ok.injEq, Prod.mk.injEq] at h
    obtain ⟨r, hr, hrun⟩ := any_eq_true.mp hactive.2
    rw [Bool.and_eq_true, decide_eq_true_eq] at hrun
    exact .inl ⟨h.1.symm, .inr (.inl ⟨r, hr, hrun⟩)⟩
  rw [if_neg hactive] at h
  simp only at h
  by_cases htarget : downgradeTarget sub (db.group sub.userId) = "" ∨
      downgradeTarget sub (db.group sub.userId) = db.group sub.userId
  · rw [if_pos htarget, Except.ok.injEq, Prod.mk.injEq] at h
    exact .inl ⟨h.1.symm, .inr (.inr htarget)⟩
  · rw [if_neg htarget, Except.ok.injEq, Prod.mk.injEq] at h
    exact .inr ⟨h.1.symm, fun h0 => htarget (.inl h0)⟩

theorem downgrade_group (hg : trimSpace g = g) (hkept : sub.userId = u → Kept g sub)
    (h : downgradeUserGroupForSubscriptionTx db sub now activeFails = .ok (db', t)) :
    db'.rows = db.rows ∧ db'.nextId = db.nextId ∧ (db'.group u = db.group u ∨ (sub.userId = u ∧ db'.group u = g)) := by
  rcases downgrade_cases h with ⟨rfl, -⟩ | ⟨rfl, hne⟩
  · exact ⟨rfl, rfl, .inl rfl⟩
  · refine ⟨rfl, rfl, ?_⟩
    by_cases hu : sub.userId = u
    · subst hu
      rcases (hkept rfl).downgradeTarget_cases hg (db.group sub.userId) with h0 | h0
      · exact absurd h0 hne
      · exact .inr ⟨rfl, by rw [setGroup_self, h0]⟩
    · exact .inl (setGroup_of_ne db (Ne.symm hu) _)

theorem downgrade_restores (hg : trimSpace g = g) (hg₀ : g ≠ "") (hkept : Kept g sub) (hup : sub.upgradeGroup ≠ "")
    (halone : ∀ r ∈ db.rows, runsUpgraded sub.userId now r = true → r.id = sub.id)
    (hgroup : db.group sub.userId = g ∨ db.group sub.userId = sub.upgradeGroup)
    (h : downgradeUserGroupForSubscriptionTx db sub now activeFails = .ok (db', t)) : db'.group sub.userId = g := by
  -- only a user outside `g` has to be moved, and then the row's target is `g`
  by_cases hback : db.group sub.userId = g
  · obtain ⟨-, -, hsame | ⟨-, hg'⟩⟩ := downgrade_group (u := sub.userId) hg (fun _ => hkept) h
    · exact hsame.trans hback
    · exact hg'
  have hcurrent : db.group sub.userId = sub.upgradeGroup := hgroup.resolve_left hback
  have hne : sub.upgradeGroup ≠ g := hcurrent ▸ hback
  have htarget : downgradeTarget sub (db.group sub.userId) = g := by
    rw [hcurrent]
    exact hkept.downgradeTarget_upgrade hg hup hne
  rcases downgrade_cases h with ⟨rfl, hwhy⟩ | ⟨rfl, -⟩
  · rcases hwhy with h0 | ⟨r, hr, hrun, hid⟩ | h0 | h0
    · rw [hkept.trimmed] at h0
      exact absurd h0 hup
    · exact absurd (halone r hr hrun) hid
    · exact absurd (htarget.symm.trans h0) hg₀
    · rw [htarget] at h0
      exact h0.symm
  · rw [setGroup_self, htarget]

theorem findRow_some (h : findRow db id = some sub) : sub ∈ db.rows ∧ sub.id = id :=
  ⟨mem_of_find?_eq_some h, by simpa using find?_some h⟩

theorem Keyed.update (h : Keyed db) (p : Row → Bool) {f : Row → Row} (hf : ∀ r, (f r).id = r.id) :
    Keyed (db.setRows (updateWhere p f db.rows)) := by
  have hid : ∀ r, (if p r = true then f r else r).id = r.id := by
    intro r
    split_ifs
    · exact hf r
    · rfl
  refine ⟨fun r hr r' hr' heq => ?_, fun r hr => ?_⟩
  · obtain ⟨r₀, hr₀, rfl⟩ := mem_updateWhere.mp hr
    obtain ⟨r₁, hr₁, rfl⟩ := mem_updateWhere.mp hr'
    rw [hid, hid] at heq
    rw [h.key r₀ hr₀ r₁ hr₁ heq]
  · obtain ⟨r₀, hr₀, rfl⟩ := mem_updateWhere.mp hr
    rw [hid]
    exact h.fresh r₀ hr₀

theorem Keyed.delete (h : Keyed db) (p : Row → Bool) : Keyed (db.setRows (deleteWhere p db.rows)) := by
  refine ⟨fun r hr r' hr' => ?_, fun r hr => h.fresh r (mem_deleteWhere.mp hr).1⟩
  exact h.key r (mem_deleteWhere.mp hr).1 r' (mem_deleteWhere.mp hr').1

theorem Keyed.of_eq (h : Keyed db) (hrows : db'.rows = db.rows) (hnext : db'.nextId = db.nextId) : Keyed db' := by
  refine ⟨?_, ?_⟩
  · rw [hrows]
    exact h.key
  · rw [hrows, hnext]
    exact h.fresh

variable {db₁ : GroupDB}

/-- The only upgrade that runs is `sub`, also after some rows were cancelled or deleted. -/
theorem Runs.alone_running (h : Runs u g db sub) (hrows : ∀ r ∈ db₁.rows, r ∈ db.rows ∨ r.status = .cancelled) :
    ∀ r ∈ db₁.rows, runsUpgraded sub.userId now r = true → r.id = sub.id := by
  intro r hr hrun
  obtain ⟨hu, hst, -, hup⟩ := of_decide_eq_true hrun
  rcases hrows r hr with hr | hc
  · rw [h.alone r hr (hu.trans h.user) hst hup]
  · rw [hst] at hc
    cases hc

/-- An ending: `db₀` is what the downgrade sees, `db₁` what it leaves, `db'` the committed tables. -/
theorem inv_end {db₀ : GroupDB} (hg : trimSpace g = g) (hg₀ : g ≠ "") (hinv : Inv u g s)
    (hclock : s.clock ≤ now) (hsub : sub ∈ s.db.rows)
    (hdown : downgradeUserGroupForSubscriptionTx db₀ sub now activeFails = .ok (db₁, t))
    (hgroup₀ : db₀.group = s.db.group) (hrows₀ : ∀ r ∈ db₀.rows, r ∈ s.db.rows ∨ r.status = .cancelled)
    (hgroup' : db'.group = db₁.group) (hkeyed : Keyed db')
    (hrows' : ∀ r ∈ db'.rows, r.userId = u → (r ∈ s.db.rows ∧ r ≠ sub) ∨ (r.status = .cancelled ∧ Kept g r))
    (hothers : ∀ r ∈ s.db.rows, r ≠ sub → r ∈ db'.rows) : Inv u g ⟨db', now⟩ := by
  obtain ⟨-, -, hgroup⟩ := downgrade_group hg (hinv.kept sub hsub) hdown
  rw [hgroup₀] at hgroup
  refine hinv.ending sub hkeyed hclock hrows' hothers ?_ (fun hruns => ?_)
  · show db'.group u = s.db.group u ∨ db'.group u = g
    rw [hgroup']
    exact hgroup.imp (fun hsame => hsame) And.right
  · have hcurrent : db₀.group sub.userId = g ∨ db₀.group sub.userId = sub.upgradeGroup := by
      rw [hgroup₀, hruns.user]
      exact hruns.group
    have hback := downgrade_restores hg hg₀ (hinv.kept sub hsub hruns.user) hruns.upgrade
      (hruns.alone_running hrows₀) hcurrent hdown
    rw [hgroup', ← hruns.user]
    exact hback

variable {message : String}

theorem adminEnd_cases {before after : GroupDB → GroupDB}
    (h : adminEnd db before after id now activeFails fault = .ok (db', message)) :
    ∃ sub db₁ t, findRow db id = some sub ∧
      downgradeUserGroupForSubscriptionTx (before db) sub now activeFails = .ok (db₁, t) ∧ db' = after db₁ := by
  unfold adminEnd at h
  by_cases hid : id ≤ 0
  · simp [hid] at h
  rw [if_neg hid] at h
  cases hfind : findRow db id with
  | none => simp [hfind] at h
  | some sub =>
    cases fault with
    | some e => simp [hfind] at h
    | none =>
      simp only [hfind] at h
      cases hdown : downgradeUserGroupForSubscriptionTx (before db) sub now activeFails with
      | error e => simp [hdown] at h
      | ok out =>
        simp only [hdown, Except.ok.injEq, Prod.mk.injEq] at h
        exact ⟨sub, out.1, out.2, rfl, hdown, h.1.symm⟩

theorem Inv.later (hinv : Inv u g s) (hclock : s.clock ≤ now) : Inv u g ⟨s.db, now⟩ :=
  hinv.frame hinv.keyed hclock (fun _ hr _ => hr) (fun _ hr _ => .inl hr) rfl

theorem inv_invalidate (hg : trimSpace g = g) (hg₀ : g ≠ "") (hinv : Inv u g s)
    (hclock : s.clock ≤ now) : Inv u g (step s (.invalidate id now activeFails fault)) := by
  simp only [step, apply, Action.now]
  cases h : adminInvalidateUserSubscription s.db id now activeFails fault with
  | error e => exact hinv.later hclock
  | ok out =>
    obtain ⟨db', message⟩ := out
    obtain ⟨sub, _, t, hfind, hdown, rfl⟩ := adminEnd_cases h
    obtain ⟨hsub, hkey⟩ := findRow_some hfind
    obtain ⟨hrows, hnext, -⟩ := downgrade_group hg (hinv.kept sub hsub) hdown
    have hmem : ∀ r ∈ (cancelRow s.db id now).rows, (r ∈ s.db.rows ∧ r ≠ sub) ∨
        r = { sub with status := .cancelled, endTime := now } := by
      intro r hr
      obtain ⟨r₀, hr₀, rfl⟩ := mem_updateWhere.mp hr
      by_cases hr₀id : r₀.id = id
      · obtain rfl := hinv.keyed.key r₀ hr₀ sub hsub (hr₀id.trans hkey.symm)
        exact .inr (by simp [hr₀id])
      · simp only [hr₀id, decide_false, Bool.false_eq_true, if_false]
        exact .inl ⟨hr₀, fun heq => hr₀id (heq ▸ hkey)⟩
    have hkeyed : Keyed (cancelRow s.db id now) := hinv.keyed.update _ fun _ => rfl
    refine inv_end hg hg₀ hinv hclock hsub hdown rfl (fun r hr => ?_) rfl
      (hkeyed.of_eq hrows hnext) (fun r hr hu => ?_) (fun r hr hne => ?_)
    · rcases hmem r hr with ⟨hold, -⟩ | rfl
      · exact .inl hold
      · exact .inr rfl
    · simp only [hrows] at hr
      rcases hmem r hr with hold | rfl
      · exact .inl hold
      · have hk := hinv.kept sub hsub hu
        exact .inr ⟨rfl, hk.downgrade, hk.trimmed, hk.prev⟩
    · simp only [hrows]
      refine mem_updateWhere.mpr ⟨r, hr, if_neg ?_⟩
      intro hrid
      exact hne (hinv.keyed.key r hr sub hsub ((of_decide_eq_true hrid).trans hkey.symm))

theorem inv_delete (hg : trimSpace g = g) (hg₀ : g ≠ "") (hinv : Inv u g s) (hclock : s.clock ≤ now) :
    Inv u g (step s (.delete id now activeFails fault)) := by
  simp only [step, apply, Action.now]
  cases h : adminDeleteUserSubscription s.db id now activeFails fault with
  | error e => exact hinv.later hclock
  | ok out =>
    obtain ⟨db', message⟩ := out
    obtain ⟨sub, db₁, t, hfind, hdown, rfl⟩ := adminEnd_cases h
    obtain ⟨hsub, hkey⟩ := findRow_some hfind
    obtain ⟨hrows, hnext, -⟩ := downgrade_group hg (hinv.kept sub hsub) hdown
    refine inv_end hg hg₀ hinv hclock hsub hdown rfl (fun r hr => .inl hr) rfl
      ((hinv.keyed.of_eq hrows hnext).delete _) (fun r hr hu => ?_) (fun r hr hne => ?_)
    · obtain ⟨hr, hid⟩ := mem_deleteWhere.mp hr
      rw [hrows] at hr
      exact .inl ⟨hr, fun heq => of_decide_eq_false hid (heq ▸ hkey)⟩
    · refine mem_deleteWhere.mpr ⟨hrows ▸ hr, decide_eq_false fun hid => ?_⟩
      exact hne (hinv.keyed.key r hr sub hsub (hid.trans hkey.symm))

/-! ### Purchases and expiry -/

variable {plan : SubscriptionPlan}

theorem purchase_cases {cal : Calendar} (h : createUserSubscriptionFromPlanTx cal db userId plan now fault = .ok db') :
    ∃ endUnix, calcPlanEndTime cal now plan = .ok endUnix ∧
      db'.rows = db.rows ++ [purchasedRow cal db userId plan now endUnix] ∧ db'.nextId = db.nextId + 1 ∧
      db'.group = if trimSpace plan.upgradeGroup ≠ "" ∧ db.group userId ≠ trimSpace plan.upgradeGroup
        then update db.group userId (trimSpace plan.upgradeGroup) else db.group := by
  unfold createUserSubscriptionFromPlanTx at h
  by_cases h1 : plan.id = 0
  · simp [h1] at h
  by_cases h2 : userId ≤ 0
  · simp [h1, h2] at h
  rw [if_neg h1, if_neg h2] at h
  split_ifs at h with h3
  cases hend : calcPlanEndTime cal now plan with
  | error e => simp [hend] at h
  | ok endUnix =>
    cases fault with
    | some e => simp [hend] at h
    | none =>
      simp only [hend] at h
      have hrow : (purchasedRow cal db userId plan now endUnix).upgradeGroup = trimSpace plan.upgradeGroup := rfl
      rw [hrow] at h
      refine ⟨endUnix, rfl, ?_⟩
      by_cases hup : trimSpace plan.upgradeGroup ≠ "" ∧ db.group userId ≠ trimSpace plan.upgradeGroup
      · rw [if_pos hup, Except.ok.injEq] at h
        subst h
        rw [if_pos hup]
        exact ⟨rfl, rfl, rfl⟩
      · rw [if_neg hup, Except.ok.injEq] at h
        subst h
        rw [if_neg hup]
        exact ⟨rfl, rfl, rfl⟩

theorem Keyed.append {row : Row} (h : Keyed db) (hrow : row.id = db.nextId)
    (hrows : db'.rows = db.rows ++ [row]) (hnext : db'.nextId = db.nextId + 1) : Keyed db' := by
  refine ⟨fun r hr r' hr' heq => ?_, fun r hr => ?_⟩
  · rw [hrows, mem_append, mem_singleton] at hr hr'
    rcases hr with hr | rfl
    · rcases hr' with hr' | rfl
      · exact h.key r hr r' hr' heq
      · have := h.fresh r hr
        omega
    · rcases hr' with hr' | rfl
      · have := h.fresh r' hr'
        omega
      · rfl
  · rw [hrows, mem_append, mem_singleton] at hr
    rw [hnext]
    rcases hr with hr | rfl
    · have := h.fresh r hr
      omega
    · omega

theorem inv_purchase {cal : Calendar} (hinv : Inv u g s) (hapart : Apart u s (.purchase cal userId plan now fault)) :
    Inv u g (step s (.purchase cal userId plan now fault)) := by
  obtain ⟨hclock, hapart⟩ := hapart
  have hclock : s.clock ≤ now := hclock
  simp only [step, apply, Action.now]
  cases h : createUserSubscriptionFromPlanTx cal s.db userId plan now fault with
  | error e => exact hinv.later hclock
  | ok db' =>
    obtain ⟨endUnix, hend, hrows, hnext, hgroup⟩ := purchase_cases h
    have hkeyed : Keyed db' := hinv.keyed.append rfl hrows hnext
    have hmem : ∀ r, r ∈ db'.rows ↔ r ∈ s.db.rows ∨ r = purchasedRow cal s.db userId plan now endUnix := by
      intro r
      rw [hrows, mem_append, mem_singleton]
    by_cases hu : userId = u
    swap
    · -- another user's purchase
      refine hinv.frame hkeyed hclock (fun r hr _ => (hmem r).mpr (.inl hr)) (fun r hr hru => ?_) ?_
      · rcases (hmem r).mp hr with hr | rfl
        · exact .inl hr
        · exact absurd hru hu
      · show db'.group u = s.db.group u
        rw [hgroup]
        split_ifs
        · exact update_of_ne (Ne.symm hu) ..
        · rfl
    subst hu
    obtain ⟨hdowngrade, hlater, hnone⟩ := hapart rfl
    have htrimmed : trimSpace (trimSpace plan.upgradeGroup) = trimSpace plan.upgradeGroup := trimSpace_trimSpace _
    by_cases hup : trimSpace plan.upgradeGroup = ""
    · -- a plan without an upgrade leaves the phase as it is
      rw [if_neg (fun hne => hne.1 hup)] at hgroup
      refine hinv.frame hkeyed hclock (fun r hr _ => (hmem r).mpr (.inl hr)) (fun r hr hru => ?_)
        (congrFun hgroup userId)
      rcases (hmem r).mp hr with hr | rfl
      · exact .inl hr
      · refine .inr ⟨hup, rfl, hdowngrade, htrimmed, .inl ⟨?_, .inl hup⟩⟩
        rw [purchasedRow_prevUserGroup, if_neg fun hne => hne.1 hup]
    · have hidle : ¬ Upgraded s.db userId := hnone hup
      have hg : s.db.group userId = g := hinv.restored hidle
      refine ⟨hkeyed, fun r hr hru => ?_, fun r hr hru hst => ?_, Or.inr
        ⟨purchasedRow cal s.db userId plan now endUnix, (hmem _).mpr (.inr rfl), rfl, rfl, hup,
          fun r hr hru hst hrup => ?_, ?_, fun r hr hru hst hrup => ?_⟩⟩
      · rcases (hmem r).mp hr with hr | rfl
        · exact hinv.kept r hr hru
        · refine ⟨hdowngrade, htrimmed, ?_⟩
          by_cases hsame : g = trimSpace plan.upgradeGroup
          · refine .inl ⟨?_, .inr hsame.symm⟩
            rw [purchasedRow_prevUserGroup, if_neg fun hne => hne.2 (hg.trans hsame)]
          · refine .inr ⟨?_, hup, Ne.symm hsame⟩
            rw [purchasedRow_prevUserGroup, if_pos ⟨hup, hg ▸ hsame⟩, hg]
      · rcases (hmem r).mp hr with hr | rfl
        · exact (hinv.ended r hr hru hst).trans hclock
        · cases hst
      · rcases (hmem r).mp hr with hr | hr
        · exact absurd ⟨r, hr, hru, hst, hrup⟩ hidle
        · exact hr
      · show db'.group userId = g ∨ db'.group userId = trimSpace plan.upgradeGroup
        rw [hgroup]
        split_ifs
        · exact .inr (update_self ..)
        · exact .inl hg
      · rcases (hmem r).mp hr with hr | rfl
        · have hle := hinv.ended r hr hru hst
          have hlt : now < endUnix := by simpa [EndsLater, hend] using hlater
          show r.endTime < endUnix
          omega
        · cases hst

theorem regroup_cases (db : GroupDB) (userId now : Int) (f : ExpiryFaults) :
    regroupExpired db userId now f = db ∨ ∃ last, last ∈ db.rows ∧ definesTransition userId last = true ∧
        expiryTarget last (db.group userId) ≠ "" ∧ regroupExpired db userId now f =
          db.setGroup userId (expiryTarget last (db.group userId)) := by
  unfold regroupExpired
  split_ifs with hactive
  · exact .inl rfl
  · cases f.expiredFails with
    | true => exact .inl rfl
    | false =>
      cases hlast : selectFirst (definesTransition userId) laterEnd db.rows with
      | none => exact .inl rfl
      | some last =>
        simp only
        obtain ⟨hmem, hdefines⟩ := selectFirst_mem hlast
        by_cases htarget : expiryTarget last (db.group userId) = "" ∨
            expiryTarget last (db.group userId) = db.group userId
        · exact .inl (if_pos htarget)
        · exact .inr ⟨last, hmem, hdefines, fun h0 => htarget (.inl h0), if_neg htarget⟩

theorem regroup_group (userId now : Int) (f : ExpiryFaults) (hg : trimSpace g = g)
    (hkept : ∀ r ∈ db.rows, r.userId = u → Kept g r) : (regroupExpired db userId now f).rows = db.rows ∧
      (regroupExpired db userId now f).nextId = db.nextId ∧ ((regroupExpired db userId now f).group u = db.group u ∨
        (userId = u ∧ (regroupExpired db userId now f).group u = g)) := by
  rcases regroup_cases db userId now f with h | ⟨last, hmem, hdefines, hne, h⟩
  · rw [h]
    exact ⟨rfl, rfl, .inl rfl⟩
  · rw [h]
    refine ⟨rfl, rfl, ?_⟩
    by_cases hu : userId = u
    · subst hu
      obtain ⟨hlast, -⟩ := of_decide_eq_true hdefines
      rcases (hkept last hmem hlast).expiryTarget_cases hg (db.group userId) with h0 | h0
      · exact absurd h0 hne
      · exact .inr ⟨rfl, by rw [setGroup_self, h0]⟩
    · exact .inl (setGroup_of_ne db (Ne.symm hu) _)

instance : Std.Total laterEnd := ⟨fun r r' => by unfold laterEnd; omega⟩

instance : IsTrans Row laterEnd := ⟨fun r r' r'' h h' => by unfold laterEnd at *; omega⟩

variable {f : ExpiryFaults}

/-- The expiry of the last upgrade brings the user back: no other expired upgrade ended later. -/
theorem regroup_restores {b : Row} (hg : trimSpace g = g) (hg₀ : g ≠ "")
    (hf : f.expiredFails = false) (hkept : ∀ r ∈ db.rows, r.userId = u → Kept g r) (hidle : ¬ Upgraded db u)
    (hb : b ∈ db.rows) (hbu : b.userId = u) (hbst : b.status = .expired) (hup : b.upgradeGroup ≠ "")
    (hlast : ∀ r ∈ db.rows, r.userId = u → r.status = .expired → r.upgradeGroup ≠ "" → r ≠ b → r.endTime < b.endTime)
    (hgroup : db.group u = g ∨ db.group u = b.upgradeGroup) : (regroupExpired db u now f).group u = g := by
  by_cases hback : db.group u = g
  · obtain ⟨-, -, hsame | ⟨-, hg'⟩⟩ := regroup_group u now f hg hkept
    · exact hsame.trans hback
    · exact hg'
  have hcurrent : db.group u = b.upgradeGroup := hgroup.resolve_left hback
  have hne : b.upgradeGroup ≠ g := hcurrent ▸ hback
  have hnorun : ¬ (f.activeFails = false ∧ db.rows.any (runsUpgraded u now) = true) := by
    rintro ⟨-, hany⟩
    obtain ⟨r, hr, hrun⟩ := any_eq_true.mp hany
    obtain ⟨hru, hst, -, hrup⟩ := of_decide_eq_true hrun
    exact hidle ⟨r, hr, hru, hst, hrup⟩
  have hbdef : definesTransition u b = true := decide_eq_true ⟨hbu, hbst, .inr hup⟩
  have hselect : selectFirst (definesTransition u) laterEnd db.rows = some b := by
    cases hsel : selectFirst (definesTransition u) laterEnd db.rows with
    | none =>
      rw [selectFirst_eq_none] at hsel
      rw [hsel b hb] at hbdef
      cases hbdef
    | some last =>
      obtain ⟨hmem, hdefines⟩ := selectFirst_mem hsel
      have hle := selectFirst_le hsel hb hbdef
      obtain ⟨hlu, hlst, htrans⟩ := of_decide_eq_true hdefines
      by_contra hneq
      have hlup : last.upgradeGroup ≠ "" := htrans.resolve_left fun hd => hd (hkept last hmem hlu).downgrade
      have hlt := hlast last hmem hlu hlst hlup fun heq => hneq (by rw [heq])
      unfold laterEnd at hle
      omega
  have htarget : expiryTarget b (db.group u) = g := by
    rw [hcurrent]
    exact (hkept b hb hbu).expiryTarget_upgrade hg hg₀ hup hne
  unfold regroupExpired
  rw [if_neg hnorun, hf, hselect]
  simp only [htarget]
  rw [if_neg (by simp [hg₀, Ne.symm hback]), setGroup_self]

theorem mem_markExpired {r : Row} (h : r ∈ (markExpired db userId now).rows) : ∃ r₀ ∈ db.rows,
      (r = r₀ ∧ ¬ (r₀.userId = userId ∧ isDue now r₀ = true)) ∨
      (r = { r₀ with status := .expired } ∧ r₀.userId = userId ∧ isDue now r₀ = true) := by
  obtain ⟨r₀, hr₀, heq⟩ := mem_updateWhere.mp h
  refine ⟨r₀, hr₀, ?_⟩
  by_cases hdue : r₀.userId = userId ∧ isDue now r₀ = true
  · rw [if_pos (decide_eq_true hdue)] at heq
    exact .inr ⟨heq.symm, hdue⟩
  · rw [if_neg (by simpa using hdue)] at heq
    exact .inl ⟨heq.symm, hdue⟩

theorem mem_markExpired_of_not {r : Row} (hr : r ∈ db.rows) (h : ¬ (r.userId = userId ∧ isDue now r = true)) :
    r ∈ (markExpired db userId now).rows :=
  mem_updateWhere.mpr ⟨r, hr, if_neg (by simpa using h)⟩

theorem inv_expire (hg : trimSpace g = g) (hg₀ : g ≠ "") (hinv : Inv u g s)
    (hapart : Apart u s (.expire userId now f)) : Inv u g (step s (.expire userId now f)) := by
  obtain ⟨hclock, hf⟩ := hapart
  have hclock : s.clock ≤ now := hclock
  simp only [step, apply, Action.now, expireUser]
  cases f.fault with
  | some e => exact hinv.later hclock
  | none =>
    simp only
    have hkept : ∀ r ∈ (markExpired s.db userId now).rows, r.userId = u → Kept g r := by
      intro r hr hu
      obtain ⟨r₀, hr₀, ⟨rfl, -⟩ | ⟨rfl, -⟩⟩ := mem_markExpired hr
      · exact hinv.kept r hr₀ hu
      · have hk := hinv.kept r₀ hr₀ hu
        exact ⟨hk.downgrade, hk.trimmed, hk.prev⟩
    obtain ⟨hrows, hnext, hgroup⟩ := regroup_group userId now f hg hkept
    have hmarked : Keyed (markExpired s.db userId now) := hinv.keyed.update _ fun _ => rfl
    have hkeyed : Keyed (regroupExpired (markExpired s.db userId now) userId now f) :=
      hmarked.of_eq hrows hnext
    by_cases hu : userId = u
    swap
    · -- the rows of another user
      refine hinv.frame hkeyed hclock (fun r hr hru => ?_) (fun r hr hru => .inl ?_)
        (hgroup.resolve_right fun h => hu h.1)
      · simp only [hrows]
        exact mem_markExpired_of_not hr fun hdue => hu (hdue.1 ▸ hru)
      · simp only [hrows] at hr
        obtain ⟨r₀, hr₀, ⟨rfl, -⟩ | ⟨rfl, hr₀u, -⟩⟩ := mem_markExpired hr
        · exact hr₀
        · exact absurd (hr₀u.symm.trans hru) hu
    subst hu
    have hactive : ∀ r ∈ (markExpired s.db userId now).rows, r.status = .active →
        r ∈ s.db.rows ∧ ¬ (r.userId = userId ∧ isDue now r = true) := by
      intro r hr hst
      obtain ⟨r₀, hr₀, ⟨rfl, hdue⟩ | ⟨rfl, -⟩⟩ := mem_markExpired hr
      · exact ⟨hr₀, hdue⟩
      · cases hst
    refine ⟨hkeyed, ?_, ?_, ?_⟩
    · rw [hrows]
      exact hkept
    · rw [hrows]
      intro r hr hru hst
      obtain ⟨r₀, hr₀, ⟨rfl, -⟩ | ⟨rfl, -, hdue⟩⟩ := mem_markExpired hr
      · exact (hinv.ended r hr₀ hru hst).trans hclock
      · exact (of_decide_eq_true hdue).2.2
    · rcases hinv.phase with ⟨hno, hback⟩ | ⟨b, hb⟩
      · refine .inl ⟨?_, ?_⟩
        · rintro ⟨r, hr, hru, hst, hrup⟩
          simp only [hrows] at hr
          exact hno ⟨r, (hactive r hr hst).1, hru, hst, hrup⟩
        · exact hgroup.elim (fun hsame => hsame.trans hback) And.right
      · by_cases hdue : isDue now b = true
        · -- the upgrade ends now
          have hidle : ¬ Upgraded (markExpired s.db userId now) userId := by
            rintro ⟨r, hr, hru, hst, hrup⟩
            obtain ⟨hr, hnot⟩ := hactive r hr hst
            exact hnot ⟨hru, (hb.alone r hr hru hst hrup) ▸ hdue⟩
          refine .inl ⟨?_, ?_⟩
          · rintro ⟨r, hr, hrest⟩
            simp only [hrows] at hr
            exact hidle ⟨r, hr, hrest⟩
          · refine regroup_restores (b := { b with status := .expired }) hg hg₀ (hf rfl) hkept hidle
              ?_ hb.user rfl hb.upgrade (fun r hr hru hst hrup hne => ?_) hb.group
            · exact mem_updateWhere.mpr ⟨b, hb.mem, if_pos (decide_eq_true ⟨hb.user, hdue⟩)⟩
            · obtain ⟨r₀, hr₀, ⟨rfl, -⟩ | ⟨rfl, -, hdue₀⟩⟩ := mem_markExpired hr
              · exact hb.last r hr₀ hru hst hrup
              · have hst₀ := (of_decide_eq_true hdue₀).1
                exact absurd (by rw [hb.alone r₀ hr₀ hru hst₀ hrup]) hne
        · refine .inr ⟨b, ?_, hb.user, hb.active, hb.upgrade, fun r hr hru hst hrup => ?_, ?_,
            fun r hr hru hst hrup => ?_⟩
          · simp only [hrows]
            exact mem_markExpired_of_not hb.mem fun h => hdue h.2
          · simp only [hrows] at hr
            exact hb.alone r (hactive r hr hst).1 hru hst hrup
          · rcases hgroup with hsame | ⟨-, hback⟩
            · exact hsame ▸ hb.group
            · exact .inl hback
          · simp only [hrows] at hr
            obtain ⟨r₀, hr₀, ⟨rfl, -⟩ | ⟨rfl, -, hdue₀⟩⟩ := mem_markExpired hr
            · exact hb.last r hr₀ hru hst hrup
            · have hst₀ := (of_decide_eq_true hdue₀).1
              exact absurd ((hb.alone r₀ hr₀ hru hst₀ hrup) ▸ hdue₀) hdue

theorem inv_step (hg : trimSpace g = g) (hg₀ : g ≠ "") (s : Sys) (a : Action)
    (hinv : Inv u g s) (hapart : Apart u s a) : Inv u g (step s a) := by
  cases a with
  | purchase cal userId plan now fault => exact inv_purchase hinv hapart
  | invalidate id now activeFails fault => exact inv_invalidate hg hg₀ hinv hapart.1
  | delete id now activeFails fault => exact inv_delete hg hg₀ hinv hapart.1
  | expire userId now f => exact inv_expire hg hg₀ hinv hapart

/-- **Group restored**: from a user in group `g` without subscriptions, in every run in which the
user's upgraded subscriptions do not overlap, the user is in `g` whenever no upgraded subscription
is unfinished. -/
theorem group_restored {as : List Action} (hg : GoText.trimSpace g = g) (hg₀ : g ≠ "")
    (hstart : Starts s u g) (hapart : Along step (Apart u) s as) : Restored u g (run step s as) := by
  have hinv : Inv u g s := by
    refine ⟨⟨hstart.key, hstart.fresh⟩, fun r hr hru => ?_, fun r hr hru => ?_, .inl ⟨?_, hstart.group⟩⟩
    · exact absurd hru (hstart.rows r hr)
    · exact absurd hru (hstart.rows r hr)
    · rintro ⟨r, hr, hru, -⟩
      exact hstart.rows r hr hru
  exact (run_inv (inv_step hg hg₀) hinv hapart).restored

/-- **Refinement**: the expiry task is one step for each user it visits, up to the first error. -/
theorem expireUsers_run {faults : Int → ExpiryFaults} {users : List Int} {count : ℕ} :
    ∃ n, (expireUsers now faults users s.db count).1 =
      (run step s ((users.take n).map fun v => .expire v now (faults v))).db ∧
      ((expireUsers now faults users s.db count).2.2 = none → users.length ≤ n) := by
  induction users generalizing s count with
  | nil => exact ⟨0, rfl, fun _ => le_rfl⟩
  | cons v rest ih =>
    unfold expireUsers
    cases h : expireUser s.db v now (faults v) with
    | error e => exact ⟨0, rfl, nofun⟩
    | ok out =>
      have hstep : step s (.expire v now (faults v)) = ⟨out.1, now⟩ := by simp only [step, apply, h, Action.now]
      obtain ⟨n, hrun, hall⟩ := @ih ⟨out.1, now⟩ (count + out.2)
      exact ⟨n + 1, by rw [take_succ_cons, map_cons, run_cons, hstep, ← hrun], by simpa using hall⟩

end Steps

/-! ### A renewal that is never taken back -/

def upgradePlan (id : Int) (group : String) : SubscriptionPlan :=
  ⟨id, "custom", 0, 100, 0, group, "", 0, "never", 0⟩

def exampleStart : Sys := ⟨⟨[], fun _ => "default", 1⟩, 0⟩

theorem exampleStart_starts : Starts exampleStart 1 "default" :=
  ⟨rfl, by simp [exampleStart], by simp [exampleStart], by simp [exampleStart]⟩

/-- Two upgrades one after the other, a plan without an upgrade beside the second, and a deletion. -/
theorem group_restored_one_after_other : Restored 1 "default" (run step exampleStart
      [.purchase uniformCalendar 1 (upgradePlan 1 "vip") 10 none, .expire 1 110 {},
        .purchase uniformCalendar 1 (upgradePlan 2 "svip") 120 none,
        .purchase uniformCalendar 1 (upgradePlan 3 "") 130 none, .invalidate 2 140 false none,
        .delete 2 150 false none]) := by
  refine group_restored (by decide) (by decide) exampleStart_starts ?_
  decide

/-- The same plan bought again before it ends: the renewal keeps no group, and when it expires the
user stays in the upgrade group. -/
theorem group_not_restored_after_renewal : ¬ Restored 1 "default" (run step exampleStart
      [.purchase uniformCalendar 1 (upgradePlan 1 "vip") 10 none,
        .purchase uniformCalendar 1 (upgradePlan 1 "vip") 60 none,
        .expire 1 110 {}, .expire 1 160 {}]) := by
  decide

end WynthApi.Store.Groups

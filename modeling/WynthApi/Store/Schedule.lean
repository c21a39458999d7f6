import Mathlib.Data.List.Sort
import WynthApi.Lib.GoText
import WynthApi.Store.Ledger

/-!
# Plans, their durations and the quota reset (model/subscription.go)

Times are Unix seconds.  What Go's `time` package computes in the server's zone is a `Calendar`, any
functions at all; durations are 64-bit nanoseconds and wrap.  The catch-up loop of
`maybeResetUserSubscriptionWithPlanTx` runs on fuel: `none` is a loop that has not ended yet.
-/

namespace WynthApi.Store

/-- Package `time` in the server's location: the midnight `days` after the day of `base`, the weekday (Sunday is
`0`), the first of the month `months` after that of `base`, and `AddDate`. -/
structure Calendar where
  midnight : (base days : Int) → Int
  weekday : (base : Int) → Int
  monthStart : (base months : Int) → Int
  addDate : (base years months days : Int) → Int

/-- Days of 24 hours, months of 30 days, years of 365 days, and every day a Monday. -/
def uniformCalendar : Calendar :=
  ⟨fun base days => base + 86400 * days, fun _ => 1, fun base months => base + 2592000 * months,
    fun base years months days => base + 31536000 * years + 2592000 * months + 86400 * days⟩

inductive ResetPeriod where
  | never
  | daily
  | weekly
  | monthly
  | custom
  deriving DecidableEq

structure SubscriptionPlan where
  id : Int
  durationUnit : String
  (durationValue customSeconds maxPurchasePerUser : Int)
  (upgradeGroup downgradeGroup : String)
  totalAmount : Int
  quotaResetPeriod : String
  quotaResetCustomSeconds : Int
  deriving DecidableEq

/-- A 64-bit duration: the value `x` nanoseconds wraps to. -/
def wrap64 (x : Int) : Int := x.bmod (2 ^ 64)

/-- `base.Add(time.Duration(n) * unit).Unix()` for a unit of `nanos` nanoseconds. -/
def addDuration (base n nanos : Int) : Int := base + wrap64 (n * nanos) / 1000000000

def nanosPerSecond : Int := 1000000000
def nanosPerHour : Int := 3600 * nanosPerSecond

variable (cal : Calendar)

def calcPlanEndTime (start : Int) (plan : SubscriptionPlan) : Except String Int :=
  let unit := plan.durationUnit
  if plan.durationValue ≤ 0 ∧ unit ≠ "custom" then .error "duration_value must be > 0"
  else if unit = "year" then .ok (cal.addDate start plan.durationValue 0 0)
  else if unit = "month" then .ok (cal.addDate start 0 plan.durationValue 0)
  else if unit = "day" then .ok (addDuration start (plan.durationValue * 24) nanosPerHour)
  else if unit = "hour" then .ok (addDuration start plan.durationValue nanosPerHour)
  else if unit = "custom" then
    if plan.customSeconds ≤ 0 then .error "custom_seconds must be > 0"
    else .ok (addDuration start plan.customSeconds nanosPerSecond)
  else .error s!"invalid duration_unit: {unit}"

def normalizeResetPeriod (period : String) : ResetPeriod :=
  let period := GoText.trimSpace period
  if period = "daily" then .daily
  else if period = "weekly" then .weekly
  else if period = "monthly" then .monthly
  else if period = "custom" then .custom
  else .never

/-- `calcNextResetTime`: the boundary after `base`, `0` if there is none before the end. -/
def calcNextResetTime (plan : SubscriptionPlan) (endUnix base : Int) : Int :=
  let cut (next : Int) : Int := if 0 < endUnix ∧ endUnix < next then 0 else next
  match normalizeResetPeriod plan.quotaResetPeriod with
  | .never => 0
  | .daily => cut (cal.midnight base 1)
  | .weekly =>
    -- Monday is 1 and Sunday 7
    let weekday := if cal.weekday base = 0 then 7 else cal.weekday base
    cut (cal.midnight base (8 - weekday))
  | .monthly => cut (cal.monthStart base 1)
  | .custom =>
    if plan.quotaResetCustomSeconds ≤ 0 then 0
    else cut (addDuration base plan.quotaResetCustomSeconds nanosPerSecond)

/-! ### The catch-up loop -/

/-- `for next > 0 && next <= now`: the last boundary reached, the one after it, and whether the loop
went round at all. -/
def catchUp (calcNext : Int → Int) (now : Int) : ℕ → Int → Int → Bool → Option (Int × Int × Bool)
  | 0, _, _, _ => none
  | fuel + 1, base, next, advanced =>
    if 0 < next ∧ next ≤ now then catchUp calcNext now fuel next (calcNext next) true
    else some (base, next, advanced)

/-- Where the loop stops: either it did not move, or it moved to a boundary that was due. -/
theorem catchUp_cases {calcNext : Int → Int} {now : Int} : ∀ {fuel : ℕ} {base next : Int}
    {advanced : Bool} {base' next' : Int} {advanced' : Bool}, next = calcNext base →
    catchUp calcNext now fuel base next advanced = some (base', next', advanced') →
    next' = calcNext base' ∧ ¬ (0 < next' ∧ next' ≤ now) ∧ ((base' = base ∧ advanced' = advanced) ∨
        (0 < next ∧ next ≤ now ∧ 0 < base' ∧ advanced' = true))
  | 0, _, _, _, _, _, _, _, h => by simp [catchUp] at h
  | fuel + 1, base, next, advanced, base', next', advanced', hnext, h => by
    unfold catchUp at h
    by_cases hdue : 0 < next ∧ next ≤ now
    · rw [if_pos hdue] at h
      obtain ⟨hn, hstop, hmoved⟩ := catchUp_cases rfl h
      refine ⟨hn, hstop, .inr ⟨hdue.1, hdue.2, ?_⟩⟩
      rcases hmoved with ⟨rfl, rfl⟩ | ⟨-, -, hpos, hadv⟩
      · exact ⟨hdue.1, rfl⟩
      · exact ⟨hpos, hadv⟩
    · rw [if_neg hdue, Option.some.injEq, Prod.mk.injEq, Prod.mk.injEq] at h
      obtain ⟨rfl, rfl, rfl⟩ := h
      exact ⟨hnext, hdue, .inl ⟨rfl, rfl⟩⟩

/-! ### The reset of one row -/

def periodStart (sub : UserSubscription) : Int :=
  if sub.lastResetTime ≤ 0 then sub.startTime else sub.lastResetTime

def maybeResetUserSubscriptionWithPlanTx (fuel : ℕ) (sub : UserSubscription)
    (plan : SubscriptionPlan) (now : Int) : Option UserSubscription :=
  if 0 < sub.nextResetTime ∧ now < sub.nextResetTime then some sub
  else if normalizeResetPeriod plan.quotaResetPeriod = .never then some sub
  else
    let base := periodStart sub
    let calcNext := calcNextResetTime cal plan sub.endTime
    match catchUp calcNext now fuel base (calcNext base) false with
    | none => none
    | some (base, next, false) =>
      if sub.nextResetTime = 0 ∧ 0 < next then
        some { sub with nextResetTime := next, lastResetTime := base }
      else some sub
    | some (base, next, true) =>
      some { sub with amountUsed := 0, lastResetTime := base, nextResetTime := next }

/-- What a reset leaves of a row: the same period with the same usage, or another period with no
usage. -/
structure Carried (sub sub' : UserSubscription) : Prop where
  total : sub'.amountTotal = sub.amountTotal
  used : (periodStart sub' = periodStart sub ∧ sub'.amountUsed = sub.amountUsed) ∨
    (periodStart sub' ≠ periodStart sub ∧ sub'.amountUsed = 0)

theorem Carried.refl (sub : UserSubscription) : Carried sub sub := ⟨rfl, .inl ⟨rfl, rfl⟩⟩

variable {sub sub' : UserSubscription} {plan : SubscriptionPlan}

theorem maybeReset_cases {cal : Calendar} {fuel : ℕ} {now : Int}
    (h : maybeResetUserSubscriptionWithPlanTx cal fuel sub plan now = some sub') : Carried sub sub' := by
  unfold maybeResetUserSubscriptionWithPlanTx at h
  by_cases hearly : 0 < sub.nextResetTime ∧ now < sub.nextResetTime
  · rw [if_pos hearly] at h
    exact Option.some.inj h ▸ Carried.refl sub
  rw [if_neg hearly] at h
  by_cases hnever : normalizeResetPeriod plan.quotaResetPeriod = .never
  · rw [if_pos hnever] at h
    exact Option.some.inj h ▸ Carried.refl sub
  rw [if_neg hnever] at h
  simp only at h
  cases hloop : catchUp (calcNextResetTime cal plan sub.endTime) now fuel (periodStart sub)
      (calcNextResetTime cal plan sub.endTime (periodStart sub)) false with
  | none => simp [hloop] at h
  | some r =>
    obtain ⟨base, next, advanced⟩ := r
    obtain ⟨hnext, hstop, hmoved⟩ := catchUp_cases rfl hloop
    cases advanced with
    | false =>
      -- the loop stopped at once, so a stored base is the old one
      have hbase : base = periodStart sub := by
        rcases hmoved with ⟨hb, -⟩ | ⟨-, -, -, hadv⟩
        · exact hb
        · cases hadv
      simp only [hloop] at h
      by_cases hfirst : sub.nextResetTime = 0 ∧ 0 < next
      · rw [if_pos hfirst] at h
        obtain rfl := Option.some.inj h
        refine ⟨rfl, .inl ⟨?_, rfl⟩⟩
        show (if base ≤ 0 then sub.startTime else base) = periodStart sub
        rw [hbase]
        unfold periodStart
        split_ifs <;> omega
      · rw [if_neg hfirst] at h
        exact Option.some.inj h ▸ Carried.refl sub
    | true =>
      rcases hmoved with ⟨-, hadv⟩ | ⟨hpos, hdue, hbase, -⟩
      · cases hadv
      simp only [hloop] at h
      obtain rfl := Option.some.inj h
      refine ⟨rfl, .inr ⟨?_, rfl⟩⟩
      have hlast : ¬ base ≤ 0 := by omega
      show (if base ≤ 0 then sub.startTime else base) ≠ periodStart sub
      rw [if_neg hlast]
      intro hsame
      rw [hnext, hsame] at hstop
      exact hstop ⟨hpos, hdue⟩

/-! ### Resets of a pre-consume and of the scheduled task -/

/-- What a call that may reset rows is given: the calendar, the clock it has read, the rounds its
loops may run and the plan of an id. -/
structure ResetCall where
  cal : Calendar
  now : Int
  fuel : ℕ
  plans : Int → Except String SubscriptionPlan

variable (call : ResetCall)

def ResetCall.reset (sub : UserSubscription) : Except String UserSubscription :=
  match call.plans sub.planId with
  | .error e => .error e
  | .ok plan =>
    match maybeResetUserSubscriptionWithPlanTx call.cal call.fuel sub plan call.now with
    | none => .error "transaction not finished"
    | some sub => .ok sub

theorem ResetCall.reset_carried {call : ResetCall} (h : call.reset sub = .ok sub') : Carried sub sub' := by
  unfold ResetCall.reset at h
  cases hp : call.plans sub.planId with
  | error e => simp [hp] at h
  | ok plan =>
    simp only [hp] at h
    cases hm : maybeResetUserSubscriptionWithPlanTx call.cal call.fuel sub plan call.now with
    | none => simp [hm] at h
    | some sub₁ =>
      simp only [hm, Except.ok.injEq] at h
      subst h
      exact maybeReset_cases hm

variable (db : DB)

/-- The transaction of the scheduled task on one row: lock it if it is still due, and reset it.
`true` means that the row counts as reset. -/
def resetDueSubscription (id : Int) (plan : SubscriptionPlan) (fault : Fault) : Except String (DB × Bool) :=
  match db.subs.lookup id with
  | none => .ok (db, false)
  | some locked =>
    if 0 < locked.nextResetTime ∧ locked.nextResetTime ≤ call.now then
      match maybeResetUserSubscriptionWithPlanTx call.cal call.fuel locked plan call.now, fault with
      | none, _ => .error "transaction not finished"
      | some _, some e => .error e
      | some sub, none => .ok ({ db with subs := db.subs.insert id sub }, true)
    else .ok (db, false)

theorem resetDueSubscription_cases {call : ResetCall} {db db' : DB} {id : Int}
    {fault : Fault} {counted : Bool} (h : resetDueSubscription call db id plan fault = .ok (db', counted)) :
    db' = db ∨ ∃ sub sub', db.subs.lookup id = some sub ∧ Carried sub sub' ∧
      db' = { db with subs := db.subs.insert id sub' } := by
  unfold resetDueSubscription at h
  cases hsub : db.subs.lookup id with
  | none =>
    simp only [hsub, Except.ok.injEq, Prod.mk.injEq] at h
    exact .inl h.1.symm
  | some sub =>
    simp only [hsub] at h
    by_cases hdue : 0 < sub.nextResetTime ∧ sub.nextResetTime ≤ call.now
    · rw [if_pos hdue] at h
      cases hm : maybeResetUserSubscriptionWithPlanTx call.cal call.fuel sub plan call.now with
      | none => simp [hm] at h
      | some sub' =>
        cases fault with
        | some e => simp [hm] at h
        | none =>
          simp only [hm, Except.ok.injEq, Prod.mk.injEq] at h
          exact .inr ⟨sub, sub', rfl, maybeReset_cases hm, h.1.symm⟩
    · rw [if_neg hdue, Except.ok.injEq, Prod.mk.injEq] at h
      exact .inl h.1.symm

def dueSubs (now : Int) : List (Σ _ : Int, UserSubscription) :=
  (db.subs.entries.filter fun e =>
    0 < e.2.nextResetTime ∧ e.2.nextResetTime ≤ now ∧ e.2.status = .active).insertionSort
      fun e f => e.2.nextResetTime ≤ f.2.nextResetTime

/-- The loop of the task: a row without a plan is passed over, a failed transaction ends the loop. -/
def resetEach (call : ResetCall) (faults : Int → Fault) :
    List (Σ _ : Int, UserSubscription) → DB → ℕ → DB × ℕ × Option String
  | [], db, count => (db, count, none)
  | ⟨id, sub⟩ :: rest, db, count =>
    match call.plans sub.planId with
    | .error _ => resetEach call faults rest db count
    | .ok plan =>
      match resetDueSubscription call db id plan (faults id) with
      | .error e => (db, count, some e)
      | .ok (db', counted) => resetEach call faults rest db' (count + if counted then 1 else 0)

def resetDueSubscriptions (faults : Int → Fault) (db : DB) (limit : Int) : DB × ℕ × Option String :=
  let limit := if limit ≤ 0 then 200 else limit
  resetEach call faults ((dueSubs db call.now).take limit.toNat) db 0

end WynthApi.Store

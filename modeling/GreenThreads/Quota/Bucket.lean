import GreenThreads.Clock
import GreenThreads.Fault

/-!
# Quota buckets

A bucket is credited with a quota of run time at the end of each period and charged with what its
members use. It may go into debt, which later periods repay; it never holds more than one quota.
-/

namespace GreenThreads

/-- Run time that is admitted per period. -/
structure Bucket where
  /-- The run time credited per period. -/
  quota : Nanos
  /-- The length of a period. -/
  period : Nanos
  /-- When the present period began. -/
  periodStart : Nanos
  /-- The run time left; negative in debt. -/
  remaining : Nanos
  /-- All run time ever charged. -/
  consumed : Nanos := 0
deriving DecidableEq, Repr

namespace Bucket

/-- A full bucket whose first period begins at `now`. -/
def full (quota period now : Nanos) : Bucket :=
  { quota, period, periodStart := now, remaining := quota }

/-- How many whole periods have passed at `now`, if any. -/
def periodsDue (b : Bucket) (now : Nanos) : Option Nanos :=
  let elapsed := now - b.periodStart
  if elapsed < b.period then none else some (elapsed / b.period)

/-- Moves the start of the period on by whole periods. -/
def advance (b : Bucket) (periods : Nanos) : Bucket :=
  { b with periodStart := b.periodStart + periods.satMul b.period }

/-- Credits whole periods, up to one quota. -/
def credit (b : Bucket) (periods : Nanos) : Bucket :=
  { b with remaining := min (b.remaining.satAdd (periods.satMul b.quota)) b.quota }

/-- Brings the bucket up to `now`. -/
def refill (b : Bucket) (now : Nanos) : Bucket :=
  match b.periodsDue now with
  | none => b
  | some periods => (b.advance periods).credit periods

/-- How many more whole periods than the present one it takes to repay the debt. -/
def extraPeriods (b : Bucket) : Except Fault Nanos :=
  if b.remaining = Int64.minValue then .error .negateOverflow
  else .ok ((-b.remaining - 1) / b.quota)

/-- How long to hold a member back at `now`; zero admits it. The bucket has to be refilled
before. -/
def delay (b : Bucket) (now : Nanos) : Except Fault Nanos :=
  if 0 ≤ b.remaining then .ok 0
  else
    let toBoundary := max (b.periodStart + b.period - now) 1
    b.extraPeriods.map fun extra => toBoundary.satAdd (extra.satMul b.period)

/-- Refills the bucket and tells how long to hold a member back. -/
def check (b : Bucket) (now : Nanos) : Bucket × Except Fault Nanos :=
  let b := b.refill now
  (b, b.delay now)

/-- Takes used run time out of the bucket. -/
def charge (b : Bucket) (used : Nanos) : Bucket :=
  if used ≤ 0 then b
  else { b with remaining := b.remaining - used, consumed := b.consumed + used }

end Bucket

end GreenThreads

/-!
# The clock

Instants and durations are nanoseconds in 64 bits. An instant lives on a circle: instants are
compared by the sign of their wrapped difference, which is right as long as two of them are less
than half the circle apart. Deadlines are pulled in to keep that so.
-/

namespace GreenThreads

/-- Nanoseconds, as an instant of the wrapping clock or as a duration. -/
abbrev Nanos := Int64

namespace Nanos

/-- The representable number of nanoseconds nearest to `n`. -/
def clamp (n : Int) : Nanos := Int64.ofIntClamp n

/-- Addition that stays at the ends of the range. -/
def satAdd (a b : Nanos) : Nanos := clamp (a.toInt + b.toInt)

/-- Multiplication that stays at the ends of the range. -/
def satMul (a b : Nanos) : Nanos := clamp (a.toInt * b.toInt)

/-- `a` comes strictly before `b` on the circle. -/
def before (a b : Nanos) : Bool := decide (a - b < 0)

/-- The largest distance that a deadline keeps from the present. -/
def maxDelay : Nanos := 4611686018427387903

/-- The deadline itself, or `maxDelay` from `now` if it lies further ahead than that. -/
def normalize (now deadline : Nanos) : Nanos :=
  if deadline - now > maxDelay then now + maxDelay else deadline

/-- A duration of whole seconds and nanoseconds. -/
def ofDuration (secs nanos : Nat) : Nanos := clamp (secs * 1000000000 + nanos)

/-- A duration of whole microseconds. -/
def ofMicros (n : Nat) : Nanos := clamp (n * 1000)

/-- The instant at which a wait of length `timeout` that begins at `now` gives up. -/
def deadlineAfter (now timeout : Nanos) : Nanos := now.satAdd timeout

end Nanos

end GreenThreads

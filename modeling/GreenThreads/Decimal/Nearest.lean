/-!
# The double nearest to a decimal

A decimal is given by its digits as one number and by the power of ten that it is multiplied with.
-/

namespace GreenThreads.Decimal

/-- The double nearest to `mantissa · 10 ^ exponent`. Numbers far out of range are settled without
computing the power. -/
def nearest (mantissa : Nat) (exponent : Int) : Float :=
  let top := exponent + (Nat.toDigits 10 mantissa).length
  if mantissa = 0 ∨ top < -400 then 0.0
  else if 400 < top then 1.0 / 0.0
  else Float.ofScientific mantissa (exponent < 0) exponent.natAbs

end GreenThreads.Decimal

/-!
# Shortest decimals

The decimal number with the fewest digits that still names one binary floating-point number, and
among those with equally few digits the one nearest to it.
-/

namespace GreenThreads.Decimal

/-- The positive number `mantissa · 2 ^ exponent`, as a double-precision number stores it. -/
structure Binary where
  mantissa : Nat
  exponent : Int
  /-- The gap to the number below is half the gap to the one above. -/
  narrowBelow : Bool
deriving DecidableEq, Repr

/-- The absolute value of a finite double, from its bits. -/
def Binary.ofBits (bits : UInt64) : Binary :=
  let fraction : Nat := bits.toNat % (1 <<< 52)
  let biased : Nat := (bits.toNat >>> 52) % (1 <<< 11)
  if biased = 0 then ⟨fraction, -1074, false⟩
  else ⟨fraction + (1 <<< 52), Int.ofNat biased - 1075, fraction == 0 && 1 < biased⟩

/-- The number `digits · 10 ^ scale`. -/
structure Numeral where
  digits : Nat
  scale : Int
deriving DecidableEq, Repr

/-- Whether the decimal is read back as the binary number. Both are scaled to one integer unit, four
to the binary number's own unit, so that the ends of its interval are integers; an end belongs to
the interval if the mantissa is even. -/
def Numeral.readsBack (d : Numeral) (b : Binary) : Bool :=
  let twos := b.exponent - 2
  let value := 4 * b.mantissa
  let scaled (n : Nat) (p q : Int) : Nat := (n * Nat.pow 10 p.toNat) <<< q.toNat
  let side (n : Nat) : Nat := scaled n (-d.scale) twos
  let x := scaled d.digits d.scale (-twos)
  let lo := side (value - if b.narrowBelow then 1 else 2)
  let hi := side (value + 2)
  if b.mantissa % 2 = 0 then lo ≤ x && x ≤ hi else lo < x && x < hi

/-- The place of the first digit: the number is below `10 ^ p` and at least `10 ^ (p - 1)`. -/
def Binary.magnitude (b : Binary) : Int :=
  let n := ((b.mantissa <<< b.exponent.toNat) * Nat.pow 10 330) >>> (-b.exponent).toNat
  (Nat.toDigits 10 n).length - 330

/-- The number in units of `10 ^ scale`, rounded down, and whether the upper neighbour is nearer. -/
def Binary.onGrid (b : Binary) (scale : Int) : Nat × Bool :=
  let num := (b.mantissa <<< b.exponent.toNat) * Nat.pow 10 (-scale).toNat
  let den := Nat.pow 10 scale.toNat <<< (-b.exponent).toNat
  let down := num / den
  let rest := num % den
  (down, den < 2 * rest || (den == 2 * rest && down % 2 == 1))

/-- The neighbour with `count` digits that reads back, if there is one; of two the nearer one. -/
def Binary.withDigits? (b : Binary) (count : Nat) : Option Numeral :=
  let scale := b.magnitude - count
  let (down, upNearer) := b.onGrid scale
  let below : Numeral := ⟨down, scale⟩
  let above : Numeral := ⟨down + 1, scale⟩
  let ordered := if upNearer then [above, below] else [below, above]
  ordered.find? (·.readsBack b)

/-- The shortest decimal that reads back; 17 digits always do. -/
def Binary.shortest (b : Binary) : Numeral :=
  ((List.range 17).findSome? fun n => b.withDigits? (n + 1)).getD ⟨0, 0⟩

/-- The decimal without an exponent, and with at least one digit on both sides of the point. -/
def Numeral.positional (d : Numeral) : String :=
  let digits := Nat.toDigits 10 d.digits
  let whole : List Char :=
    if 0 ≤ d.scale then digits ++ List.replicate d.scale.toNat '0'
    else digits.take (digits.length - (-d.scale).toNat)
  let part : List Char :=
    if 0 ≤ d.scale then []
    else List.replicate ((-d.scale).toNat - digits.length) '0'
      ++ digits.drop (digits.length - (-d.scale).toNat)
  let orZero (ds : List Char) : List Char := if ds.isEmpty then ['0'] else ds
  String.ofList (orZero whole ++ '.' :: orZero part)

/-- A floating-point number with the fewest digits that read back, without an exponent. -/
def floatText (x : Float) : String :=
  if x.isNaN then "NaN"
  else
    let sign := if x.toBits >>> 63 = 0 then "" else "-"
    if x.isInf then sign ++ "inf"
    else
      let b := Binary.ofBits x.toBits
      sign ++ if b.mantissa = 0 then "0.0" else b.shortest.positional

end GreenThreads.Decimal

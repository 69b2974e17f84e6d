import GreenThreads.Config.Basic
import GreenThreads.Decimal.Nearest

/-!
# Values of arguments

How numbers are written on the command line. A natural number fits 64 bits and may have a plus
sign. A decimal may have a sign, a point and an exponent, and it may be infinite or no number.
-/

namespace GreenThreads.Command

/-- The number with these decimal digits. -/
def ofDigits (ds : List Char) : Nat := ds.foldl (fun n c => 10 * n + (c.toNat - '0'.toNat)) 0

/-- Reads a number that is all digits, of which there is at least one. -/
def allDigits? (cs : List Char) : Option Nat :=
  if cs.isEmpty || !cs.all Char.isDigit then none else some (ofDigits cs)

/-- The numbers below this one fit 64 bits. -/
def naturalBound : Nat := 18446744073709551616

/-- Reads a natural number. -/
def natural? (s : String) : Option Nat :=
  let digits := match s.toList with
    | '+' :: ds => ds
    | ds => ds
  (allDigits? digits).filter (· < naturalBound)

/-- Splits a sign off; `true` stands for minus. -/
def splitSign : List Char → Bool × List Char
  | '-' :: cs => (true, cs)
  | '+' :: cs => (false, cs)
  | cs => (false, cs)

/-- Reads an exponent up to the end: nothing, or the letter, an optional sign and digits. -/
def exponent? : List Char → Option Int
  | [] => some 0
  | c :: cs =>
    if c = 'e' ∨ c = 'E' then
      let (negative, ds) := splitSign cs
      (allDigits? ds).map fun n => if negative then -n else n
    else none

/-- Reads a decimal without a sign: digits with an optional point, of which one side may be
empty. -/
def unsignedDecimal? (cs : List Char) : Option Float :=
  let whole := cs.takeWhile Char.isDigit
  let afterWhole := cs.dropWhile Char.isDigit
  let (part, rest) := match afterWhole with
    | '.' :: more => (more.takeWhile Char.isDigit, more.dropWhile Char.isDigit)
    | more => ([], more)
  if whole.isEmpty && part.isEmpty then none
  else
    (exponent? rest).map fun exponent =>
      Decimal.nearest (ofDigits (whole ++ part)) (exponent - part.length)

/-- Reads a decimal. -/
def decimal? (s : String) : Option Float :=
  let (negative, cs) := splitSign s.toList
  let signed (x : Float) : Float := if negative then -x else x
  match asciiLower (String.ofList cs) with
  | "inf" | "infinity" => some (signed (1.0 / 0.0))
  | "nan" => some (0.0 / 0.0)
  | _ => (unsignedDecimal? cs).map signed

end GreenThreads.Command

import GreenThreads.Decimal.Nearest
import GreenThreads.Toml.Text

/-!
# TOML numbers

Whole numbers are decimal, or hexadecimal, octal or binary with a sign of their base; they fit 64
bits. Underscores may stand between digits.
-/

namespace GreenThreads.Toml

/-- Reads digits, with single underscores between them. -/
def digitRun (isDigit : Char → Bool) : List Char → List Char × List Char
  | [] => ([], [])
  | '_' :: c :: rest =>
    if isDigit c then
      let (ds, after) := digitRun isDigit rest
      (c :: ds, after)
    else ([], '_' :: c :: rest)
  | c :: rest =>
    if isDigit c then
      let (ds, after) := digitRun isDigit rest
      (c :: ds, after)
    else ([], c :: rest)

/-- Reads at least one digit; the first one has no underscore before it. -/
def digits? (isDigit : Char → Bool) : List Char → Option (List Char × List Char)
  | c :: rest =>
    if isDigit c then
      let (ds, after) := digitRun isDigit rest
      some (c :: ds, after)
    else none
  | [] => none

/-- Reads a sign, if there is one; `true` stands for minus. -/
def readSign : List Char → Bool × List Char
  | '+' :: rest => (false, rest)
  | '-' :: rest => (true, rest)
  | cs => (false, cs)

/-- Reads decimal digits without leading zeros. -/
def wholeDigits? : List Char → Option (List Char × List Char)
  | '0' :: rest => some (['0'], rest)
  | cs => digits? Char.isDigit cs

/-- The number with these digits. -/
def number (base : Nat) (ds : List Char) : Nat :=
  ds.foldl (fun n c => n * base + (hexValue? c).getD 0) 0

/-- Whether the number fits 64 bits with a sign. -/
def fitsInteger (n : Int) : Bool := -9223372036854775808 ≤ n && n ≤ 9223372036854775807

/-- Keeps a number that fits. -/
def checkedInteger (n : Int) (rest : List Char) : Option (Int × List Char) :=
  if fitsInteger n then some (n, rest) else none

/-- Reads the digits of a number that begins with the sign of its base. -/
def basedInteger (base : Nat) (cs : List Char) : Option (Int × List Char) :=
  match digits? (fun c => match hexValue? c with
      | some v => v < base
      | none => false) cs with
  | some (ds, rest) => checkedInteger (number base ds) rest
  | none => none

/-- Reads a decimal whole number. -/
def decimalInteger (cs : List Char) : Option (Int × List Char) :=
  let (negative, cs) := readSign cs
  match wholeDigits? cs with
  | some (ds, rest) =>
    let n : Int := number 10 ds
    checkedInteger (if negative then -n else n) rest
  | none => none

/-- Reads a whole number. -/
def readInteger : List Char → Option (Int × List Char)
  | '0' :: 'x' :: rest => basedInteger 16 rest
  | '0' :: 'o' :: rest => basedInteger 8 rest
  | '0' :: 'b' :: rest => basedInteger 2 rest
  | cs => decimalInteger cs

/-! ## Floating-point numbers -/

/-- Reads the digits after a point, if there is one; it needs digits after it. -/
def readFraction : List Char → Option (Option (List Char) × List Char)
  | '.' :: rest => (digits? Char.isDigit rest).map fun (ds, after) => (some ds, after)
  | cs => some (none, cs)

/-- Reads an exponent, if there is one; it needs digits. -/
def readExponent : List Char → Option (Option Int × List Char)
  | c :: rest =>
    if c == 'e' || c == 'E' then
      let (negative, rest) := readSign rest
      (digits? Char.isDigit rest).map fun (ds, after) =>
        let n : Int := number 10 ds
        (some (if negative then -n else n), after)
    else some (none, c :: rest)
  | [] => some (none, [])

/-- Reads a floating-point number with digits. One that exceeds all doubles is refused, unless it is
negative. -/
def decimalFloat (cs : List Char) : Option (Float × List Char) := do
  let (negative, cs) := readSign cs
  let (whole, cs) ← wholeDigits? cs
  let (fraction, cs) ← readFraction cs
  let (exponent, cs) ← readExponent cs
  if fraction.isNone && exponent.isNone then none
  let part := fraction.getD []
  let x := Decimal.nearest (number 10 (whole ++ part)) (exponent.getD 0 - part.length)
  if x.isInf && !negative then none
  return (if negative then -x else x, cs)

/-- Reads infinity or the value that is no number, with an optional sign. -/
def specialFloat (cs : List Char) : Option (Float × List Char) :=
  let (negative, cs) := readSign cs
  match cs with
  | 'i' :: 'n' :: 'f' :: rest => some (if negative then -1.0 / 0.0 else 1.0 / 0.0, rest)
  | 'n' :: 'a' :: 'n' :: rest => some (0.0 / 0.0, rest)
  | _ => none

/-- Reads a floating-point number. -/
def readFloat (cs : List Char) : Option (Float × List Char) := decimalFloat cs <|> specialFloat cs

end GreenThreads.Toml

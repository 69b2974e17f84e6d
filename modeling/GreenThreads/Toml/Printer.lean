import GreenThreads.Toml.Text

/-!
# Writing TOML

Strings are written in the plainest form that can hold them: between double quotes if nothing has
to be escaped, then between single quotes, then between three quotes of either kind, and with
escapes at last.
-/

namespace GreenThreads.Toml

/-- A control character that no string can show; tabs and line feeds are not meant. -/
def isHidden (c : Char) : Bool := (c < ' ' && c != '\t' && c != '\n') || c == '\x7f'

/-- The length of the longest run of a character; `run` is that of the one just before. -/
def longestRun (mark : Char) : List Char → Nat → Nat → Nat
  | [], run, best => max run best
  | c :: rest, run, best =>
    if c == mark then longestRun mark rest (run + 1) best
    else longestRun mark rest 0 (max run best)

/-- The form of a written string. -/
structure Style where
  quoting : Quoting
  multiline : Bool
deriving DecidableEq, Repr

namespace Style

/-- The plainest form that can hold a text. -/
def forText (cs : List Char) : Style :=
  let hidden := cs.any isHidden
  let escape := cs.contains '\\'
  let newline := cs.contains '\n'
  let doubles := longestRun '"' cs 0 0
  let singles := longestRun '\'' cs 0 0
  if !hidden && !escape && doubles == 0 && !newline then ⟨.basic, false⟩
  else if !hidden && singles == 0 && !newline then ⟨.literal, false⟩
  else if !hidden && !escape && doubles ≤ 2 then ⟨.basic, true⟩
  else if !hidden && singles ≤ 2 then ⟨.literal, true⟩
  else ⟨.basic, newline⟩

/-- The quotes on either side. -/
def delimiter (s : Style) : List Char :=
  List.replicate (if s.multiline then 3 else 1) s.quoting.mark

end Style

/-- A digit to base 16, in upper case. -/
def upperHexDigit (n : Nat) : Char := (Nat.digitChar n).toUpper

/-- An escape for a control character that has no letter of its own. -/
def hexEscape (c : Char) : List Char :=
  ['\\', 'u', '0', '0', upperHexDigit (c.toNat / 16), upperHexDigit (c.toNat % 16)]

/-- Writes the inside of a string with escapes. Of quotes side by side, `run` counts those written
plainly just before; one line can have none, several lines can have two. -/
def escapeText (multiline : Bool) : List Char → Nat → List Char
  | [], _ => []
  | c :: rest, run =>
    if c = '"' then
      if run < (if multiline then 2 else 0) then c :: escapeText multiline rest (run + 1)
      else '\\' :: c :: escapeText multiline rest 0
    else
      let written : List Char :=
        if c = '\\' then ['\\', '\\']
        else if c = '\x08' then ['\\', 'b']
        else if c = '\t' then ['\\', 't']
        else if c = '\x0c' then ['\\', 'f']
        else if c = '\r' then ['\\', 'r']
        else if c = '\n' then (if multiline then [c] else ['\\', 'n'])
        else if isHidden c then hexEscape c
        else [c]
      written ++ escapeText multiline rest 0

/-- A string in a given form. A text of several lines begins on a line of its own. -/
def writeStringAs (s : Style) (cs : List Char) : List Char :=
  let first : List Char := if s.multiline && cs.contains '\n' then ['\n'] else []
  let body :=
    match s.quoting with
    | .basic => escapeText s.multiline cs 0
    | .literal => cs
  s.delimiter ++ first ++ body ++ s.delimiter

/-- A string in its plainest form. -/
def writeString (text : String) : List Char := writeStringAs (.forText text.toList) text.toList

/-- A boolean. -/
def writeBool (b : Bool) : List Char := (if b then "true" else "false").toList

/-- A number. -/
def writeNat (n : Nat) : List Char := Nat.toDigits 10 n

/-- A line with a key and a value. -/
def writePair (key : String) (value : List Char) : List Char :=
  key.toList ++ [' ', '=', ' '] ++ value ++ ['\n']

/-- The line of a header, and an empty line before it. -/
def writeHeader (header : String) : List Char := '\n' :: header.toList ++ ['\n']

end GreenThreads.Toml

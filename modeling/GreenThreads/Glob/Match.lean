import GreenThreads.Glob.Pattern

/-!
# Matching

A wildcard first tries to match nothing and then one character more at a time. A token that meets
the end of the text ends the whole search: no longer wildcard could help.
-/

namespace GreenThreads.Glob

/-- The result of an attempt. -/
inductive Attempt where
  | matched
  /-- This attempt fails, another one may do. -/
  | mismatch
  /-- No attempt can do. -/
  | exhausted
deriving DecidableEq, Repr

/-- Whether a token that stands for one character accepts the character. -/
def Token.accepts (c : Char) : Token → Bool
  | .char d => c == d
  | .anyChar => true
  | .within parts => parts.any (·.has c)
  | .outside parts => !parts.any (·.has c)
  | .anySequence | .anyComponents => false

/-- Lets a wildcard take one character after the other and tries `rest` after each of them, or, if
the wildcard stands for whole components, after each `/`. When the text is used up, `rest` has to
do with nothing. -/
def sweep (rest : List Char → Attempt) (components : Bool) : List Char → Attempt
  | [] => rest []
  | c :: cs =>
    if components && c != '/' then sweep rest components cs
    else
      match rest cs with
      | .mismatch => sweep rest components cs
      | decided => decided

/-- Lets a wildcard stand for nothing, or else sweep. -/
def tryWildcard (rest : List Char → Attempt) (components : Bool) (cs : List Char) : Attempt :=
  match rest cs with
  | .mismatch => sweep rest components cs
  | decided => decided

/-- Tries to match all of the text. -/
def attempt : List Token → List Char → Attempt
  | [], [] => .matched
  | [], _ :: _ => .mismatch
  | .anySequence :: ts, cs => tryWildcard (attempt ts) false cs
  | .anyComponents :: ts, cs => tryWildcard (attempt ts) true cs
  | _ :: _, [] => .exhausted
  | t :: ts, c :: cs => if t.accepts c then attempt ts cs else .mismatch

/-- Whether the pattern matches the whole text. -/
def isMatch (tokens : List Token) (s : String) : Bool := attempt tokens s.toList == .matched

end GreenThreads.Glob

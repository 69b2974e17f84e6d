import GreenThreads.Toml.Moment
import GreenThreads.Toml.Value

/-!
# Reading TOML keys and values

Values nest up to a depth that the caller gives; it bounds the recursion.
-/

namespace GreenThreads.Toml

/-! ## Keys -/

/-- Reads one part of a key: bare, or quoted on one line. -/
def readKeyPart (cs : List Char) : Option (String × List Char) :=
  match cs with
  | '"' :: _ => readString false .basic cs
  | '\'' :: _ => readString false .literal cs
  | _ =>
    match cs.takeWhile isBareKey with
    | [] => none
    | part => some (String.ofList part, cs.dropWhile isBareKey)

/-- Reads at most `n` parts of a key with points between them; blanks may stand around each. A point
that no part follows is left where it is. -/
def readKeyParts : Nat → List Char → Option (List String × List Char)
  | 0, _ => none
  | n + 1, cs =>
    match readKeyPart (skipBlanks cs) with
    | none => none
    | some (part, rest) =>
      let rest := skipBlanks rest
      match rest with
      | '.' :: more =>
        match readKeyParts n more with
        | some (parts, after) => some (part :: parts, after)
        | none => some ([part], rest)
      | _ => some ([part], rest)

/-- How deep arrays, inline tables and dotted keys may nest. -/
def maxDepth : Nat := 79

/-- Reads a key: the path to a table and the name in it. -/
def readKey (cs : List Char) : Option ((List String × String) × List Char) :=
  match readKeyParts cs.length cs with
  | none => none
  | some (parts, rest) =>
    if parts.length ≤ maxDepth then
      match parts.getLast? with
      | some name => some ((parts.dropLast, name), rest)
      | none => none
    else none

/-! ## Adding to tables -/

/-- Adds a key and its value to an inline table. Tables that dotted keys make on the way may be
added to again, others may not. -/
def insertInline : List String → String → Value → Entries → Option Entries
  | [], name, v, es => if (es.get? name).isSome then none else some (es ++ [(name, v)])
  | key :: path, name, v, es =>
    match es.get? key with
    | none =>
      (insertInline path name v []).map fun inner => es ++ [(key, .table .dotted inner)]
    | some (.table .dotted inner) =>
      (insertInline path name v inner).map fun inner => es.replace key (.table .dotted inner)
    | some _ => none

/-! ## Values -/

/-- Reads items up to the closing bracket; commas stand between them, and one may follow the
last. `n` bounds the number of items. -/
def readItems (item : List Char → Option (Value × List Char)) :
    Nat → List Char → Option (List Value × List Char)
  | 0, _ => none
  | n + 1, cs =>
    match skipLines cs with
    | ']' :: rest => some ([], rest)
    | cs =>
      match item cs with
      | none => none
      | some (v, rest) =>
        match skipLines rest with
        | ']' :: rest => some ([v], rest)
        | ',' :: rest => (readItems item n rest).map fun (vs, after) => (v :: vs, after)
        | _ => none

/-- Reads pairs up to the closing brace; commas stand between them. `n` bounds their number. -/
def readPairs (item : List Char → Option (Value × List Char)) :
    Nat → Entries → List Char → Option (Entries × List Char)
  | 0, _, _ => none
  | n + 1, es, cs =>
    match readKey cs with
    | none => none
    | some ((path, name), rest) =>
      match rest with
      | '=' :: rest =>
        match item (skipBlanks rest) with
        | none => none
        | some (v, rest) =>
          match insertInline path name v es with
          | none => none
          | some es =>
            match skipBlanks rest with
            | '}' :: rest => some (es, rest)
            | ',' :: rest => readPairs item n es rest
            | _ => none
      | _ => none

/-- Reads a number or a moment. -/
def readScalar (cs : List Char) : Option (Value × List Char) :=
  match readMoment cs with
  | some rest => some (.moment, rest)
  | none =>
    match readFloat cs with
    | some (x, rest) => some (.float x, rest)
    | none => (readInteger cs).map fun (n, rest) => (.integer n, rest)

/-- Reads a value whose arrays and inline tables nest at most `depth` deep. -/
def readValue : Nat → List Char → Option (Value × List Char)
  | depth, cs =>
    match cs with
    | '"' :: _ => (readString true .basic cs).map fun (s, rest) => (.string s, rest)
    | '\'' :: _ => (readString true .literal cs).map fun (s, rest) => (.string s, rest)
    | '[' :: rest =>
      match depth with
      | 0 => none
      | depth + 1 =>
        (readItems (readValue depth) (rest.length + 1) rest).map fun (vs, rest) => (.array vs, rest)
    | '{' :: rest =>
      match depth with
      | 0 => none
      | depth + 1 =>
        match skipBlanks rest with
        | '}' :: rest => some (.table .inline [], rest)
        | rest =>
          (readPairs (readValue depth) (rest.length + 1) [] rest).map fun (es, rest) =>
            (.table .inline es, rest)
    | 't' :: 'r' :: 'u' :: 'e' :: rest => some (.boolean true, rest)
    | 'f' :: 'a' :: 'l' :: 's' :: 'e' :: rest => some (.boolean false, rest)
    | _ => readScalar cs

end GreenThreads.Toml

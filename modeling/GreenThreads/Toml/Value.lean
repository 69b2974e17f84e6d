/-!
# TOML values

The data of a TOML text. Tables keep the order in which their keys appear, and how they were
written, because that decides what may still be added to them.
-/

namespace GreenThreads.Toml

/-- How a table came about. -/
inductive Origin where
  /-- It was written between braces. -/
  | inline
  /-- It has a header of its own. -/
  | header
  /-- Only a header below it names it. -/
  | implied
  /-- A dotted key names it. -/
  | dotted
deriving DecidableEq, Repr

/-- A value with everything in it. -/
inductive Value where
  | string (s : String)
  | integer (n : Int)
  | float (x : Float)
  | boolean (b : Bool)
  /-- A date, a time or both. -/
  | moment
  /-- An array written between brackets. -/
  | array (items : List Value)
  /-- Tables collected by headers in double brackets, each with its entries. -/
  | tables (items : List Value)
  | table (origin : Origin) (entries : List (String × Value))
deriving Repr, Inhabited

/-- The entries of a table, in order. -/
abbrev Entries := List (String × Value)

/-- The value of a key. -/
def Entries.get? (es : Entries) (key : String) : Option Value := es.lookup key

/-- Replaces the value of a key in its place. -/
def Entries.replace (es : Entries) (key : String) (v : Value) : Entries :=
  es.map fun (k, old) => if k = key then (k, v) else (k, old)

/-- Takes a key out. -/
def Entries.erase (es : Entries) (key : String) : Entries := es.filter (·.1 != key)

end GreenThreads.Toml

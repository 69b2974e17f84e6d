import GreenThreads.Config.Basic
import GreenThreads.Decimal.Shortest
import GreenThreads.Toml.Document
import GreenThreads.Toml.Printer

/-!
# Configuration files

A configuration is written as TOML, with one key for each setting and a table for the thread policy.
Unknown keys are passed over, and settings without a key keep their defaults. A table may also be
written as the array of its values.
-/

namespace GreenThreads

/-- A value that does not fit the setting that it is given for. -/
inductive DecodeError where
  | wrongType (found wanted : String)
  | negative (n : Int) (wanted : String)
  | missing (key : String)
  | tooShort (length : Nat) (wanted : String)
  | unknownPlacement (name : String)
  /-- Something else than the name of a placement. -/
  | noPlacement
  /-- A table that should have one key names no placement. -/
  | noVariant
  /-- A table that should have one key has more. -/
  | manyVariants
  /-- What a placement in a table holds is no table. -/
  | noPayload (found : String)
  /-- What a placement in a table holds is not empty. -/
  | fullPayload (wanted : String)
deriving DecidableEq, Repr

/-- The text of a decoding error. -/
def DecodeError.message : DecodeError → String
  | wrongType found wanted => "invalid type: " ++ found ++ ", expected " ++ wanted
  | negative n wanted => "invalid value: integer `" ++ toString n ++ "`, expected " ++ wanted
  | missing key => "missing field `" ++ key ++ "`"
  | tooShort n wanted => "invalid length " ++ toString n ++ ", expected " ++ wanted
  | unknownPlacement name => "unknown variant `" ++ name ++ "`, expected `push` or `pull`"
  | noPlacement => "wanted string or table"
  | noVariant => "wanted exactly 1 element, found 0 elements"
  | manyVariants => "wanted exactly 1 element, more than 1 element"
  | noPayload found => "expected table, found " ++ found
  | fullPayload wanted => "expected empty " ++ wanted

namespace Config

open Toml (Value Entries)

/-! ## Reading -/

/-- How an error names a value that it did not expect. -/
def found : Value → String
  | .string s => "string " ++ Text.quote s
  | .integer n => "integer `" ++ toString n ++ "`"
  | .float x => "floating point `" ++ Decimal.floatText x ++ "`"
  | .boolean b => "boolean `" ++ toString b ++ "`"
  | .array _ | .tables _ => "sequence"
  | .table _ _ | .moment => "map"

/-- How an error names the kind of a value. -/
def kindName : Value → String
  | .string _ => "string"
  | .integer _ => "integer"
  | .float _ => "float"
  | .boolean _ => "boolean"
  | .moment => "datetime"
  | .array _ => "array"
  | .tables _ => "array of tables"
  | .table _ _ => "table"

/-- A number that cannot be negative. -/
def natOf (wanted : String) : Value → Except DecodeError Nat
  | .integer n => if n < 0 then .error (.negative n wanted) else .ok n.toNat
  | v => .error (.wrongType (found v) wanted)

/-- A count or a size. -/
def sizeOf (v : Value) : Except DecodeError Nat := natOf "usize" v

/-- A truth value. -/
def boolOf : Value → Except DecodeError Bool
  | .boolean b => .ok b
  | v => .error (.wrongType (found v) "a boolean")

/-- A text. -/
def stringOf : Value → Except DecodeError String
  | .string s => .ok s
  | v => .error (.wrongType (found v) "a string")

/-- The placement with a given name. -/
def placementNamed (name : String) : Except DecodeError Placement :=
  match name with
  | "push" => .ok .push
  | "pull" => .ok .pull
  | _ => .error (.unknownPlacement name)

/-- A placement: its name, or a table with its name as the only key and nothing in it. -/
def placementOf : Value → Except DecodeError Placement
  | .string s => placementNamed s
  | .table _ [] => .error .noVariant
  | .table _ [(name, payload)] => do
    let p ← placementNamed name
    match payload with
    | .table _ [] | .array [] => .ok p
    | .table _ _ | .array _ => .error (.fullPayload "table")
    | .tables _ => .error (.fullPayload "array")
    | v => .error (.noPayload (kindName v))
  | .table _ _ => .error .manyVariants
  | _ => .error .noPlacement

/-- Goes through the pairs of a rule. -/
def ruleFields : Entries → Option String → Option Bool → Except DecodeError ThreadRule
  | [], none, _ => .error (.missing "pattern")
  | [], some _, none => .error (.missing "as_task")
  | [], some pattern, some asTask => .ok { pattern, asTask }
  | (key, v) :: rest, pattern, asTask =>
    match key with
    | "pattern" => (stringOf v).bind fun p => ruleFields rest (some p) asTask
    | "as_task" => (boolOf v).bind fun b => ruleFields rest pattern (some b)
    | _ => ruleFields rest pattern asTask

/-- A rule as an array of its values. -/
def ruleItems : List Value → Except DecodeError ThreadRule
  | [] => .error (.tooShort 0 "struct ThreadRule with 2 elements")
  | [p] => (stringOf p).bind fun _ => .error (.tooShort 1 "struct ThreadRule with 2 elements")
  | p :: t :: _ => (stringOf p).bind fun pattern => (boolOf t).map fun asTask => { pattern, asTask }

/-- A rule of the thread policy. -/
def ruleOf : Value → Except DecodeError ThreadRule
  | .table _ es => ruleFields es none none
  | .moment => ruleFields [] none none
  | .array items | .tables items => ruleItems items
  | v => .error (.wrongType (found v) "struct ThreadRule")

/-- The rules of the thread policy. -/
def rulesOf : Value → Except DecodeError (List ThreadRule)
  | .array items | .tables items => items.mapM ruleOf
  | v => .error (.wrongType (found v) "a sequence")

/-- Takes one pair of the thread policy. -/
def policyField (p : ThreadPolicy) : String × Value → Except DecodeError ThreadPolicy
  | (key, v) =>
    match key with
    | "enabled" => (boolOf v).map fun enabled => { p with enabled }
    | "rules" => (rulesOf v).map fun rules => { p with rules }
    | _ => .ok p

/-- The thread policy. -/
def policyOf : Value → Except DecodeError ThreadPolicy
  | .table _ es => es.foldlM policyField {}
  | .moment => .ok {}
  | .array items | .tables items =>
    (["enabled", "rules"].zip items).foldlM policyField {}
  | v => .error (.wrongType (found v) "struct ThreadAsTaskPolicy")

/-- Takes one pair of a configuration. -/
def configField (c : Config) : String × Value → Except DecodeError Config
  | (key, v) =>
    match key with
    | "worker_threads" => (sizeOf v).map fun workers => { c with workers }
    | "carrier_cache_size" => (sizeOf v).map fun carrierCache => { c with carrierCache }
    | "global_cache_size" => (sizeOf v).map fun globalCache => { c with globalCache }
    | "steal_retry" => (sizeOf v).map fun stealRetry => { c with stealRetry }
    | "push_retry" => (sizeOf v).map fun pushRetry => { c with pushRetry }
    | "policy" => (placementOf v).map fun placement => { c with placement }
    | "high_precision_timer" => (boolOf v).map fun preciseTimer => { c with preciseTimer }
    | "min_park_nanos" => (natOf "u64" v).map fun minPark => { c with minPark }
    | "stack_size" => (sizeOf v).map fun stackSize => { c with stackSize }
    | "thread_as_task" => (policyOf v).map fun threadPolicy => { c with threadPolicy }
    | _ => .ok c

/-- The configuration that a table describes. The first pair that does not fit is an error. -/
def ofEntries (es : Entries) : Except DecodeError Config := es.foldlM configField {}

/-- Reads a configuration and checks that it is valid. -/
def ofText (text : String) : Except EngineError Config :=
  match Toml.readDocument text with
  | none => .error (.configParse none)
  | some es =>
    match ofEntries es with
    | .error e => .error (.configParse (some e.message))
    | .ok c => c.validate.map fun _ => c

/-! ## Writing -/

/-- The largest number that can be written. -/
def maxWritten : Nat := 9223372036854775807

/-- The numbers of a configuration, with their keys. -/
def numbers (c : Config) : List Nat :=
  [c.workers, c.carrierCache, c.globalCache, c.stealRetry, c.pushRetry, c.minPark, c.stackSize]

open Toml (writePair writeNat writeBool writeString writeHeader)

/-- A rule of the thread policy. -/
def writeRule (r : ThreadRule) : List Char :=
  writeHeader "[[thread_as_task.rules]]"
    ++ writePair "pattern" (writeString r.pattern)
    ++ writePair "as_task" (writeBool r.asTask)

/-- The rules of the thread policy. -/
def writeRules : List ThreadRule → List Char
  | [] => writePair "rules" ['[', ']']
  | rules => rules.flatMap writeRule

/-- The settings outside of the thread policy. -/
def writeSettings (c : Config) : List Char :=
  writePair "worker_threads" (writeNat c.workers)
    ++ writePair "carrier_cache_size" (writeNat c.carrierCache)
    ++ writePair "global_cache_size" (writeNat c.globalCache)
    ++ writePair "steal_retry" (writeNat c.stealRetry)
    ++ writePair "push_retry" (writeNat c.pushRetry)
    ++ writePair "policy" (writeString c.placement.text)
    ++ writePair "high_precision_timer" (writeBool c.preciseTimer)
    ++ writePair "min_park_nanos" (writeNat c.minPark)
    ++ writePair "stack_size" (writeNat c.stackSize)

/-- The whole text. -/
def write (c : Config) : List Char :=
  c.writeSettings
    ++ writeHeader "[thread_as_task]"
    ++ writePair "enabled" (writeBool c.threadPolicy.enabled)
    ++ writeRules c.threadPolicy.rules

/-- Writes a configuration, unless one of its numbers is too large for TOML. -/
def toText (c : Config) : Except EngineError String :=
  if c.numbers.all (· ≤ maxWritten) then .ok (String.ofList c.write)
  else .error ConfigFault.outOfRange.toError

end Config

end GreenThreads

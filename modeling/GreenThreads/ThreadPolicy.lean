import GreenThreads.Glob.Match
import GreenThreads.Error
import GreenThreads.Text.Quoted

/-!
# Threads as tasks

A policy says which named threads run as tasks and which run natively. Among the rules that match a
name the most specific ones decide, and they must all agree to run it as a task.
-/

namespace GreenThreads

/-- Whether threads with matching names run as tasks. -/
structure ThreadRule where
  /-- A glob pattern for the name. -/
  pattern : String
  asTask : Bool
deriving DecidableEq, Repr, Inhabited

namespace ThreadRule

/-- How many characters of the pattern are not `*`. -/
def specificity (r : ThreadRule) : Nat := r.pattern.toList.countP (· != '*')

/-- Whether the rule speaks about a name. A rule without a valid pattern speaks about none. -/
def appliesTo (r : ThreadRule) (name : String) : Bool :=
  match Glob.parse r.pattern with
  | .ok tokens => Glob.isMatch tokens name
  | .error _ => false

/-- The error of a rule without a valid pattern. -/
def error? (r : ThreadRule) : Option EngineError :=
  match Glob.parse r.pattern with
  | .ok _ => none
  | .error e =>
    some (.invalidConfig ("thread_as_task pattern " ++ Text.quote r.pattern ++ ": " ++ e.message))

end ThreadRule

/-- Which named threads run as tasks. -/
structure ThreadPolicy where
  /-- The decision where no rule applies. -/
  enabled : Bool := false
  rules : List ThreadRule := []
deriving DecidableEq, Repr, Inhabited

namespace ThreadPolicy

/-- Takes one more applying rule into account: `best` is the greatest specificity so far and the
decision of the rules that have it. -/
def weigh (best : Option (Nat × Bool)) (r : ThreadRule) : Option (Nat × Bool) :=
  match best with
  | none => some (r.specificity, r.asTask)
  | some (s, decision) =>
    if s < r.specificity then some (r.specificity, r.asTask)
    else if r.specificity = s then some (s, decision && r.asTask)
    else some (s, decision)

/-- Whether a thread with this name runs as a task. -/
def decides (p : ThreadPolicy) (name : String) : Bool :=
  match (p.rules.filter (·.appliesTo name)).foldl weigh none with
  | none => p.enabled
  | some (_, decision) => decision

/-- The first rule without a valid pattern is an error. -/
def validate (p : ThreadPolicy) : Except EngineError Unit :=
  match p.rules.findSome? (·.error?) with
  | none => .ok ()
  | some e => .error e

end ThreadPolicy

end GreenThreads

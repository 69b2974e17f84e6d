import GreenThreads.ThreadPolicy

/-!
# Configuration

Every setting has a default. A configuration is valid if its numbers are within their limits and
the patterns of its thread policy can be read.
-/

namespace GreenThreads

/-- Where submitted work is put. -/
inductive Placement where
  /-- Onto the carrier with the shortest queue; tasks stay on their carrier. -/
  | push
  /-- Into one queue from which idle carriers take, and idle carriers steal from others. -/
  | pull
deriving DecidableEq, Repr, Inhabited

namespace Placement

/-- The placement unless another one is asked for. -/
def standard : Placement := pull

/-- The written form. -/
def text : Placement → String
  | push => "push"
  | pull => "pull"

/-- The name in descriptions. -/
def describe : Placement → String
  | push => "Push"
  | pull => "Pull"

end Placement

/-- The rules that a configuration can break. -/
inductive ConfigFault where
  | unknownPlacement (text : String)
  | tooManyWorkers (workers : Nat)
  | stackTooSmall (bytes : Nat)
  | noStealRetry
  | noPushRetry
  /-- A number is too large for the written form. -/
  | outOfRange
deriving DecidableEq, Repr

namespace ConfigFault

/-- The largest number of carriers. -/
def maxWorkers : Nat := 1024

/-- The smallest stack, in bytes. -/
def minStack : Nat := 16384

/-- The text of a broken rule. -/
def message : ConfigFault → String
  | unknownPlacement text =>
    "Unknown scheduling policy '" ++ text ++ "', expected push or pull"
  | tooManyWorkers n =>
    "worker_threads must be at most " ++ toString maxWorkers ++ ", got " ++ toString n
  | stackTooSmall n =>
    "stack_size must be at least " ++ toString minStack ++ " bytes, got " ++ toString n
  | noStealRetry => "steal_retry must be at least 1"
  | noPushRetry => "push_retry must be at least 1"
  | outOfRange => "out-of-range value for u64 type"

/-- A broken rule as an error of the engine. -/
def toError (f : ConfigFault) : EngineError := .invalidConfig f.message

end ConfigFault

/-- The text with the capital letters from A to Z made small. -/
def asciiLower (s : String) : String := String.ofList (s.toList.map Char.toLower)

/-- Reads a placement; capitals do not matter. -/
def Placement.ofText (s : String) : Except EngineError Placement :=
  match asciiLower s with
  | "push" => .ok push
  | "pull" => .ok pull
  | other => .error (ConfigFault.unknownPlacement other).toError

/-- The settings of an engine. -/
structure Config where
  /-- The number of carriers; zero asks for one per processor. -/
  workers : Nat := 0
  /-- How many idle tasks each carrier keeps. -/
  carrierCache : Nat := 64
  /-- How many idle tasks the engine keeps beside that. -/
  globalCache : Nat := 1024
  /-- How often a carrier tries for a task that is locked. -/
  stealRetry : Nat := 4
  /-- How many carriers are compared when work is pushed. -/
  pushRetry : Nat := 4
  placement : Placement := .standard
  /-- Deadlines are kept by a thread of their own. -/
  preciseTimer : Bool := false
  /-- Timed parks shorter than this many nanoseconds only yield. -/
  minPark : Nat := 0
  /-- The stack of each task, in bytes. -/
  stackSize : Nat := 262144
  threadPolicy : ThreadPolicy := {}
deriving DecidableEq, Repr, Inhabited

namespace Config

/-- The first broken rule is an error. -/
def validate (c : Config) : Except EngineError Unit :=
  if ConfigFault.maxWorkers < c.workers then
    .error (ConfigFault.tooManyWorkers c.workers).toError
  else if c.stackSize < ConfigFault.minStack then
    .error (ConfigFault.stackTooSmall c.stackSize).toError
  else if c.stealRetry = 0 then .error ConfigFault.noStealRetry.toError
  else if c.pushRetry = 0 then .error ConfigFault.noPushRetry.toError
  else c.threadPolicy.validate

/-- The number of carriers that a machine with so many processors starts. -/
def effectiveWorkers (c : Config) (processors : Nat) : Nat :=
  if c.workers = 0 then max 1 processors else c.workers

end Config

end GreenThreads

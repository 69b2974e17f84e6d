import GreenThreads.Command.Directory
import GreenThreads.Command.Workload
import GreenThreads.Config.Text

/-!
# The command line

What each request prints, and the code that it ends with: 0 if all went well, 1 if something
failed, and 2 if the arguments were wrong.
-/

namespace GreenThreads.Command

/-- What a command leaves behind. -/
structure Output where
  code : Nat
  /-- The printed lines. -/
  lines : List String := []
  /-- What is printed where errors go. -/
  complaint : String := ""
deriving DecidableEq, Repr

/-- Something that failed, and what was behind it. -/
structure Failure where
  text : String
  causes : List String := []
deriving DecidableEq, Repr

namespace Failure

/-- A text with its lines after the first moved to the right. -/
def hanging (width : Nat) (text : String) : String :=
  text.replace "\n" ("\n" ++ String.ofList (List.replicate width ' '))

/-- The causes of a failure; several are numbered. -/
def causeText : List String → String
  | [] => ""
  | [c] => "\n\nCaused by:\n    " ++ hanging 4 c
  | cs => "\n\nCaused by:" ++ String.join
      (cs.mapIdx fun i c =>
        "\n" ++ String.ofList (List.replicate (5 - (toString i).length) ' ') ++ toString i ++ ": "
          ++ hanging 7 c)

/-- The report on a failure. -/
def message (f : Failure) : String := "Error: " ++ f.text ++ causeText f.causes ++ "\n"

/-- An error of the engine. -/
def ofError (e : EngineError) : Failure := { text := e.message, causes := e.cause?.toList }

/-- What an error of the engine made fail. -/
def inContext (text : String) (e : EngineError) : Failure :=
  { text, causes := e.message :: e.cause?.toList }

/-- What a failed command leaves behind. -/
def output (f : Failure) : Output := { code := 1, complaint := f.message }

end Failure

/-! ## Texts -/

/-- The name and the version of the program. -/
def versionLine : String := "skein 0.2.0"

/-- How the program is used. -/
def usageLines : List String :=
  ["Usage: skein <COMMAND>", "", "Commands:", "  run     Run a synthetic workload",
    "  config  Show or check a configuration"]

/-- A duration with two places, in the largest unit of which it is at least one. -/
def durationText (n : Nat) : String :=
  let (unit, scale) :=
    if 1000000000 ≤ n then ("s", 1000000000)
    else if 1000000 ≤ n then ("ms", 1000000)
    else if 1000 ≤ n then ("µs", 1000)
    else ("ns", 1)
  let hundredths := (200 * n + scale) / (2 * scale)
  let part := hundredths % 100
  toString (hundredths / 100) ++ "." ++ (if part < 10 then "0" else "") ++ toString part ++ unit

/-- The report on a workload. -/
def workloadLines (r : World.Report Unit) : List String :=
  let t := Tally.ofLog r.log
  let s := r.snapshot.stats
  let reused := s.localCacheHits.toNat + s.globalCacheHits.toNat + s.stolenCacheHits.toNat
  ["Finished in " ++ durationText (r.ended - World.epoch).toInt.toNat,
    "  tasks:    " ++ toString t.completed ++ " completed, " ++ toString t.cancelled
      ++ " cancelled, " ++ toString t.panicked ++ " panicked",
    "  contexts: " ++ toString s.contextsCreated ++ " created, " ++ toString reused ++ " reused ("
      ++ toString s.localCacheHits ++ " local, " ++ toString s.globalCacheHits ++ " global, "
      ++ toString s.stolenCacheHits ++ " stolen), " ++ toString s.cacheDiscards ++ " discarded",
    "  steals:   " ++ toString s.stealSuccesses ++ " ok, " ++ toString s.stealFailures
      ++ " failed, " ++ toString s.switchFailures ++ " switch retries",
    "  timers:   " ++ toString s.timersArmed ++ " armed, " ++ toString s.timersFired
      ++ " fired, " ++ toString s.timersCancelled ++ " cancelled",
    "  quota:    " ++ toString s.quotaThrottles ++ " throttles, "
      ++ durationText s.freeRunning.toNat ++ " free-running"]

/-- The report on a configuration file. -/
def checkLines (file : String) (c : Config) (processors : Nat) : List String :=
  [file ++ ": ok",
    "  carriers:     " ++ toString (c.effectiveWorkers processors),
    "  policy:       " ++ c.placement.text,
    "  precise:      " ++ toString c.preciseTimer,
    "  stack size:   " ++ toString (c.stackSize / 1024) ++ " KiB",
    "  caches:       " ++ toString c.carrierCache ++ " per carrier, " ++ toString c.globalCache
      ++ " global"]

/-- The lines of a text that ends each of them. -/
def linesOf (text : String) : List String :=
  match (text.splitOn "\n").reverse with
  | "" :: rest => rest.reverse
  | all => all.reverse

/-! ## Requests -/

/-- The configuration in a file, given what reading the file gave. -/
def load (file : String) (content : Except ReadFailure String) : Except Failure Config :=
  let config : Except EngineError Config :=
    match content with
    | .ok text => Config.ofText text
    | .error f => .error (.configRead f.message)
  config.mapError (Failure.inContext ("invalid config " ++ file))

/-- Runs a workload. -/
def runWorkload (o : RunOptions) (processors : Nat) (content : Except ReadFailure String) :
    Except Failure (List String) := do
  let base ← match o.config with
    | some file => load file content
    | none => pure {}
  let config := o.adjust base
  config.validate.mapError Failure.ofError
  let groups ← o.workload.groups.mapError (Failure.inContext "invalid quota")
  let engine ← (Engine.start config processors groups .absent).mapError
    (Failure.inContext "failed to start engine")
  return workloadLines (o.workload.run engine)

/-- What a request prints; `none` stands for wrong arguments. `content` is what reading its
configuration file gave, if it has one. -/
def respond (request : Option Request) (processors : Nat) (content : Except ReadFailure String) :
    Output :=
  let printed : Except Failure (List String) → Output
    | .ok lines => { code := 0, lines }
    | .error f => f.output
  match request with
  | none =>
    { code := 2
      complaint := String.intercalate "\n" ("error: wrong arguments" :: usageLines) ++ "\n" }
  | some .version => { code := 0, lines := [versionLine] }
  | some .help => { code := 0, lines := usageLines }
  | some .showConfig =>
    printed (({} : Config).toText.mapError Failure.ofError |>.map linesOf)
  | some (.checkConfig file) =>
    printed ((load file content).map fun c => checkLines file c processors)
  | some (.run o) => printed (runWorkload o processors content)

end GreenThreads.Command

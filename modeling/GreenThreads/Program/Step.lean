import GreenThreads.Engine.Basic

/-!
# Programs

A program is what a piece of work does: a list of steps. Programs share a board of names, under
which the handles of submitted work are kept and under which running programs make themselves known.
Steps that have an answer log it.
-/

namespace GreenThreads

/-- One step of a program whose values are in `V`. Times are in microseconds. -/
inductive Step (V : Type) where
  /-- Log a value. -/
  | log (x : V)
  /-- End the program with a value. -/
  | endWith (x : V)
  /-- Fail. -/
  | fail (u : Unwind)
  /-- Do the body several times. -/
  | again (n : Nat) (body : List (Step V))
  /-- Do the body, and stop its failures and its values here. -/
  | attempt (body : List (Step V))
  /-- Submit the program `script` and keep its handle under `key`. -/
  | submit (key script name : String)
  /-- The same for a program that is to run in a control group. -/
  | submitIn (key script name : String) (group : GroupId)
  /-- The same for blocking work, which may get a thread instead of a task. -/
  | spawnThread (key script name : String)
  /-- Wait for a piece of work and take its result, and give up the handle. -/
  | join (key : String)
  /-- Wait for a piece of work for some time, and take its result if it is over. -/
  | joinTimeout (key : String) (micros : Nat)
  /-- Ask a handle how far the work is. -/
  | finished (key : String)
  /-- Cancel work by its handle. -/
  | cancel (key : String)
  /-- Cancel whatever runs on the task of a program. -/
  | cancelId (key : String)
  /-- Unpark a program. -/
  | unpark (key : String)
  /-- Look at the task of a program. -/
  | peek (key : String)
  /-- Ask whether two programs ran on the same task. -/
  | sameTask (a b : String)
  /-- Ask what the program runs on. -/
  | whereabouts
  /-- Let the others of the carrier go first. -/
  | yieldNow
  /-- Wait for an unpark. -/
  | park
  /-- Wait for an unpark for some time. -/
  | parkTimeout (micros : Nat)
  | sleep (micros : Nat)
  /-- Be busy. -/
  | spin (micros : Nat)
  /-- Do the body in a critical section. -/
  | critical (body : List (Step V))
  /-- Wait for a channel. -/
  | waitReady (channel : Channel) (interest : Interest) (micros : Option Nat)
  /-- Signal a channel. -/
  | signal (channel : Channel) (interest : Interest)
  /-- Ask how many tasks the pump knows. -/
  | registered
  /-- Do the body in a control group. -/
  | groupRun (group : GroupId) (body : List (Step V))
  /-- Look at a control group. -/
  | group (group : GroupId)
  /-- Join a control group. -/
  | attach (group : GroupId)
  /-- Leave a control group. -/
  | detach (group : GroupId)
  /-- Cancel the members of a group and wait until they are gone. -/
  | groupDestroy (group : GroupId) (micros : Nat)
  /-- Put the task of a program into a run queue. -/
  | wake (key : String)
  /-- Arm a timeout for the task of a program. -/
  | arm (key : String) (micros : Nat) (action : TimeoutAction)
  /-- Disarm the timeout of the task of a program. -/
  | cancelTimeout (key : String)
  /-- Take no more work and end once all is over. -/
  | shutdown
  /-- Ask for an end at once, which is refused. -/
  | shutdownNow
  /-- Look at the engine. -/
  | engine
  /-- Look at the counters. -/
  | stats
  /-- A step that does not exist. -/
  | unknown (name : String)

instance {V : Type} : Inhabited (Step V) := ⟨.yieldNow⟩

/-- The word under which the answer of a step is logged. -/
def Step.label {V : Type} : Step V → String
  | log _ => "log"
  | endWith _ => "return"
  | fail _ => "panic"
  | again _ _ => "repeat"
  | attempt _ => "catch"
  | submit _ _ _ => "submit"
  | submitIn _ _ _ _ => "submit_in"
  | spawnThread _ _ _ => "spawn_thread"
  | join _ => "join"
  | joinTimeout _ _ => "join_timeout"
  | finished _ => "finished"
  | cancel _ => "cancel"
  | cancelId _ => "cancel_id"
  | unpark _ => "unpark"
  | peek _ => "peek"
  | sameTask _ _ => "same_task"
  | whereabouts => "where"
  | yieldNow => "yield"
  | park => "park"
  | parkTimeout _ => "park_timeout"
  | sleep _ => "sleep"
  | spin _ => "spin"
  | critical _ => "critical"
  | waitReady _ _ _ => "wait_io"
  | signal _ _ => "signal"
  | registered => "registered"
  | groupRun _ _ => "group_run"
  | group _ => "group"
  | attach _ => "attach"
  | detach _ => "detach"
  | groupDestroy _ _ => "group_destroy"
  | wake _ => "wake"
  | arm _ _ _ => "arm"
  | cancelTimeout _ => "cancel_timeout"
  | shutdown => "shutdown"
  | shutdownNow => "shutdown_now"
  | engine => "engine"
  | stats => "stats"
  | unknown name => name

/-- What a step needs and does not find. -/
inductive Missing where
  /-- Nobody keeps a handle under that name, or it is in use. -/
  | handle
  /-- No task has run under that name. -/
  | task
  /-- Nobody has made itself known under that name. -/
  | unparker
deriving DecidableEq, Repr

/-- The text of what is missing. -/
def Missing.text : Missing → String
  | handle => "no handle"
  | task => "no task"
  | unparker => "no unparker"

/-- The counters of an engine together with its two gauges. -/
structure Snapshot where
  stats : Stats
  outstanding : UInt64
  live : Nat

/-- The answer of a step. -/
inductive Answer (V : Type) where
  | nothing
  | value (x : V)
  | flag (b : Bool)
  | flags (bs : List Bool)
  | number (n : Nat)
  | text (s : String)
  | missing (m : Missing)
  | error (e : EngineError)
  /-- The value of a program, if it ended with one, or why there is none. -/
  | result (r : Except JoinError (Option V))
  /-- A task, and whether a timeout is armed for it. -/
  | task (t : Task) (hasTimeout : Bool)
  | group (g : ControlGroup)
  | snapshot (s : Snapshot)
  /-- The step does not exist. -/
  | unknown (name : String)

/-- An entry of the log of a program. -/
inductive Entry (V : Type) where
  | started
  | answered (label : String) (a : Answer V)
  /-- It ended by itself. -/
  | done
  /-- It was unwound. -/
  | unwound

/-- The state of an engine's counters. -/
def Engine.snapshot {V : Type} (e : Engine V) : Snapshot :=
  { stats := e.stats, outstanding := e.outstanding, live := e.live.length }

end GreenThreads

import GreenThreads.Carrier
import GreenThreads.Config.Basic
import GreenThreads.Join
import GreenThreads.Quota.Group
import GreenThreads.Stats

/-!
# The state of an engine

An engine runs pieces of work on tasks and tasks on carriers. Here are its state and the access to
its parts; what happens to the state is defined in the modules beside this one.

The faults that were met are kept in the state. An engine that is driven by its own rules meets
none.
-/

namespace GreenThreads

/-- Which carriers are drawn by lot where the choice is left to chance: any draws are possible. What
is drawn counts carriers, beginning again with the first one after the last one. -/
structure Draws where
  /-- How far after itself a carrier begins to look for a task in the pools of the others. -/
  pools : Nat := 0
  /-- How far after itself a carrier looks for an entry in the run queue of another one, at each
  attempt. -/
  queues : Nat → Nat := id
  /-- Which carriers are compared before work is pushed to one of them. -/
  targets : Nat → Nat := id

/-- An engine whose pieces of work have values in `V`. -/
structure Engine (V : Type) where
  config : Config
  carriers : Array Carrier
  /-- The run queue that all carriers share, oldest entry first. -/
  shared : List Runnable := []
  /-- The pool that all carriers share. -/
  pool : Pool
  /-- All tasks ever made, by number. -/
  tasks : Array Task := #[]
  /-- The tasks that have work, in the order in which they were given it. -/
  live : List TaskId := []
  /-- The cells of all work ever accepted, by number. -/
  jobs : Array (Join V) := #[]
  groups : Array ControlGroup := #[]
  pump : EventPump := .absent
  /-- How many tasks are registered for a channel. -/
  ioWaiters : UInt64 := 0
  /-- The timeouts that are kept apart from the carriers. -/
  precise : TimerQueue
  /-- The work that was submitted and is not over. -/
  outstanding : UInt64 := 0
  /-- New work is accepted. -/
  accepting : Bool := true
  /-- The engine is being drained: tasks stay on their carriers. -/
  draining : Bool := false
  /-- The carriers end as soon as they find nothing to do. -/
  terminated : Bool := false
  /-- How many carriers have not ended. -/
  running : Nat
  stats : Stats := {}
  /-- What is drawn from now on. -/
  draws : Draws := {}
  /-- The faults that were met, last first. -/
  faults : List Fault := []

namespace Engine

variable {V : Type}

/-- The owner number of the timeouts that are kept apart from the carriers. -/
def preciseOwner : Nat := 18446744073709551615

/-- An engine for a valid configuration, with its carriers idle. -/
def start (config : Config) (processors : Nat) (groups : List ControlGroup) (pump : EventPump) :
    Except EngineError (Engine V) :=
  config.validate.map fun _ =>
    let workers := config.effectiveWorkers processors
    { config
      carriers := Array.ofFn fun i : Fin workers => Carrier.make i config.carrierCache
      pool := { capacity := config.globalCache }
      groups := groups.toArray
      pump
      precise := { owner := preciseOwner }
      running := workers }

/-! ## Access -/

/-- Counts an event. -/
def count (e : Engine V) (c : Counter) : Engine V := { e with stats := e.stats.bump c }

/-- Notes a fault. -/
def blame (e : Engine V) (f : Fault) : Engine V := { e with faults := f :: e.faults }

/-- Notes a fault, if there was one. -/
def blameIf (e : Engine V) : Option Fault → Engine V
  | some f => e.blame f
  | none => e

/-- Draws anew. -/
def redraw (e : Engine V) (draws : Draws) : Engine V := { e with draws }

/-- The task with a given id. -/
def task? (e : Engine V) (t : TaskId) : Option Task := e.tasks[t.index]?

/-- Changes a task. -/
def updateTask (e : Engine V) (t : TaskId) (f : Task → Task) : Engine V :=
  { e with tasks := e.tasks.modify t.index f }

/-- Changes a carrier. -/
def updateCarrier (e : Engine V) (c : Nat) (f : Carrier → Carrier) : Engine V :=
  { e with carriers := e.carriers.modify c f }

/-- Changes a control group. -/
def updateGroup (e : Engine V) (g : GroupId) (f : ControlGroup → ControlGroup) : Engine V :=
  { e with groups := e.groups.modify g f }

/-- Changes the cell of a piece of work. -/
def updateJob (e : Engine V) (j : JobId) (f : Join V → Join V) : Engine V :=
  { e with jobs := e.jobs.modify j f }

/-- Makes a task that has never had work. -/
def makeTask (e : Engine V) : Engine V × TaskId :=
  let t : TaskId := ⟨e.tasks.size⟩
  ({ e with tasks := e.tasks.push (Task.fresh t) }, t)

/-- Makes the cell for a new piece of work. -/
def makeJob (e : Engine V) : Engine V × JobId :=
  ({ e with jobs := e.jobs.push {} }, e.jobs.size)

/-- The task that a carrier runs. -/
def current? (e : Engine V) (c : Nat) : Option TaskId := e.carriers[c]?.bind (·.current)

/-- Whether the task that a carrier runs is in a critical section. -/
def inCritical (e : Engine V) (c : Nat) : Bool := (e.carriers[c]?.map (·.inCritical)).getD false

/-- Whether every carrier has ended. -/
def isTerminated (e : Engine V) : Bool := e.terminated && e.running == 0

/-- The engine in one line. -/
def describe (e : Engine V) : String :=
  "Engine \x7b workers: " ++ toString e.carriers.size ++ ", policy: "
    ++ e.config.placement.describe ++ ", shutdown: " ++ toString (!e.accepting)
    ++ ", terminated: " ++ toString e.isTerminated ++ " \x7d"

@[simp] theorem tasks_count (e : Engine V) (c : Counter) : (e.count c).tasks = e.tasks := rfl

@[simp] theorem tasks_updateCarrier (e : Engine V) (c : Nat) (f : Carrier → Carrier) :
    (e.updateCarrier c f).tasks = e.tasks := rfl

@[simp] theorem carriers_updateTask (e : Engine V) (t : TaskId) (f : Task → Task) :
    (e.updateTask t f).carriers = e.carriers := rfl

end Engine

end GreenThreads

import GreenThreads.Pool
import GreenThreads.Timer.Queue

/-!
# Carriers

A carrier is a thread that runs tasks, one at a time. It has a run queue, a pool of idle tasks and
a timer queue of its own, and it knows how deeply the running task is nested in critical sections,
in which the task must not give its carrier away.
-/

namespace GreenThreads

/-- A piece of work that waits for a task. -/
structure Submission where
  job : JobId
  /-- The name that the task gets. -/
  name : String
  /-- The control group that the task joins. -/
  group : Option GroupId := none
deriving DecidableEq, Repr

/-- An entry of a run queue. -/
inductive Runnable where
  /-- Work that has no task yet. -/
  | start (submission : Submission)
  /-- A task that goes on. -/
  | resume (task : TaskId)
deriving DecidableEq, Repr

/-- What a carrier is doing. -/
inductive CarrierState where
  /-- It looks for work or waits for it. -/
  | idle
  /-- It runs a task. -/
  | running
  /-- It has ended. -/
  | terminated
deriving DecidableEq, Repr

/-- The name of a state in descriptions. -/
def CarrierState.describe : CarrierState → String
  | idle => "Idle"
  | running => "Running"
  | terminated => "Terminated"

/-- A thread that runs tasks. -/
structure Carrier where
  /-- Its number, which is also the owner number of its timer queue. -/
  index : Nat
  /-- The run queue, oldest entry first. -/
  queue : List Runnable := []
  pool : Pool
  timers : TimerQueue
  /-- How many critical sections the running task is in. -/
  critical : UInt64 := 0
  /-- The task that runs; none while the carrier itself is at work. -/
  current : Option TaskId := none
  /-- A task that yielded and is woken once it has switched out. -/
  deferred : Option TaskId := none
  /-- Precise timeouts of the running task, which become pending once it has switched out. -/
  pendingPrecise : List Nat := []
  state : CarrierState := .idle
deriving Repr

namespace Carrier

/-- A carrier that has nothing to do yet. -/
def make (index capacity : Nat) : Carrier :=
  { index, pool := { capacity }, timers := { owner := index } }

/-- Appends an entry to the run queue. -/
def enqueue (c : Carrier) (r : Runnable) : Carrier := { c with queue := c.queue ++ [r] }

/-- Takes the oldest entry of the run queue. -/
def dequeue? (c : Carrier) : Option (Runnable × Carrier) :=
  match c.queue with
  | [] => none
  | r :: rest => some (r, { c with queue := rest })

/-- Whether the running task is in a critical section. -/
def inCritical (c : Carrier) : Bool := c.critical != 0

/-- Enters a critical section. -/
def enterCritical (c : Carrier) : Carrier := { c with critical := c.critical + 1 }

/-- Leaves a critical section. Leaving one that was not entered is a fault, and the depth wraps
around. -/
def exitCritical (c : Carrier) : Carrier × Option Fault :=
  ({ c with critical := c.critical - 1 }, if c.critical = 0 then some .unbalancedCritical else none)

/-- Makes a timeout and puts it into the timer queue of the carrier. -/
def addTimeout (c : Carrier) (task : TaskId) (now deadline : Nanos) (action : TimeoutAction) :
    Carrier × Nat :=
  let (timers, k) := c.timers.create (Timeout.make task now deadline action c.timers.owner)
  ({ c with timers := (timers.insert k).toOption.getD timers }, k)

/-- Wakes a task once it has switched out. -/
def deferWake (c : Carrier) (t : TaskId) : Carrier := { c with deferred := some t }

/-- The carrier in one line. -/
def describe (c : Carrier) : String :=
  "Carrier \x7b index: " ++ toString c.index ++ ", state: " ++ c.state.describe
    ++ ", queue_len: " ++ toString c.queue.length ++ ", cache: " ++ c.pool.describe
    ++ ", timers: " ++ c.timers.describe ++ " \x7d"

@[simp] theorem critical_enterCritical (c : Carrier) :
    c.enterCritical.critical = c.critical + 1 := rfl

end Carrier

end GreenThreads

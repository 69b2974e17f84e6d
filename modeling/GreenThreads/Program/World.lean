import GreenThreads.Bystander
import GreenThreads.Engine.Dispatch
import GreenThreads.Engine.Submission
import GreenThreads.Program.Step

/-!
# Worlds

A world is an engine together with the programs that run on it: on its tasks, and on threads beside
it. A running program is a strand, which consists of what it does now and of a stack of frames that
say how it goes on. Time is simulated: each carrier and each thread has a lane that says when it
acts next.
-/

namespace GreenThreads

/-- Who speaks in the log. -/
inductive Voice where
  /-- The main program. -/
  | main
  /-- A submitted program, by its key. -/
  | program (key : String)
  /-- Nobody: nothing is logged. -/
  | silent
deriving DecidableEq, Repr

/-- How a strand goes on when what it does now is over. -/
inductive Frame (V : Type) where
  /-- With more steps. -/
  | rest (steps : List (Step V))
  /-- With the body, that many times. -/
  | again (n : Nat) (body : List (Step V))
  /-- After an attempt. -/
  | attempt
  /-- By leaving a critical section of a carrier. -/
  | critical (carrier : Nat)
  /-- By leaving a control group. -/
  | inGroup (group : GroupId)
  /-- By checking whether it may go on, after it gave its carrier away. -/
  | resumed
  /-- By ending a park for which it gave its carrier away. -/
  | parked (axis : Axis) (timed : Bool)
  /-- By ending a park in which it blocked its carrier. -/
  | blocked (axis : Axis) (armed : Bool)
  /-- By ending a park of a thread. -/
  | threadParked
  /-- By sleeping on, if the deadline is not reached. -/
  | sleeping (deadline : Nanos)
  /-- By waiting on for a piece of work, if it is not over. -/
  | joining (job : JobId) (deadline : Option Nanos)
  /-- By telling what it has seen of a channel. -/
  | waitingReady
  /-- By waiting on for the members of a group. -/
  | destroying (group : GroupId) (cancelled : Nat) (deadline : Nanos)
  /-- By draining on. -/
  | draining
  /-- By shutting the engine down once all is quiet. -/
  | settling (leave : Bool)

/-- What a strand does now. -/
inductive Control (V : Type) where
  /-- It takes these steps. -/
  | steps (steps : List (Step V))
  /-- It goes back to its topmost frame. -/
  | back
  /-- It has ended with a value. -/
  | value (v : Option V)
  /-- It is being unwound. -/
  | unwind (u : Unwind)

/-- A running program. -/
structure Strand (V : Type) where
  voice : Voice
  control : Control V
  frames : List (Frame V) := []

/-- The strand will go on with this frame. -/
def Strand.push {V : Type} (s : Strand V) (f : Frame V) : Strand V :=
  { s with frames := f :: s.frames }

/-- What a piece of work does. -/
inductive Body (V : Type) where
  | program (key : String) (steps : List (Step V))
  /-- It drains the engine. -/
  | drain

/-- What a carrier or a thread waits for. -/
inductive Wait where
  /-- Until the axis that it parks on natively is released. -/
  | released (axis : Axis)
  /-- Until a piece of work is over. -/
  | done (job : JobId)
  /-- Until a carrier finds something to do. -/
  | work
  /-- Until the event pump has something to say. -/
  | events
deriving DecidableEq, Repr

/-- When a carrier or a thread acts next, and what it waits for until then. -/
structure Lane where
  /-- The time at which it acts; `none` if only others can make it act. -/
  readyAt : Option Nanos
  wait : Option Wait := none
deriving Repr

/-- A thread beside the engine. -/
structure Thread (V : Type) where
  /-- The piece of work that it runs; none for the main program. -/
  job : Option JobId
  strand : Option (Strand V)
  outside : Bystander := {}
  lane : Lane

/-- An engine with the programs on it. -/
structure World (V : Type) where
  engine : Engine (Option V)
  /-- The time of the present action. -/
  now : Nanos
  /-- The programs that can be submitted, by name. -/
  scripts : List (String × List (Step V))
  /-- What each piece of work does, by number. -/
  bodies : Array (Body V) := #[]
  /-- The strands of the tasks, by number. -/
  strands : Array (Option (Strand V)) := #[]
  threads : Array (Thread V)
  /-- The lanes of the carriers. -/
  lanes : Array Lane
  /-- The handles that are kept, by key. -/
  handles : List (String × JobId) := []
  /-- The work that somebody is waiting for with a handle that is still kept. -/
  inUse : List JobId := []
  /-- How to wake the programs that have started, by key. -/
  starts : List (String × Unparker) := []
  /-- The log, last entry first. -/
  log : List (Voice × Entry V) := []
  /-- All work was over before the shutdown, or nobody waited for that. -/
  quiet : Bool := false

/-- On what a strand runs. -/
inductive Host where
  | thread (number : Nat)
  /-- A task, and the carrier that runs it. -/
  | task (task : TaskId) (carrier : Nat)
deriving DecidableEq, Repr

/-- The task among hosts. -/
def Host.task? : Host → Option TaskId
  | task t _ => some t
  | thread _ => none

/-- What becomes of a strand after an action. -/
inductive Pace where
  /-- It goes on after that time. -/
  | busy (cost : Nanos)
  /-- It blocks its thread or its carrier, until the deadline at most. -/
  | wait (what : Wait) (deadline : Option Nanos)
  /-- It has given its carrier away. -/
  | away
  /-- It is over. -/
  | over
deriving Repr

namespace World

variable {V : Type}

/-! ## Costs of the simulation -/

/-- The time that an ordinary action takes. -/
def tick : Nanos := 500

/-- The time that a carrier takes to switch to a task and back. -/
def switchCost : Nanos := 5000

/-- The time after which somebody who is woken, or whose deadline is reached, acts. -/
def latency : Nanos := 60000

/-- The time between two looks of somebody who looks again and again. -/
def pollInterval : Nanos := 1000000

/-! ## Access -/

/-- Changes the engine. -/
def onEngine (w : World V) (f : Engine (Option V) → Engine (Option V)) : World V :=
  { w with engine := f w.engine }

/-- Adds to the log. -/
def record (w : World V) (v : Voice) (x : Entry V) : World V :=
  match v with
  | .silent => w
  | .main | .program _ => { w with log := (v, x) :: w.log }

/-- Logs the answer of a step. -/
def answer (w : World V) (s : Strand V) (label : String) (a : Answer V) : World V :=
  w.record s.voice (.answered label a)

/-- The handle kept under a key. -/
def handle? (w : World V) (key : String) : Option JobId := w.handles.lookup key

/-- Keeps a handle under a key, in the place of an earlier one. -/
def keep (w : World V) (key : String) (job : JobId) : World V :=
  { w with handles := (key, job) :: w.handles.filter (·.1 != key) }

/-- Gives the handle under a key up. -/
def giveUp (w : World V) (key : String) : World V :=
  { w with handles := w.handles.filter (·.1 != key) }

/-- The task on which the program with a key has last started. -/
def taskOf? (w : World V) (key : String) : Option Task :=
  ((w.starts.lookup key).bind (·.task?)).bind w.engine.task?

/-- Wakes a thread or a task. -/
def unpark (w : World V) : Unparker → World V
  | .task waker => w.onEngine (·.useWaker w.now waker)
  | .thread n =>
    { w with threads := w.threads.modify n fun x => { x with outside := x.outside.unpark } }

/-- A waker for one axis of a task in its present incarnation. -/
def waker (w : World V) (t : TaskId) (axis : Axis) : Waker :=
  { task := t, generation := ((w.engine.task? t).map (·.generation)).getD 0, axis }

/-- The program with a given name; one that does not exist does nothing. -/
def script (w : World V) (name : String) : List (Step V) := (w.scripts.lookup name).getD []

/-- Stores what a new piece of work does. -/
def addBody (w : World V) (b : Body V) : World V := { w with bodies := w.bodies.push b }

/-- Begins a shutdown. -/
def shutdown (w : World V) (h : Host) : World V :=
  let (engine, job) := w.engine.shutdown h.task?
  let w := { w with engine }
  if job.isSome then w.addBody .drain else w

/-! ## Beginning and ending strands -/

/-- The strand of a piece of work that starts on a host. -/
def begin (w : World V) (h : Host) (job : JobId) : World V × Strand V :=
  match w.bodies[job]? with
  | some (.program key steps) =>
    let unparker : Unparker := match h with
      | .thread n => .thread n
      | .task t _ =>
        .task (w.waker t .user)
    let w := { w with starts := (key, unparker) :: w.starts.filter (·.1 != key) }
    (w.record (.program key) .started, { voice := .program key, control := .steps steps })
  | some .drain | none => (w, { voice := .silent, control := .back, frames := [.draining] })

/-- A strand is over: its work is completed, and its task is free for other work. -/
def conclude (w : World V) (h : Host) (voice : Voice) (job : Option JobId)
    (outcome : Except Unwind (Option V)) : World V :=
  let w := w.record voice (match outcome with
    | .ok _ => .done
    | .error _ => .unwound)
  let w := match job with
    | some j => w.onEngine (·.finishJob w.now j outcome)
    | none => w
  match h with
  | .thread _ => w
  | .task t c => w.onEngine (·.exit w.now c t)

end World

end GreenThreads

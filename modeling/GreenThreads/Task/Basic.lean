import GreenThreads.Timer.Timeout
import GreenThreads.Error
import GreenThreads.Readiness
import GreenThreads.Text.Quoted

/-!
# Tasks

A task carries one piece of work after another. Each piece of work is an incarnation with a
generation of its own, and handles to earlier incarnations have no effect on later ones.
-/

namespace GreenThreads

/-- The life of a task. -/
inductive Status where
  /-- It has work, running or to be run. -/
  | alive
  /-- It has no work and can be given some. -/
  | cached
  /-- It was destroyed. -/
  | dead
deriving DecidableEq, Repr, Inhabited

/-- The name of a status in descriptions. -/
def Status.describe : Status → String
  | alive => "Alive"
  | cached => "Cached"
  | dead => "Dead"

/-- The stack that a task runs on. -/
inductive TaskContext where
  /-- There is none. -/
  | absent
  /-- It waits to be resumed. -/
  | suspended
  /-- It has come to its end. -/
  | exited
deriving DecidableEq, Repr, Inhabited

/-- The number that stands for a control group. -/
abbrev GroupId := Nat

/-- The number of a piece of work. -/
abbrev JobId := Nat

/-- A timeout: the queue that it belongs to and its number there. -/
structure TimeoutRef where
  owner : Nat
  number : Nat
deriving DecidableEq, Repr

/-- A unit of execution that outlives the pieces of work it carries. -/
structure Task where
  id : TaskId
  status : Status := .cached
  /-- The name given with the present work. -/
  name : String := ""
  /-- How many times the task was given work: fewer than `2 ^ 64` times, so that no number comes up
  again in 64 bits. -/
  generation : Nat := 0
  /-- The carrier that the task belongs to. -/
  carrier : Option Nat := none
  /-- A carrier is switching to the task or runs it, so it must not be moved. -/
  locked : Bool := false
  /-- An entry for the task is in some run queue. -/
  enqueued : Bool := false
  /-- How many times the task moved to another carrier. -/
  stolen : Nat := 0
  user : Parker := .free
  internal : Parker := .free
  /-- Cancellation was requested for the present work. -/
  cancelled : Bool := false
  /-- The cancellation has unwound the present work. -/
  delivered : Bool := false
  /-- The context was thrown away while it was suspended. -/
  discarded : Bool := false
  /-- The timeout that was armed last and has not been disarmed. -/
  timeout : Option TimeoutRef := none
  group : Option GroupId := none
  /-- The channel that the task is registered for. -/
  channel : Option Channel := none
  /-- The readiness seen since it was last asked for, as a mask. -/
  ready : UInt8 := 0
  /-- When the task entered a run queue. -/
  enqueuedAt : Nanos := 0
  /-- When the task was last switched to; zero if its time is not being taken. -/
  enteredAt : Nanos := 0
  /-- The run time of the present work. -/
  runTime : Nanos := 0
  context : TaskContext := .absent
  /-- The task stands for the thread of a carrier. -/
  isThread : Bool := false
  /-- The piece of work that the task was last given. -/
  job : Option JobId := none
deriving DecidableEq, Repr

namespace Task

/-- A task that has never had work. -/
def fresh (id : TaskId) : Task := { id }

/-- The name of the thread task of a carrier. -/
def carrierName (carrier : Nat) : String := "skein-carrier-" ++ toString carrier

/-- The task that stands for the thread of a carrier. -/
def ofCarrier (id : TaskId) (carrier : Nat) : Task :=
  { id, status := .alive, name := carrierName carrier, carrier := some carrier,
    context := .suspended, isThread := true }

/-- The number that stands for no carrier in descriptions. -/
def noCarrier : Nat := 18446744073709551615

/-- The task in one line. -/
def describe (t : Task) : String :=
  "Task \x7b id: " ++ t.id.describe ++ ", name: " ++ Text.quote t.name
    ++ ", status: " ++ t.status.describe ++ ", carrier: " ++ toString (t.carrier.getD noCarrier)
    ++ ", generation: " ++ toString t.generation ++ " \x7d"

/-! ## Parkers -/

/-- The parker of an axis. -/
def parker (t : Task) : Axis → Parker
  | .user => t.user
  | .internal => t.internal

/-- Replaces the parker of an axis. -/
def setParker (t : Task) (a : Axis) (p : Parker) : Task :=
  match a with
  | .user => { t with user := p }
  | .internal => { t with internal := p }

@[simp] theorem parker_setParker_self (t : Task) (a : Axis) (p : Parker) :
    (t.setParker a p).parker a = p := by cases a <;> rfl

@[simp] theorem parker_setParker_user (t : Task) (p : Parker) :
    (t.setParker .internal p).parker .user = t.parker .user := rfl

@[simp] theorem parker_setParker_internal (t : Task) (p : Parker) :
    (t.setParker .user p).parker .internal = t.parker .internal := rfl

/-- Releases an axis; the answer says who has to be woken. -/
def release (t : Task) (a : Axis) : Task × Released :=
  let (p, r) := (t.parker a).release
  (t.setParker a p, r)

/-! ## Incarnations -/

/-- Everything that the earlier incarnations left is put back, except what belongs to the task and
not to its work: the steal lock, the moves counted, and the mark of a run queue entry. -/
def forget (t : Task) (name : String) : Task :=
  { t with
    name
    generation := t.generation + 1
    cancelled := false
    delivered := false
    timeout := none
    group := none
    channel := none
    ready := 0
    enqueuedAt := 0
    enteredAt := 0
    runTime := 0 }

/-- Gives new work to a task. Where an axis still waits, the axes up to that one are freed and the
rest is left undone. -/
def reset (t : Task) (name : String) (carrier : Nat) : Task × Option Fault :=
  match t.status with
  | .alive => (t, some (.resetAlive t.id))
  | .dead => (t, some (.resetDead t.id))
  | .cached =>
    let t := t.forget name
    match t.user.clear with
    | (user, some fault) => ({ t with user }, some fault)
    | (user, none) =>
      match t.internal.clear with
      | (internal, some fault) => ({ t with user, internal }, some fault)
      | (internal, none) =>
        ({ t with user, internal, carrier := some carrier, status := .alive }, none)

/-- Whether the task carries the work of a generation. -/
def carries (t : Task) (generation : Nat) : Bool := t.generation == generation && t.status == .alive

/-- The task was thrown away while its context was suspended. -/
def discard (t : Task) : Task :=
  { t with status := .dead, discarded := true, context := .absent }

/-- Requests cancellation of one incarnation and releases both axes. The answer says whether that
incarnation is the present one, and who has to be woken. -/
def cancel (t : Task) (generation : Nat) : Task × Option (Released × Released) :=
  if t.carries generation then
    let (t, internal) := { t with cancelled := true }.release .internal
    let (t, user) := t.release .user
    (t, some (internal, user))
  else (t, none)

/-- The point where a resumed task finds out that it must not go on. A cancellation unwinds the
work once. -/
def checkpoint (t : Task) : Task × Option Unwind :=
  if t.discarded then (t, some .discarded)
  else if t.cancelled && !t.delivered then ({ t with delivered := true }, some .cancelled)
  else (t, none)

/-- Finishes the present work from outside of it, which is never right. -/
def finishElsewhere (t : Task) : Fault :=
  if t.status = .alive then .exitElsewhere else .exitNotAlive t.id

/-! ## Ownership -/

/-- Marks that an entry for the task goes into a run queue; `false` if there is one already. -/
def markEnqueued (t : Task) : Task × Bool := ({ t with enqueued := true }, !t.enqueued)

/-- Takes the steal lock, if it is free. -/
def tryLock (t : Task) : Task × Bool := ({ t with locked := true }, !t.locked)

/-- Moves the task to another carrier, if it belongs to the expected one. -/
def moveCarrier (t : Task) (source target : Option Nat) : Task × Bool :=
  if t.carrier = source then ({ t with carrier := target }, true) else (t, false)

/-! ## Run time -/

/-- The run time since the task was switched to, which then starts anew at `now`. -/
def takeElapsed (t : Task) (now : Nanos) : Task × Nanos :=
  if t.enteredAt = 0 then ({ t with enteredAt := now }, 0)
  else
    let elapsed := max 0 (now - t.enteredAt)
    ({ t with enteredAt := now, runTime := t.runTime + elapsed }, elapsed)

/-! ## Timeouts and readiness -/

/-- Forgets the timeout, if it is this one. -/
def clearTimeoutIf (t : Task) (r : TimeoutRef) : Task :=
  if t.timeout = some r then { t with timeout := none } else t

/-- Takes the timeout away from the task. -/
def takeTimeout (t : Task) : Task × Option TimeoutRef := ({ t with timeout := none }, t.timeout)

/-- Adds to the readiness seen. -/
def addReady (t : Task) (mask : UInt8) : Task := { t with ready := t.ready ||| mask }

/-- Takes the readiness seen. -/
def takeReady (t : Task) : Task × UInt8 := ({ t with ready := 0 }, t.ready)

/-- Counts a move to another carrier. -/
def recordStolen (t : Task) : Task := { t with stolen := (t.stolen + 1) % 4294967296 }

/-- Adds to the run time of the present work. -/
def addRunTime (t : Task) (n : Nanos) : Task := { t with runTime := t.runTime + n }

/-- Makes sure that there is a context. -/
def ensureContext (t : Task) : Task :=
  if t.context = .absent then { t with context := .suspended } else t

/-- The end of a piece of work where no engine is left to give the task more. A discarded task just
stops. -/
def endUnhosted (t : Task) : Task :=
  { t with status := if t.discarded then t.status else .dead, context := .exited }

/-- A whole piece of work of a task that no engine hosts. -/
def runUnhosted (t : Task) (name : String) (carrier : Nat) : Task × Option Fault :=
  match t.reset name carrier with
  | (t, some fault) => (t, some fault)
  | (t, none) => (t.endUnhosted, none)

/-- Whether the task can be given work without an engine. -/
def canRunUnhosted (t : Task) : Bool := !t.isThread && t.context != .exited

/-- The run time of the present work, as it is shown. -/
def shownRunTime (t : Task) : Nanos := max 0 t.runTime

end Task

end GreenThreads

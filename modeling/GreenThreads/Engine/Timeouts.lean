import GreenThreads.Engine.Wake

/-!
# Timeouts of tasks

A task knows the timeout that was armed for it last. With a precise timer all timeouts are kept in
one queue of its own; otherwise each carrier keeps those that were armed on it. A precise timeout
of the running task only becomes pending once the task has switched out, so that it cannot be woken
before.
-/

namespace GreenThreads.Engine

variable {V : Type}

/-- The queue that a timeout belongs to. -/
def timersOf (e : Engine V) (owner : Nat) : Option TimerQueue :=
  if owner = preciseOwner then some e.precise else e.carriers[owner]?.map (·.timers)

/-- Changes the timer queue of an owner. -/
def updateTimers (e : Engine V) (owner : Nat) (f : TimerQueue → TimerQueue) : Engine V :=
  if owner = preciseOwner then { e with precise := f e.precise }
  else e.updateCarrier owner fun c => { c with timers := f c.timers }

/-- Whether something still refers to a timeout, so that it can be disarmed. -/
def holdsTimeout (e : Engine V) (r : TimeoutRef) : Bool :=
  (match e.timersOf r.owner with
    | some q => q.holds r.number
    | none => false)
  || (r.owner == preciseOwner && e.carriers.any fun c => c.pendingPrecise.contains r.number)

/-- Whether a timeout is armed for a task. -/
def hasTimeout (e : Engine V) (task : Task) : Bool :=
  match task.timeout with
  | some r => e.holdsTimeout r
  | none => false

/-- Disarms the timeout of a task, if one is armed. The owner of the queue takes it out at once;
for anybody else the owner does so at its next poll. -/
def disarm (e : Engine V) (t : TaskId) : Engine V :=
  match e.task? t with
  | none => e
  | some task =>
    match task.timeout with
    | none => e
    | some r =>
      let e' := e.updateTask t fun task => task.takeTimeout.1
      if e.holdsTimeout r then
        (e'.updateTimers r.owner
          (·.cancel r.number (r.owner != preciseOwner && task.carrier == some r.owner))).count
          .timersCancelled
      else e'

/-- Whether a precise timeout has to wait until the running task has switched out. -/
def isHeldBack (action : TimeoutAction) (byTask : Bool) : Bool :=
  byTask && match action with
    | .wakeNative _ => false
    | .resume | .wakeCooperative _ => true

/-- Makes a timeout pending. -/
def register (e : Engine V) (r : TimeoutRef) : Engine V :=
  e.updateTimers r.owner fun q => (q.insert r.number).toOption.getD q

/-- Arms a timeout for a task, on carrier `c` or with the precise timer. It takes the place of an
earlier one in the task. `byTask` tells whether the task that runs on the carrier arms it. -/
def arm (e : Engine V) (now : Nanos) (c : Nat) (t : TaskId) (deadline : Nanos)
    (action : TimeoutAction) (byTask : Bool) : Engine V :=
  let owner := if e.config.preciseTimer then preciseOwner else c
  match e.timersOf owner with
  | none => e
  | some q =>
    let (q, number) := q.create (Timeout.make t now deadline action owner)
    let r : TimeoutRef := { owner, number }
    let e := (e.count .timersArmed).updateTimers owner fun _ => q
    let e := e.updateTask t ({ · with timeout := some r })
    if e.config.preciseTimer && isHeldBack action byTask then
      e.updateCarrier c fun c => { c with pendingPrecise := c.pendingPrecise ++ [number] }
    else e.register r

/-- Does what a due timeout asks for, unless it was cancelled meanwhile. -/
def fire (e : Engine V) (now : Nanos) (r : TimeoutRef) : Engine V :=
  match (e.timersOf r.owner).bind (·.timeouts[r.number]?) with
  | none => e
  | some timeout =>
    if timeout.cancelled then e
    else
      let e := (e.count .timersFired).updateTask timeout.task (·.clearTimeoutIf r)
      match timeout.action with
      | .resume => e.wake now timeout.task
      | .wakeCooperative a | .wakeNative a => e.wakeWaiting now timeout.task a

/-- Fires all timeouts of an owner that are due. -/
def pollTimers (e : Engine V) (now : Nanos) (owner : Nat) : Engine V :=
  match e.timersOf owner with
  | none => e
  | some q =>
    let (q, due) := q.poll now
    due.foldl (fun e number => e.fire now { owner, number }) (e.updateTimers owner fun _ => q)

end GreenThreads.Engine

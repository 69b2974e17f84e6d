import GreenThreads.Engine.Wake

/-!
# Waiting for channels

A task that waits for a channel is registered with the event pump for as long as its channel is
set. The engine counts these tasks, and it polls the pump only while there are any.
-/

namespace GreenThreads.Engine

variable {V : Type}

/-- Takes the registration of a task back, if it has one. -/
def unregisterChannel (e : Engine V) (t : TaskId) : Engine V :=
  match e.task? t with
  | none => e
  | some task =>
    if task.channel.isNone then e
    else
      { e.updateTask t ({ · with channel := none }) with
        ioWaiters := e.ioWaiters - 1
        pump := e.pump.unregister t }

/-- Registers a task for a channel; an earlier registration is taken back. -/
def registerChannel (e : Engine V) (t : TaskId) (c : Channel) (i : Interest) :
    Engine V × Option EngineError :=
  let e := e.unregisterChannel t
  match e.pump.register t c i with
  | .ok pump =>
    ({ e.updateTask t ({ · with channel := some c }) with ioWaiters := e.ioWaiters + 1, pump },
      none)
  | .error cause => (e, some (.eventPump cause))

/-- Tells a task about its readiness, if it still has work and waits for that channel. -/
def deliver (e : Engine V) (now : Nanos) (event : ReadyEvent) : Engine V :=
  match e.task? event.task with
  | none => e
  | some task =>
    if e.live.contains event.task ∧ task.channel = some event.channel then
      (e.updateTask event.task (·.addReady event.ready.mask.toUInt8)).unpark now event.task
        .internal
    else e

/-- Collects all signals and tells the tasks that wait for them. -/
def pollEvents (e : Engine V) (now : Nanos) : Engine V :=
  let (pump, events) := e.pump.poll
  events.foldl (deliver · now ·) { e with pump }

end GreenThreads.Engine

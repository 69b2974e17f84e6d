import GreenThreads.Error
import GreenThreads.Waker

/-!
# Bystanders

A bystander is a thread that no engine runs. It can use most of what tasks use: what would give the
carrier away blocks the thread instead, and what needs a task is refused.
-/

namespace GreenThreads

/-- A thread beside the engine. -/
structure Bystander where
  parker : Parker := .free
  /-- The thread has been registered as one that serves an engine. -/
  isWorker : Bool := false
deriving DecidableEq, Repr

namespace Bystander

/-- Whether the caller runs in a task, whether it has the id of one, and whether its thread serves
an engine. -/
def whereabouts (b : Bystander) : List Bool := [false, false, b.isWorker]

/-- Registers the thread as one that serves an engine, or takes that back. -/
def register (b : Bystander) (isWorker : Bool) : Bystander := { b with isWorker }

/-- Wakes the thread or leaves a permit. -/
def unpark (b : Bystander) : Bystander := { b with parker := b.parker.release.1 }

/-- Begins a park: the answer says whether the thread blocks. -/
def beginPark (b : Bystander) : Except Fault (Bystander × Bool) :=
  (b.parker.begin true).map fun (parker, blocks) => ({ b with parker }, blocks)

/-- Ends a park. -/
def endPark (b : Bystander) : Bystander := { b with parker := b.parker.finish }

/-- A whole park that nobody wakes before its time is over. -/
def parkUnwoken (b : Bystander) : Except Fault Bystander :=
  b.parker.parkUnwoken.map fun parker => { b with parker }

/-- The answer to what needs a task: waiting for a channel, or running in a control group. -/
def refusal : EngineError := .notInTask

/-- A critical section has no effect outside of tasks. -/
def critical {α : Type} (outcome : Except Unwind α) : Except JoinError α :=
  outcome.mapError Unwind.toJoinError

end Bystander

end GreenThreads

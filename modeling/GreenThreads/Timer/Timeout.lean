import GreenThreads.Clock
import GreenThreads.Parker

/-!
# Timeouts

A timeout is an action on a task that is due at a deadline. It belongs to the timer queue that its
owner number names, and it knows its place in that queue.
-/

namespace GreenThreads

/-- What happens to the task when a timeout fires. -/
inductive TimeoutAction where
  /-- The task is put into a run queue in any case. -/
  | resume
  /-- The task is woken if it still waits on the axis without a carrier. -/
  | wakeCooperative (axis : Axis)
  /-- The task is woken if it still blocks its carrier on the axis. -/
  | wakeNative (axis : Axis)
deriving DecidableEq, Repr

/-- The name of an action in descriptions. -/
def TimeoutAction.describe : TimeoutAction → String
  | resume => "Resume"
  | wakeCooperative a => "WakeCooperative(" ++ a.describe ++ ")"
  | wakeNative a => "WakeNative(" ++ a.describe ++ ")"

/-- An action that is due at a deadline. -/
structure Timeout where
  /-- The task to act on. -/
  task : TaskId
  /-- The instant from which it is due. -/
  deadline : Nanos
  /-- What to do then. -/
  action : TimeoutAction
  /-- The number of the queue that it belongs to. -/
  owner : Nat
  /-- A cancelled timeout never fires. -/
  cancelled : Bool := false
  /-- Its position in the heap of its queue. -/
  slot : Option Nat := none
deriving DecidableEq, Repr

namespace Timeout

/-- A timeout made at `now`, with its deadline pulled in. -/
def make (task : TaskId) (now deadline : Nanos) (action : TimeoutAction) (owner : Nat) : Timeout :=
  { task, deadline := Nanos.normalize now deadline, action, owner }

/-- The position in the heap, where −1 stands for none. -/
def position (t : Timeout) : Int :=
  match t.slot with
  | some i => i
  | none => -1

/-- A timeout in one line. -/
def describe (t : Timeout) : String :=
  "TimeOut \x7b task: " ++ t.task.describe ++ ", deadline: " ++ toString t.deadline.toInt
    ++ ", action: " ++ t.action.describe ++ ", owner: " ++ toString t.owner
    ++ ", canceled: " ++ toString t.cancelled ++ ", index: " ++ toString t.position ++ " \x7d"

end Timeout

end GreenThreads

import GreenThreads.Parker

/-!
# Wakers

A waker stands for one axis of a task in the incarnation that it was made for. Once the task has
moved on to other work the waker has no effect.
-/

namespace GreenThreads

/-- A handle that wakes a task. -/
structure Waker where
  task : TaskId
  /-- The incarnation for which the waker was made. -/
  generation : Nat
  axis : Axis
deriving DecidableEq, Repr

/-- A handle that wakes whoever made it: a task, or a thread outside of the engine. -/
inductive Unparker where
  | task (waker : Waker)
  | thread (number : Nat)
deriving DecidableEq, Repr

namespace Unparker

/-- The task that is woken, if it is one. -/
def task? : Unparker → Option TaskId
  | task w => some w.task
  | thread _ => none

/-- The handle in one line. -/
def describe : Unparker → String
  | task w =>
    "Unparker \x7b task: " ++ w.task.describe ++ ", generation: " ++ toString w.generation
      ++ ", axis: " ++ w.axis.describe ++ " \x7d"
  | thread _ => "Unparker \x7b thread: true \x7d"

end Unparker

end GreenThreads

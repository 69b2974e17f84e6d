/-!
# Faults

A fault is a broken agreement between the parts of the engine, or an arithmetic overflow. It is
not an error that a caller is expected to handle: the operation that meets one stops there.
-/

namespace GreenThreads

/-- The identity of a task, which it keeps through all the work that it carries. -/
structure TaskId where
  /-- The running number of the task. It does not outgrow 64 bits, as fewer than `2 ^ 64` pieces of
  work are ever started. -/
  index : Nat
deriving DecidableEq, Repr, Inhabited

namespace TaskId

/-- The id as shown to users. -/
def text (t : TaskId) : String := "#" ++ toString t.index

/-- The id as shown inside descriptions of other things. -/
def describe (t : TaskId) : String := "TaskId(" ++ toString t.index ++ ")"

/-- Ids are handed out in increasing order. -/
def precedes (a b : TaskId) : Bool := a.index < b.index

/-- The id handed out after this one. -/
def next (t : TaskId) : TaskId := ⟨t.index + 1⟩

end TaskId

/-- What can go wrong between the parts of the engine. -/
inductive Fault where
  /-- A park began on an axis that already waits. -/
  | alreadyWaiting
  /-- A parker was cleared while its axis waited. -/
  | stillWaiting
  /-- New work was given to a task that still has some. -/
  | resetAlive (task : TaskId)
  /-- New work was given to a task that was destroyed. -/
  | resetDead (task : TaskId)
  /-- A run queue named a task without work. -/
  | resumeNotAlive (task : TaskId)
  /-- A task without work finished. -/
  | exitNotAlive (task : TaskId)
  /-- A task was finished by somebody else. -/
  | exitElsewhere
  /-- A timeout was put into a queue that it does not belong to. -/
  | foreignTimeout
  /-- A critical section was left that had not been entered. -/
  | unbalancedCritical
  /-- A task was put into a pool while it had work. -/
  | notCached
  /-- The least integer was negated. -/
  | negateOverflow
  /-- A sum left the range of its words. -/
  | addOverflow
deriving DecidableEq, Repr

/-- The text that reports a fault. -/
def Fault.message : Fault → String
  | alreadyWaiting => "park: axis is already waiting (parked from two contexts)"
  | stillWaiting => "clear: axis is still waiting"
  | resetAlive t => "reset called on an alive task " ++ t.text
  | resetDead t => "reset called on a dead task " ++ t.text
  | resumeNotAlive t => "resume of task " ++ t.text ++ " that is not alive"
  | exitNotAlive t => "mark_exit on task " ++ t.text ++ " that is not alive"
  | exitElsewhere => "mark_exit must run on the task's own context"
  | foreignTimeout => "timeout added to foreign heap"
  | unbalancedCritical => "unbalanced critical section exit"
  | notCached => "assertion failed"
  | negateOverflow => "attempt to negate with overflow"
  | addOverflow => "attempt to add with overflow"

end GreenThreads

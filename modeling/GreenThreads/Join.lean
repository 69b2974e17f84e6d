import GreenThreads.Error
import GreenThreads.Waker

/-!
# Joining

Each piece of work shares a cell with its handle: the work leaves its result there and wakes those
who wait for it, and the handle takes the result away or asks for cancellation.
-/

namespace GreenThreads

/-- The incarnation of a task that carries a piece of work. -/
structure Binding where
  task : TaskId
  generation : Nat
deriving DecidableEq, Repr

/-- The cell that a piece of work with values in `V` shares with its handle. -/
structure Join (V : Type) where
  /-- The result, until it is taken. -/
  result : Option (Except JoinError V) := none
  /-- The work is over, with or without a value. -/
  done : Bool := false
  /-- Whom to wake when the work is over, in the order in which they came. -/
  waiters : List Waker := []
  /-- The handle asked for cancellation. -/
  cancelRequested : Bool := false
  /-- Who carries the work, once it has been picked up. -/
  binding : Option Binding := none

namespace Join

variable {V : Type}

/-- Leaves a result; the answer says whom to wake. A result that was not taken is replaced. -/
def complete (j : Join V) (r : Except JoinError V) : Join V × List Waker :=
  ({ j with result := some r, done := true, waiters := [] }, j.waiters)

/-- Leaves the outcome of a piece of work that ran. -/
def finish (j : Join V) (outcome : Except Unwind V) : Join V × List Waker :=
  j.complete (outcome.mapError Unwind.toJoinError)

/-- Leaves the result of work that is given up. -/
def abandon (j : Join V) : Join V × List Waker := j.complete (.error .cancelled)

/-- Tells who carries the work. -/
def bind (j : Join V) (b : Binding) : Join V := { j with binding := some b }

/-- Asks for cancellation; the answer says which incarnation has to be cancelled, if any. -/
def requestCancel (j : Join V) : Join V × Option Binding :=
  ({ j with cancelRequested := true }, j.binding)

/-- Registers somebody who waits. -/
def addWaiter (j : Join V) (w : Waker) : Join V := { j with waiters := j.waiters ++ [w] }

/-- Takes the result away. -/
def take (j : Join V) : Join V × Option (Except JoinError V) :=
  ({ j with result := none }, j.result)

/-- What a wait that was not bounded gives: work whose result somebody else took counts as
cancelled. -/
def takeFinal (j : Join V) : Join V × Except JoinError V :=
  let (j, r) := j.take
  (j, r.getD (.error .cancelled))

/-- What a bounded wait gives: nothing as long as the work is not over. -/
def takeIfDone (j : Join V) : Join V × Option (Except JoinError V) :=
  if j.done then j.take else (j, none)

/-- The handle in one line. -/
def describe (j : Join V) : String :=
  let task := match j.binding with
    | some b => "Some(" ++ b.task.describe ++ ")"
    | none => "None"
  "JoinHandle \x7b task: " ++ task ++ ", finished: " ++ toString j.done ++ " \x7d"

@[simp] theorem done_complete (j : Join V) (r : Except JoinError V) :
    (j.complete r).1.done = true := rfl

@[simp] theorem result_take (j : Join V) : j.take.1.result = none := rfl

end Join

end GreenThreads

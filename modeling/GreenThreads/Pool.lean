import GreenThreads.Task.Basic

/-!
# Pools

A pool keeps finished tasks for reuse, first in first out, up to a capacity.
-/

namespace GreenThreads

/-- A bounded queue of idle tasks, oldest first. -/
structure Pool where
  /-- How many tasks are kept at most. -/
  capacity : Nat
  /-- The tasks kept, oldest first. -/
  items : List TaskId := []
deriving DecidableEq, Repr, Inhabited

namespace Pool

/-- How many tasks are kept. -/
def size (p : Pool) : Nat := p.items.length

/-- Keeps a task, unless the pool is full. -/
def push? (p : Pool) (t : TaskId) : Option Pool :=
  if p.size < p.capacity then some { p with items := p.items ++ [t] } else none

/-- Keeps a task, unless the pool is full. Only a task without work may be offered. -/
def offer (p : Pool) (t : Task) : Except Fault (Option Pool) :=
  if t.status = .cached then .ok (p.push? t.id) else .error .notCached

/-- Takes the oldest task. -/
def pop? (p : Pool) : Option (TaskId × Pool) :=
  match p.items with
  | [] => none
  | t :: rest => some (t, { p with items := rest })

/-- Takes all tasks, oldest first. -/
def drain (p : Pool) : Pool × List TaskId := ({ p with items := [] }, p.items)

/-- The pool in one line. -/
def describe (p : Pool) : String :=
  "TaskCache \x7b len: " ++ toString p.size ++ ", capacity: " ++ toString p.capacity ++ " \x7d"

end Pool

end GreenThreads

import GreenThreads.Engine.Basic

/-!
# Waking tasks

A task is woken by an entry in the run queue of the carrier that it belongs to. There is at most
one such entry: a second wake before the task has gone on changes nothing.
-/

namespace GreenThreads.Engine

variable {V : Type}

/-- Puts an entry for a task into the run queue of its carrier, unless there is one already. Only
tasks that have work are woken. -/
def wake (e : Engine V) (now : Nanos) (t : TaskId) : Engine V :=
  match e.task? t with
  | none => e
  | some task =>
    match task.carrier with
    | none => e
    | some c =>
      if task.status = .alive ∧ task.isThread = false ∧ task.enqueued = false then
        (e.updateTask t ({ · with enqueued := true, enqueuedAt := now })).updateCarrier c
          (·.enqueue (.resume t))
      else e

/-- Wakes a task if a release found that it had given its carrier away. A task that blocks its
carrier notices the release by itself. -/
def wakeReleased (e : Engine V) (now : Nanos) (t : TaskId) : Released → Engine V
  | .cooperative => e.wake now t
  | .native | .permit => e

/-- Releases an axis of a task: the task is woken if it waits there, or else a permit is kept. -/
def unpark (e : Engine V) (now : Nanos) (t : TaskId) (a : Axis) : Engine V :=
  match e.task? t with
  | none => e
  | some task =>
    let (task, r) := task.release a
    (e.updateTask t fun _ => task).wakeReleased now t r

/-- Wakes a task if it waits on the axis, and keeps no permit if it does not. -/
def wakeWaiting (e : Engine V) (now : Nanos) (t : TaskId) (a : Axis) : Engine V :=
  match e.task? t with
  | none => e
  | some task =>
    match (task.parker a).wakeWaiting with
    | (p, some r) => (e.updateTask t (·.setParker a p)).wakeReleased now t r
    | (_, none) => e

/-- Uses a waker. -/
def useWaker (e : Engine V) (now : Nanos) (w : Waker) : Engine V :=
  match e.task? w.task with
  | none => e
  | some task => if task.generation = w.generation then e.unpark now w.task w.axis else e

/-- Requests cancellation of one incarnation of a task and wakes it on both axes. The answer says
whether that incarnation was the present one. -/
def cancelTask (e : Engine V) (now : Nanos) (t : TaskId) (generation : Nat) : Engine V × Bool :=
  match e.task? t with
  | none => (e, false)
  | some task =>
    match task.cancel generation with
    | (_, none) => (e, false)
    | (task, some (internal, user)) =>
      (((e.updateTask t fun _ => task).wakeReleased now t internal).wakeReleased now t user, true)

/-- Cancels the present work of a task by its id; only tasks that have work are found. -/
def cancel (e : Engine V) (now : Nanos) (t : TaskId) : Engine V × Bool :=
  match e.task? t with
  | none => (e, false)
  | some task => if e.live.contains t then e.cancelTask now t task.generation else (e, false)

/-- Asks for cancellation of a piece of work: it is not started, or it is unwound. -/
def cancelJob (e : Engine V) (now : Nanos) (j : JobId) : Engine V :=
  match e.jobs[j]? with
  | none => e
  | some cell =>
    let (cell, binding) := cell.requestCancel
    let e := e.updateJob j fun _ => cell
    match binding with
    | none => e
    | some b => (e.cancelTask now b.task b.generation).1

/-- Puts the new state of a cell in place and wakes those who waited for it. -/
def publish (e : Engine V) (now : Nanos) (j : JobId) (r : Join V × List Waker) : Engine V :=
  r.2.foldl (useWaker · now ·) (e.updateJob j fun _ => r.1)

/-- A piece of work is over. -/
def finishJob (e : Engine V) (now : Nanos) (j : JobId) (outcome : Except Unwind V) : Engine V :=
  match e.jobs[j]? with
  | none => e
  | some cell => e.publish now j (cell.finish outcome)

/-- A piece of work is given up before it started. -/
def abandonJob (e : Engine V) (now : Nanos) (j : JobId) : Engine V :=
  match e.jobs[j]? with
  | none => e
  | some cell => e.publish now j cell.abandon

end GreenThreads.Engine

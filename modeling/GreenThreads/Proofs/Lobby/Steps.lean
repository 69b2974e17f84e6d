import GreenThreads.Proofs.Engine.Tasks
import Mathlib.Logic.Function.Basic

/-!
# Waiting for a piece of work, step by step

Whoever completes a piece of work stores the result and marks the work as done under a lock, then
takes the list of those who wait, and wakes them one by one. A task that waits looks at the mark,
registers, looks again, and parks; whenever it goes on it starts over. A thread outside of the
engine looks at the mark under the lock and sleeps until it is notified. Between any two of these
steps all others can do theirs, the engine can do anything else, and everybody can release the axes
of everybody.
-/

namespace GreenThreads

/-- How far the completion of a piece of work is. -/
inductive Finish where
  | before
  /-- The lock is taken. -/
  | locked
  /-- The result is stored. -/
  | stored
  /-- The work is marked as done. -/
  | raised
  /-- The threads that sleep are notified. -/
  | notified
  /-- The lock is given back. -/
  | unlocked
  /-- The list of those who wait is taken, and these are yet to be woken. -/
  | calling (rest : List Waker)
  /-- The first of them is in the incarnation that registered. -/
  | striking (w : Waker) (rest : List Waker)
  /-- The first of them is released, and may have to be put into a run queue. -/
  | rousing (t : TaskId) (found : Released) (rest : List Waker)
  | returned
deriving DecidableEq, Repr

namespace Finish

/-- The completion has the lock. -/
def holds : Finish → Bool
  | locked | stored | raised | notified => true
  | before | unlocked | calling _ | striking _ _ | rousing _ _ _ | returned => false

def hasStored : Finish → Bool
  | before | locked => false
  | stored | raised | notified | unlocked | calling _ | striking _ _ | rousing _ _ _ | returned => true

def hasRaised : Finish → Bool
  | before | locked | stored => false
  | raised | notified | unlocked | calling _ | striking _ _ | rousing _ _ _ | returned => true

def hasNotified : Finish → Bool
  | before | locked | stored | raised => false
  | notified | unlocked | calling _ | striking _ _ | rousing _ _ _ | returned => true

/-- How much of the completion is done. -/
def marks (f : Finish) : Bool × Bool × Bool := (f.hasStored, f.hasRaised, f.hasNotified)

/-- Those who are yet to be woken, once the list has been taken. -/
def hand : Finish → Option (List Waker)
  | calling rest | rousing _ _ rest => some rest
  | striking w rest => some (w :: rest)
  | returned => some []
  | before | locked | stored | raised | notified | unlocked => none

end Finish

/-- How far a task is that waits, for a bounded time or not. -/
inductive Visit where
  /-- It does not wait. -/
  | away
  /-- It is about to look whether the work is over. -/
  | entering (timed : Bool)
  /-- It is about to look again. -/
  | testing (timed : Bool)
  /-- It is about to register. -/
  | pushing (timed : Bool)
  /-- It is about to look whether the work was over meanwhile. -/
  | rechecking (timed : Bool)
  /-- It is about to park, unless its time is over. -/
  | deciding (timed : Bool)
  /-- It is parked, and blocks its carrier or has given it away. -/
  | parked (timed native : Bool)
  /-- It goes on and is about to end the park. -/
  | ending (timed : Bool)
  /-- The park is over. -/
  | resumed (timed : Bool)
  /-- Its time is over, and it is about to look for the last time. -/
  | answering
  /-- Its wait is over, and the work was or was not. -/
  | returned (answer : Bool)
deriving DecidableEq, Repr

namespace Visit

/-- How it goes on when it looks and the work is not over. -/
def unseen : Visit → Option Visit
  | entering timed => some (testing timed)
  | testing timed => some (pushing timed)
  | rechecking timed => some (deciding timed)
  | answering => some (returned false)
  | away | pushing _ | deciding _ | parked _ _ | ending _ | resumed _ | returned _ => none

/-- The task is inside of its wait. -/
def stays : Visit → Bool
  | entering _ | testing _ | pushing _ | rechecking _ | deciding _ | parked _ _ | ending _ | resumed _
  | answering => true
  | away | returned _ => false

end Visit

/-- How far a thread outside of the engine is that waits, for a bounded time or not. -/
inductive Vigil where
  /-- It does not wait. -/
  | away
  /-- It is about to look whether the work is over. -/
  | entering (timed : Bool)
  /-- It waits for the lock. -/
  | locking (timed : Bool)
  /-- It has the lock and is about to look again. -/
  | testing (timed : Bool)
  /-- It has the lock and is about to sleep, unless its time is over. -/
  | deciding (timed : Bool)
  /-- It sleeps; it may have been notified. -/
  | asleep (timed notified : Bool)
  /-- It has the lock and is about to look for the last time. -/
  | answering
  /-- It has the lock and its answer. -/
  | leaving (answer : Bool)
  /-- Its wait is over, and the work was or was not. -/
  | returned (answer : Bool)
deriving DecidableEq, Repr

namespace Vigil

/-- The thread has the lock. -/
def holds : Vigil → Bool
  | testing _ | deciding _ | answering | leaving _ => true
  | away | entering _ | locking _ | asleep _ _ | returned _ => false

/-- A notification reaches a thread that sleeps. -/
def notify : Vigil → Vigil
  | asleep timed _ => asleep timed true
  | v => v

@[simp] theorem holds_notify (v : Vigil) : v.notify.holds = v.holds := by
  cases v <;> rfl

end Vigil

/-- Who has the lock of the result. -/
inductive Keeper where
  | finish
  | thread (n : Nat)
deriving DecidableEq, Repr

/-- An engine with a piece of work and those who wait for it. -/
structure Lobby (V : Type) where
  engine : Engine V
  job : JobId
  finish : Finish := .before
  keeper : Option Keeper := none
  visits : TaskId → Visit := fun _ => .away
  vigils : Nat → Vigil := fun _ => .away
  /-- The result that was stored. -/
  stored : Option (Except JoinError V) := none
  /-- The results that were handed out, one for each who took one. -/
  taken : List (Except JoinError V) := []

namespace Lobby

open Engine

variable {V : Type} {l l' : Lobby V} {e e' : Engine V} {t u : TaskId} {n : Nat} {cell cell' : Join V}
  {x y : Task}

/-- The cell of the work. -/
abbrev cell? (l : Lobby V) : Option (Join V) := l.engine.jobs[l.job]?

/-- Changes the cell of the work. -/
def write (l : Lobby V) (f : Join V → Join V) : Lobby V :=
  { l with engine := l.engine.updateJob l.job f }

/-- Changes the axis that waits park on, of one task. -/
def touch (l : Lobby V) (t : TaskId) (f : Parker → Parker) : Lobby V :=
  { l with engine := l.engine.updateTask t fun x => { x with internal := f x.internal } }

/-- A task gets on with its wait. -/
def visit (l : Lobby V) (t : TaskId) (v : Visit) : Lobby V :=
  { l with visits := Function.update l.visits t v }

/-- A thread gets on with its wait. -/
def watch (l : Lobby V) (n : Nat) (v : Vigil) : Lobby V :=
  { l with vigils := Function.update l.vigils n v }

/-- Somebody takes the result away. -/
def collect (l : Lobby V) (cell : Join V) : Lobby V :=
  { l.write (·.take.1) with taken := l.taken ++ cell.result.toList }

/-- The completion. -/
inductive Completing : Lobby V → Lobby V → Prop
  | lock {l : Lobby V} (at_ : l.finish = .before) (open_ : l.keeper = none) :
      Completing l { l with finish := .locked, keeper := some .finish }
  | store {l : Lobby V} (r : Except JoinError V) (at_ : l.finish = .locked) :
      Completing l { l.write ({ · with result := some r }) with finish := .stored, stored := some r }
  | raise {l : Lobby V} (at_ : l.finish = .stored) :
      Completing l { l.write ({ · with done := true }) with finish := .raised }
  | notify {l : Lobby V} (at_ : l.finish = .raised) :
      Completing l { l with finish := .notified, vigils := fun n => (l.vigils n).notify }
  | unlock {l : Lobby V} (at_ : l.finish = .notified) :
      Completing l { l with finish := .unlocked, keeper := none }
  | gather {l : Lobby V} {cell : Join V} (at_ : l.finish = .unlocked)
      (found : l.cell? = some cell) :
      Completing l { l.write ({ · with waiters := [] }) with finish := .calling cell.waiters }
  | call {l : Lobby V} {w : Waker} {rest : List Waker} {x : Task}
      (at_ : l.finish = .calling (w :: rest)) (found : l.engine.task? w.task = some x)
      (same : x.generation = w.generation) : Completing l { l with finish := .striking w rest }
  | skip {l : Lobby V} {w : Waker} {rest : List Waker} (at_ : l.finish = .calling (w :: rest))
      (other : ∀ x, l.engine.task? w.task = some x → x.generation ≠ w.generation) :
      Completing l { l with finish := .calling rest }
  | strike {l : Lobby V} {w : Waker} {rest : List Waker} {x : Task}
      (at_ : l.finish = .striking w rest) (found : l.engine.task? w.task = some x) :
      Completing l { l with
        engine := l.engine.updateTask w.task fun _ => (x.release w.axis).1
        finish := .rousing w.task (x.release w.axis).2 rest }
  | rouse {l : Lobby V} {t : TaskId} {found : Released} {rest : List Waker} (now : Nanos)
      (at_ : l.finish = .rousing t found rest) :
      Completing l { l with
        engine := l.engine.wakeReleased now t found
        finish := .calling rest }
  | return_ {l : Lobby V} (at_ : l.finish = .calling []) :
      Completing l { l with finish := .returned }

/-- The wait of a task. -/
inductive Visiting (t : TaskId) : Lobby V → Lobby V → Prop
  /-- The task runs, so it is not parked. -/
  | arrive {l : Lobby V} {x : Task} (timed : Bool) (at_ : l.visits t = .away)
      (found : l.engine.task? t = some x) (awake : x.internal.isWaiting = false) :
      Visiting t l (l.visit t (.entering timed))
  | see {l : Lobby V} {v : Visit} {cell : Join V} (looks : (l.visits t).unseen = some v)
      (found : l.cell? = some cell) (told : cell.done = true) :
      Visiting t l (l.visit t (.returned true))
  | miss {l : Lobby V} {v : Visit} {cell : Join V} (looks : (l.visits t).unseen = some v)
      (found : l.cell? = some cell) (open_ : cell.done = false) : Visiting t l (l.visit t v)
  | push {l : Lobby V} {timed : Bool} {x : Task} (at_ : l.visits t = .pushing timed)
      (found : l.engine.task? t = some x) :
      Visiting t l
        ((l.write (·.addWaiter ⟨t, x.generation, .internal⟩)).visit t (.rechecking timed))
  /-- The time of the wait is over. -/
  | lapse {l : Lobby V} (at_ : l.visits t = .deciding true) : Visiting t l (l.visit t .answering)
  /-- What is left is too short for a park. -/
  | yield {l : Lobby V} (at_ : l.visits t = .deciding true) :
      Visiting t l (l.visit t (.resumed true))
  | begin {l : Lobby V} {timed : Bool} {x : Task} {p : Parker} {blocks : Bool} (native : Bool)
      (at_ : l.visits t = .deciding timed) (found : l.engine.task? t = some x)
      (allowed : x.internal.begin native = .ok (p, blocks)) :
      Visiting t l ((l.touch t fun _ => p).visit t
        (if blocks then .parked timed native else .resumed timed))
  /-- The task was woken, its time is over, or it goes on for no reason. -/
  | resume {l : Lobby V} {timed native : Bool} (at_ : l.visits t = .parked timed native) :
      Visiting t l (l.visit t (.ending timed))
  | end_ {l : Lobby V} {timed : Bool} (at_ : l.visits t = .ending timed) :
      Visiting t l ((l.touch t (·.finish)).visit t (.resumed timed))
  | again {l : Lobby V} {timed : Bool} (at_ : l.visits t = .resumed timed) :
      Visiting t l (l.visit t (.testing timed))
  /-- The task was cancelled or thrown away. -/
  | unwind {l : Lobby V} {timed : Bool}
      (at_ : l.visits t = .deciding timed ∨ l.visits t = .resumed timed) :
      Visiting t l (l.visit t .away)
  | take {l : Lobby V} {cell : Join V} (at_ : l.visits t = .returned true)
      (open_ : l.keeper = none) (found : l.cell? = some cell) :
      Visiting t l ((l.collect cell).visit t .away)
  | leave {l : Lobby V} (at_ : l.visits t = .returned false) : Visiting t l (l.visit t .away)

/-- The wait of a thread. -/
inductive Watching (n : Nat) : Lobby V → Lobby V → Prop
  | arrive {l : Lobby V} (timed : Bool) (at_ : l.vigils n = .away) :
      Watching n l (l.watch n (.entering timed))
  | see {l : Lobby V} {timed : Bool} {cell : Join V} (at_ : l.vigils n = .entering timed)
      (found : l.cell? = some cell) (told : cell.done = true) :
      Watching n l (l.watch n (.returned true))
  | miss {l : Lobby V} {timed : Bool} {cell : Join V} (at_ : l.vigils n = .entering timed)
      (found : l.cell? = some cell) (open_ : cell.done = false) :
      Watching n l (l.watch n (.locking timed))
  | lock {l : Lobby V} {timed : Bool} (at_ : l.vigils n = .locking timed)
      (open_ : l.keeper = none) :
      Watching n l { l.watch n (.testing timed) with keeper := some (.thread n) }
  | pass {l : Lobby V} {timed : Bool} {cell : Join V} (at_ : l.vigils n = .testing timed)
      (found : l.cell? = some cell) (told : cell.done = true) :
      Watching n l (l.watch n .answering)
  | stay {l : Lobby V} {timed : Bool} {cell : Join V} (at_ : l.vigils n = .testing timed)
      (found : l.cell? = some cell) (open_ : cell.done = false) :
      Watching n l (l.watch n (.deciding timed))
  /-- The time of the wait is over. -/
  | lapse {l : Lobby V} (at_ : l.vigils n = .deciding true) : Watching n l (l.watch n .answering)
  | sleep {l : Lobby V} {timed : Bool} (at_ : l.vigils n = .deciding timed) :
      Watching n l { l.watch n (.asleep timed false) with keeper := none }
  /-- The thread was notified, its time is over, or it wakes for no reason. -/
  | stir {l : Lobby V} {timed notified : Bool} (at_ : l.vigils n = .asleep timed notified) :
      Watching n l (l.watch n (.locking timed))
  | answer {l : Lobby V} {cell : Join V} (at_ : l.vigils n = .answering)
      (found : l.cell? = some cell) : Watching n l (l.watch n (.leaving cell.done))
  | unlock {l : Lobby V} {answer : Bool} (at_ : l.vigils n = .leaving answer) :
      Watching n l { l.watch n (.returned answer) with keeper := none }
  | take {l : Lobby V} {cell : Join V} (at_ : l.vigils n = .returned true)
      (open_ : l.keeper = none) (found : l.cell? = some cell) :
      Watching n l ((l.collect cell).watch n .away)
  | leave {l : Lobby V} (at_ : l.vigils n = .returned false) : Watching n l (l.watch n .away)

/-- The engine does something that concerns neither the result nor those who wait: their tasks stay
in their incarnation, and nobody but them parks on their axis. -/
structure Aside (l : Lobby V) (e : Engine V) : Prop where
  cell : ∀ cell, l.cell? = some cell → ∃ cell', e.jobs[l.job]? = some cell' ∧
    cell'.result = cell.result ∧ cell'.done = cell.done ∧ cell'.waiters = cell.waiters
  tasks : ∀ t x, (l.visits t).stays = true → l.engine.task? t = some x →
    ∃ y, e.task? t = some y ∧ y.generation = x.generation ∧ y.internal = x.internal

/-- What can happen at once. -/
inductive Step : Lobby V → Lobby V → Prop
  | complete {l l' : Lobby V} (h : Completing l l') : Step l l'
  | visit {l l' : Lobby V} (t : TaskId) (h : Visiting t l l') : Step l l'
  | watch {l l' : Lobby V} (n : Nat) (h : Watching n l l') : Step l l'
  | aside {l : Lobby V} {e : Engine V} (h : l.Aside e) : Step l { l with engine := e }
  /-- Somebody releases a task. -/
  | release {l : Lobby V} (t : TaskId) : Step l (l.touch t (·.release.1))
  /-- A time is over, and a task is freed if it waits. -/
  | free {l : Lobby V} (t : TaskId) : Step l (l.touch t (·.wakeWaiting.1))

/-- What can be reached from work that is not over and that nobody waits for. -/
inductive Reached : Lobby V → Prop
  | start {e : Engine V} {job : JobId} {cell : Join V} (found : e.jobs[job]? = some cell)
      (open_ : cell.done = false) (empty : cell.result = none) : Reached { engine := e, job }
  | step {l l' : Lobby V} (h : Reached l) (s : Step l l') : Reached l'

/-! ## What holds between any two steps -/

/-- What a task relies on as far as it is with its wait: its waker `w` is yet to be used, or its
axis `p` was released already. -/
def Fits (hand : List Waker) (raised : Bool) (w : Waker) (p : Parker) : Visit → Prop
  | .away | .returned _ | .ending _ => True
  | .entering _ | .testing _ | .pushing _ | .resumed _ | .answering => p.isWaiting = false
  | .rechecking _ => p.isWaiting = false ∧ (w ∈ hand ∨ raised = true)
  | .deciding _ => p.isWaiting = false ∧ (w ∈ hand ∨ p = .permitted)
  | .parked _ _ => w ∈ hand ∨ p.isWaiting = false

/-- What a thread relies on as far as it is with its wait. -/
def Waits (f : Finish) : Vigil → Prop
  | .deciding _ => f.hasRaised = false
  | .asleep _ false => f.hasNotified = false
  | .leaving true | .returned true => f.hasRaised = true
  | .away | .entering _ | .locking _ | .testing _ | .asleep _ true | .answering | .leaving false
  | .returned false => True

/-- Those who are yet to be woken. -/
def hand (l : Lobby V) (cell : Join V) : List Waker := l.finish.hand.getD cell.waiters

/-- A task is where it can rely on what it has done. -/
def Housed (l : Lobby V) (cell : Join V) (t : TaskId) : Prop :=
  (l.visits t).stays = true → ∃ x, l.engine.task? t = some x ∧
    Fits (l.hand cell) l.finish.hasRaised ⟨t, x.generation, .internal⟩ x.internal (l.visits t)

structure Sound (l : Lobby V) (cell : Join V) : Prop where
  found : l.cell? = some cell
  done : cell.done = l.finish.hasRaised
  stored : l.stored.isSome = l.finish.hasStored
  /-- Every result that was stored is there or was handed out once. -/
  result : cell.result.toList ++ l.taken = l.stored.toList
  finisher : l.keeper = some .finish ↔ l.finish.holds = true
  threads : ∀ n, l.keeper = some (.thread n) ↔ (l.vigils n).holds = true
  vigils : ∀ n, Waits l.finish (l.vigils n)
  visits : ∀ t, l.Housed cell t
  answers : ∀ t, l.visits t = .returned true → l.finish.hasRaised = true

end Lobby

end GreenThreads

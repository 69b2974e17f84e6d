import GreenThreads.Proofs.Ledger.Work

/-!
# The ledger of an engine

A ledger keeps beside an engine what became of each piece of work: whether it was begun or given up,
how often its result was told, and whether it is over. On the bench are the tasks that have work,
with how far they are.
-/

namespace GreenThreads

/-- How far a task is with its work. -/
inductive Progress where
  /-- It was given the work and has not begun it. -/
  | given
  | running
  /-- It has begun to wait on an axis. -/
  | parked (a : Axis)
  /-- The work has come to its end, and its result was told. -/
  | returned
deriving DecidableEq, Repr

/-- The work has been begun. -/
def Progress.isBegun : Progress → Bool
  | given => false
  | running | parked _ | returned => true

/-- The work has come to its end. -/
def Progress.isReturned : Progress → Bool
  | returned => true
  | given | running | parked _ => false

/-- A task with the work that it has. -/
structure Shift where
  task : TaskId
  job : JobId
  progress : Progress
deriving DecidableEq, Repr

/-- An engine, and what became of the work that it accepted. -/
structure Ledger (V : Type) where
  engine : Engine V
  /-- The tasks that have work. -/
  bench : List Shift := []
  /-- The work that was begun, last first. -/
  ran : List JobId := []
  /-- The work that was given up before it was begun. -/
  abandoned : List JobId := []
  /-- The work whose result was told. -/
  completed : List JobId := []
  /-- The work that is not outstanding any more. -/
  settled : List JobId := []

namespace Engine

variable {V : Type}

/-- Whether work is not worth beginning: it was cancelled before, or its group is gone. -/
def isMoot (e : Engine V) (s : Submission) : Bool :=
  (e.jobs[s.job]?.map (·.cancelRequested)).getD false || e.isGone s.group

/-- The work that a task was last given. -/
def jobOf (e : Engine V) (t : TaskId) : Option JobId := (e.task? t).bind (·.job)

end Engine

namespace Ledger

variable {V : Type}

/-- A task gets on with its work. -/
def advance (l : Ledger V) (s : Shift) (p : Progress) : Ledger V :=
  { l with bench := { s with progress := p } :: l.bench.erase s }

/-- What can happen to the work of an engine. The steps of a task are taken while it is current on a
carrier. -/
inductive Step : Ledger V → Ledger V → Prop
  /-- Anything that leaves the work where it is, and no task begins to wait. -/
  | other {l : Ledger V} {e : Engine V} (h : l.engine.SameWork e) : Step l { l with engine := e }
  | submit {l : Ledger V} (caller : Option TaskId) (name : String) (group : Option GroupId) :
      Step l { l with engine := (l.engine.submit caller name group).1 }
  | shutdown {l : Ledger V} (caller : Option TaskId) :
      Step l { l with engine := (l.engine.shutdown caller).1 }
  /-- Work that was taken out of a run queue is given up. -/
  | abandon {l : Ledger V} {c : Nat} {s : Submission} {e : Engine V} (now : Nanos)
      (taken : l.engine.Taken c (.start s) e) (moot : e.isMoot s = true) :
      Step l { l with
        engine := e.begin now c s
        abandoned := s.job :: l.abandoned
        completed := s.job :: l.completed
        settled := s.job :: l.settled }
  /-- Work that was taken out of a run queue is given to a task. -/
  | start {l : Ledger V} {c : Nat} {s : Submission} {e : Engine V} (now : Nanos)
      (carrier : c < l.engine.carriers.size) (taken : l.engine.Taken c (.start s) e)
      (sound : e.isMoot s = false) :
      Step l { l with
        engine := e.begin now c s
        bench := ⟨(e.obtain c).2, s.job, .given⟩ :: l.bench }
  | run {l : Ledger V} {c : Nat} {s : Shift} {j : JobId} (on : s ∈ l.bench)
      (at_ : l.engine.current? c = some s.task) (progress : s.progress = .given)
      (work : l.engine.jobOf s.task = some j) :
      Step l { l.advance s .running with ran := j :: l.ran }
  | park {l : Ledger V} {c : Nat} {s : Shift} {x : Task} {a : Axis} {native : Bool} {p : Parker}
      (on : s ∈ l.bench) (at_ : l.engine.current? c = some s.task)
      (progress : s.progress = .running) (found : l.engine.task? s.task = some x)
      (h : (x.parker a).begin native = .ok (p, true)) :
      Step l { l.advance s (.parked a) with
        engine := l.engine.updateTask s.task (·.setParker a p) }
  | endPark {l : Ledger V} {c : Nat} {s : Shift} {a : Axis} (on : s ∈ l.bench)
      (at_ : l.engine.current? c = some s.task) (progress : s.progress = .parked a) :
      Step l { l.advance s .running with
        engine := l.engine.updateTask s.task fun x => x.setParker a (x.parker a).finish }
  /-- The work ends, with a value or unwound, and its result is told. -/
  | finish {l : Ledger V} {c : Nat} {s : Shift} {j : JobId} (now : Nanos)
      (outcome : Except Unwind V) (on : s ∈ l.bench) (at_ : l.engine.current? c = some s.task)
      (progress : s.progress = .running) (work : l.engine.jobOf s.task = some j) :
      Step l { l.advance s .returned with
        engine := l.engine.finishJob now j outcome
        completed := j :: l.completed }
  | exit {l : Ledger V} {c : Nat} {s : Shift} {j : JobId} (now : Nanos) (on : s ∈ l.bench)
      (at_ : l.engine.current? c = some s.task) (progress : s.progress = .returned)
      (work : l.engine.jobOf s.task = some j) :
      Step l { l with
        engine := l.engine.exit now c s.task
        bench := l.bench.erase s
        settled := j :: l.settled }
  /-- A task that is kept in a pool is destroyed. -/
  | scrap {l : Ledger V} {t : TaskId} {e : Engine V} (h : l.engine.Popped t e) :
      Step l { l with engine := e.updateTask t Task.discard }

/-- What can be reached from an engine that starts. -/
inductive Reached : Ledger V → Prop
  | start {config : Config} {processors : Nat} {groups : List ControlGroup} {pump : EventPump}
      {e : Engine V} (h : Engine.start config processors groups pump = .ok e) :
      Reached { engine := e }
  | step {l l' : Ledger V} (h : Reached l) (s : Step l l') : Reached l'

end Ledger

end GreenThreads

import GreenThreads.Proofs.Engine.Frame

/-!
# The floor of an engine

Several carriers work at the same time, and so do threads from outside. Here the operations of an
engine are taken apart into the steps between which others can come in. The floor is the engine
together with what everybody has in hand between two steps: a carrier has an entry that it took, or
the task that it is about to switch to; whoever freed a waiter has yet to wake it; and whoever
polled a timer queue has timeouts to fire.

A step is bound by nothing that is not needed: a carrier may give up a task at any time, a quota may
run out at any time, and anybody may release any axis of any task.
-/

namespace GreenThreads

/-- How far a carrier is. -/
inductive Phase where
  /-- It has nothing in hand. -/
  | looking
  /-- It has taken an entry out of a run queue. -/
  | holding (r : Runnable)
  /-- It has obtained a task for new work. -/
  | readying (t : TaskId) (s : Submission)
  /-- It is about to switch to a task. -/
  | resuming (t : TaskId)
  /-- The task runs. -/
  | working (t : TaskId)
  /-- The task blocks it on an axis. -/
  | blocked (t : TaskId) (a : Axis)
  /-- The task is about to give it away, after it began to wait on an axis, or else because it
  yielded or is over. -/
  | leaving (t : TaskId) (parked : Option Axis)
  /-- The task has switched out, and what that entails is not done yet. -/
  | settling
deriving DecidableEq

/-- An engine, and what is in hand between two steps. -/
structure Floor (V : Type) where
  engine : Engine V
  /-- How far each carrier is. -/
  phases : Array Phase
  /-- The tasks that somebody has to wake. -/
  freed : List TaskId := []
  /-- The timeouts that somebody has to fire. -/
  due : List TimeoutRef := []

/-- A task that has given its carrier away. A destroyed one loses its context. -/
def Task.switchedOut (t : Task) : Task :=
  { t with
    locked := false
    context := if t.status = .dead then .absent else t.context }

namespace Engine

variable {V : Type}

/-- Carrier `c` is free of the task `t`, which has switched out. -/
def vacate (e : Engine V) (c : Nat) (t : TaskId) : Engine V :=
  (e.updateCarrier c ({ · with current := none, state := .idle })).updateTask t Task.switchedOut

/-- Disarms the timeout of a task, also if somebody is about to fire it. -/
def withdraw (e : Engine V) (t : TaskId) (due : List TimeoutRef) : Engine V :=
  match e.task? t with
  | none => e
  | some task =>
    match task.timeout with
    | none => e
    | some r =>
      let e' := e.updateTask t fun task => task.takeTimeout.1
      if e.holdsTimeout r || due.contains r then
        (e'.updateTimers r.owner
          (·.cancel r.number (r.owner != preciseOwner && task.carrier == some r.owner))).count
          .timersCancelled
      else e'

/-- With nothing in hand this is how a timeout is disarmed. -/
theorem withdraw_nil (e : Engine V) (t : TaskId) : e.withdraw t [] = e.disarm t := by
  cases hx : e.task? t with
  | none => simp only [withdraw, disarm, hx]
  | some x =>
    cases hr : x.timeout with
    | none => simp only [withdraw, disarm, hx, hr]
    | some r => simp only [withdraw, disarm, hx, hr, List.contains_nil, Bool.or_false]

/-- An entry that carrier `c` may take out of a run queue. -/
inductive Taken (e : Engine V) (c : Nat) : Runnable → Engine V → Prop
  | own {r : Runnable} {e' : Engine V} (h : e.dequeue? c = some (r, e')) : Taken e c r e'
  | shared {r : Runnable} {e' : Engine V} (pulls : e.config.placement = .pull)
      (h : e.dequeueShared? = some (r, e')) : Taken e c r e'
  | stolen {i : Nat} {r : Runnable} {e' : Engine V} (pulls : e.config.placement = .pull)
      (runs : e.draining = false) (h : e.dequeue? i = some (r, e')) : Taken e c r e'

/-- A task that may be taken out of a pool. -/
inductive Popped (e : Engine V) : TaskId → Engine V → Prop
  | own {i : Nat} {t : TaskId} {e' : Engine V} (h : e.popPooled? i = some (t, e')) : Popped e t e'
  | shared {t : TaskId} {pool : Pool} (h : e.pool.pop? = some (t, pool)) :
      Popped e t { e with pool }

end Engine

namespace Floor

variable {V : Type}

/-- Nobody has anything in hand. -/
def quiet (e : Engine V) : Floor V :=
  { engine := e, phases := Array.replicate e.carriers.size .looking }

/-- Carrier `c` gets on to another phase. -/
def move (f : Floor V) (c : Nat) (p : Phase) (e : Engine V) : Floor V :=
  { f with engine := e, phases := f.phases.modify c fun _ => p }

/-- Those who have to be woken after a release. -/
def freedBy (f : Floor V) (t : TaskId) : Released → List TaskId
  | .cooperative => t :: f.freed
  | .native | .permit => f.freed

/-- What can happen at once. -/
inductive Step : Floor V → Floor V → Prop
  /-- Anything that has no part in the hand-over of tasks. -/
  | other {f : Floor V} {e : Engine V} (h : f.engine.Frame e) : Step f { f with engine := e }
  -- Dispatch of an entry
  | take {f : Floor V} {c : Nat} {r : Runnable} {e : Engine V} (at_ : f.phases[c]? = some .looking)
      (h : f.engine.Taken c r e) : Step f (f.move c (.holding r) e)
  /-- Work that was cancelled before it started. -/
  | abandon {f : Floor V} {c : Nat} {s : Submission}
      (at_ : f.phases[c]? = some (.holding (.start s))) : Step f (f.move c .looking f.engine)
  | obtainPooled {f : Floor V} {c : Nat} {s : Submission} {t : TaskId} {e : Engine V}
      (at_ : f.phases[c]? = some (.holding (.start s))) (h : f.engine.Popped t e) :
      Step f (f.move c (.readying t s) e)
  | obtainFresh {f : Floor V} {c : Nat} {s : Submission}
      (at_ : f.phases[c]? = some (.holding (.start s))) :
      Step f (f.move c (.readying f.engine.makeTask.2 s) f.engine.makeTask.1)
  | assign {f : Floor V} {c : Nat} {s : Submission} {t : TaskId}
      (at_ : f.phases[c]? = some (.readying t s)) :
      Step f (f.move c (.resuming t) (f.engine.assign c t s))
  /-- The mark of the entry is taken from the task. -/
  | unmark {f : Floor V} {c : Nat} {t : TaskId}
      (at_ : f.phases[c]? = some (.holding (.resume t))) :
      Step f (f.move c (.resuming t) (f.engine.updateTask t ({ · with enqueued := false })))
  -- Switching to a task
  /-- The check at the head of a resumption fails. -/
  | refuse {f : Floor V} {c : Nat} {t : TaskId} {x : Task}
      (at_ : f.phases[c]? = some (.resuming t)) (found : f.engine.task? t = some x)
      (ended : x.status ≠ .alive) :
      Step f (f.move c .looking (f.engine.blame (.resumeNotAlive t)))
  | steal {f : Floor V} {c : Nat} {t : TaskId} {x : Task} {e : Engine V}
      (at_ : f.phases[c]? = some (.resuming t)) (found : f.engine.task? t = some x)
      (foreign : x.carrier ≠ some c) (h : f.engine.steal? c x = some e) :
      Step f { f with engine := e }
  /-- The task could not be moved, or its lock was not free. -/
  | giveUp {f : Floor V} {c : Nat} {t : TaskId} (at_ : f.phases[c]? = some (.resuming t)) :
      Step f { f.move c .looking f.engine with freed := t :: f.freed }
  /-- The group of the task is out of quota. -/
  | throttle {f : Floor V} {c : Nat} {t : TaskId} (now deadline : Nanos)
      (at_ : f.phases[c]? = some (.resuming t)) :
      Step f (f.move c .looking (f.engine.arm now c t deadline .resume false))
  | switchIn {f : Floor V} {c : Nat} {t : TaskId} {x : Task} (now : Nanos)
      (at_ : f.phases[c]? = some (.resuming t)) (found : f.engine.task? t = some x)
      (own : x.carrier = some c) (free : x.locked = false) :
      Step f (f.move c (.working t) (f.engine.switchIn now c t))
  -- The running task
  | park {f : Floor V} {c : Nat} {t : TaskId} {x : Task} {a : Axis} {p : Parker}
      (at_ : f.phases[c]? = some (.working t)) (found : f.engine.task? t = some x)
      (h : (x.parker a).begin false = .ok (p, true)) :
      Step f (f.move c (.leaving t (some a)) (f.engine.updateTask t (·.setParker a p)))
  /-- In a critical section. -/
  | block {f : Floor V} {c : Nat} {t : TaskId} {x : Task} {a : Axis} {p : Parker}
      (at_ : f.phases[c]? = some (.working t)) (found : f.engine.task? t = some x)
      (h : (x.parker a).begin true = .ok (p, true)) :
      Step f (f.move c (.blocked t a) (f.engine.updateTask t (·.setParker a p)))
  /-- A park consumes a permit. -/
  | permit {f : Floor V} {c : Nat} {t : TaskId} {x : Task} {a : Axis} {native : Bool} {p : Parker}
      (at_ : f.phases[c]? = some (.working t)) (found : f.engine.task? t = some x)
      (h : (x.parker a).begin native = .ok (p, false)) :
      Step f { f with engine := f.engine.updateTask t (·.setParker a p) }
  | refusePark {f : Floor V} {c : Nat} {t : TaskId} {x : Task} {a : Axis} {native : Bool}
      {y : Fault} (at_ : f.phases[c]? = some (.working t)) (found : f.engine.task? t = some x)
      (h : (x.parker a).begin native = .error y) : Step f { f with engine := f.engine.blame y }
  /-- A park of the running task is over. -/
  | endPark {f : Floor V} {c : Nat} {t : TaskId} (a : Axis)
      (at_ : f.phases[c]? = some (.working t)) :
      Step f { f with
        engine := f.engine.updateTask t fun x => x.setParker a (x.parker a).finish }
  /-- A park that blocked the carrier is over, whether or not the axis was released. -/
  | unblock {f : Floor V} {c : Nat} {t : TaskId} {a : Axis}
      (at_ : f.phases[c]? = some (.blocked t a)) :
      Step f (f.move c (.working t)
        (f.engine.updateTask t fun x => x.setParker a (x.parker a).finish))
  /-- The timeout of a park. -/
  | arm {f : Floor V} {c : Nat} {t : TaskId} {a : Axis} (now deadline : Nanos)
      (at_ : f.phases[c]? = some (.leaving t (some a))) :
      Step f { f with engine := f.engine.arm now c t deadline (.wakeCooperative a) true }
  | armBlocked {f : Floor V} {c : Nat} {t : TaskId} {a : Axis} (now deadline : Nanos)
      (at_ : f.phases[c]? = some (.blocked t a)) :
      Step f { f with engine := f.engine.arm now c t deadline (.wakeNative a) true }
  | disarm {f : Floor V} {c : Nat} {t : TaskId} {p : Phase} (at_ : f.phases[c]? = some p)
      (busy : p = .resuming t ∨ p = .working t ∨ ∃ a, p = .blocked t a) :
      Step f { f with engine := f.engine.withdraw t f.due }
  | yield {f : Floor V} {c : Nat} {t : TaskId} (at_ : f.phases[c]? = some (.working t)) :
      Step f (f.move c (.leaving t none) (f.engine.updateCarrier c (·.deferWake t)))
  /-- The work of the task is over. -/
  | retire {f : Floor V} {c : Nat} {t : TaskId} (at_ : f.phases[c]? = some (.working t)) :
      Step f (f.move c (.leaving t none) (f.engine.recycle c t))
  -- Switching out
  | leave {f : Floor V} {c : Nat} {t : TaskId} {parked : Option Axis}
      (at_ : f.phases[c]? = some (.leaving t parked)) :
      Step f (f.move c .settling (f.engine.vacate c t))
  /-- A precise timeout of the task becomes pending. -/
  | register {f : Floor V} {c k : Nat} {x : Carrier} {ks : List Nat}
      (at_ : f.phases[c]? = some .settling) (found : f.engine.carriers[c]? = some x)
      (h : x.pendingPrecise = k :: ks) :
      Step f { f with
        engine := (f.engine.updateCarrier c ({ · with pendingPrecise := ks })).register
          ⟨Engine.preciseOwner, k⟩ }
  /-- A task that yielded is to be woken. -/
  | undefer {f : Floor V} {c : Nat} {t : TaskId} {x : Carrier}
      (at_ : f.phases[c]? = some .settling) (found : f.engine.carriers[c]? = some x)
      (h : x.deferred = some t) :
      Step f { f with
        engine := f.engine.updateCarrier c ({ · with deferred := none })
        freed := t :: f.freed }
  | settle {f : Floor V} {c : Nat} {x : Carrier} (at_ : f.phases[c]? = some .settling)
      (found : f.engine.carriers[c]? = some x) (registered : x.pendingPrecise = [])
      (woken : x.deferred = none) : Step f (f.move c .looking f.engine)
  -- Wakes
  /-- An axis of a task is released: by an unparker, a cancellation, a drain, a channel, a result,
  or a timeout. -/
  | release {f : Floor V} {t : TaskId} {x : Task} (a : Axis) (found : f.engine.task? t = some x) :
      Step f { f with
        engine := f.engine.updateTask t fun _ => (x.release a).1
        freed := f.freedBy t (x.release a).2 }
  | wake {f : Floor V} {t : TaskId} (now : Nanos) (h : t ∈ f.freed) :
      Step f { f with engine := f.engine.wake now t, freed := f.freed.erase t }
  -- Timers
  | poll {f : Floor V} {owner : Nat} {q : TimerQueue} (now : Nanos)
      (found : f.engine.timersOf owner = some q) :
      Step f { f with
        engine := f.engine.updateTimers owner fun _ => (q.poll now).1
        due := ((q.poll now).2.map fun number => { owner, number }) ++ f.due }
  /-- A timeout was cancelled after it was taken out. -/
  | lapse {f : Floor V} {r : TimeoutRef} {y : Timeout} (h : r ∈ f.due)
      (found : f.engine.timeout? r = some y) (cancelled : y.cancelled = true) :
      Step f { f with due := f.due.erase r }
  /-- A timeout fires. If it is that of a park, the axis may be released thereafter. -/
  | fire {f : Floor V} {r : TimeoutRef} {y : Timeout} (h : r ∈ f.due)
      (found : f.engine.timeout? r = some y) (valid : y.cancelled = false) :
      Step f { f with
        engine := (f.engine.count .timersFired).updateTask y.task (·.clearTimeoutIf r)
        freed := if y.action = .resume then y.task :: f.freed else f.freed
        due := f.due.erase r }
  -- The end of a carrier
  | scrap {f : Floor V} {t : TaskId} {e : Engine V} (h : f.engine.Popped t e) :
      Step f { f with engine := e.updateTask t Task.discard }

/-- What can be reached from an engine that starts. -/
inductive Reached : Floor V → Prop
  | start {config : Config} {processors : Nat} {groups : List ControlGroup} {pump : EventPump}
      {e : Engine V} (h : Engine.start config processors groups pump = .ok e) : Reached (quiet e)
  | step {f f' : Floor V} (h : Reached f) (s : Step f f') : Reached f'

end Floor

end GreenThreads

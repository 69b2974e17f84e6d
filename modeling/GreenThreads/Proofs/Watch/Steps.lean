import GreenThreads.Proofs.Watch.Clockwork

/-!
# Parks and their timeouts

A task that parks for a bounded time arms a timeout, gives its carrier away or blocks it, ends the
park and disarms. A carrier that finds a task out of quota disarms it, and arms a timeout that
resumes it later; and a task whose work is over disarms before it is kept for reuse. Between any two
of these steps all others can do theirs: axes are released, timers are polled, and what is due is
fired, also when it was taken out long before.

A watch is a floor with what its tasks are doing about parks. It remembers for which park each
timeout was armed, and which timeouts were fired; nothing of an engine is decided by these two.
-/

namespace GreenThreads

/-- A park of a task. -/
structure Park where
  task : TaskId
  /-- The incarnation that parks. -/
  generation : Nat
  axis : Axis
  /-- How many parks have begun before. -/
  number : Nat
deriving DecidableEq, Repr

/-- What a task is doing about parks. -/
inductive Stance where
  /-- It is in no park. -/
  | idle
  /-- A park has begun, and its timeout is to be armed. -/
  | arming (p : Park)
  /-- A park has begun and is not over; `timed` if it armed a timeout that the task has not
  disarmed. -/
  | parked (p : Park) (timed : Bool)
  /-- A park is over, and its timeout is to be disarmed. -/
  | ended (p : Park)
  /-- Its work is over, and it has disarmed. -/
  | finished
deriving DecidableEq, Repr

/-- The park that the task is in or has just ended. -/
def Stance.park? : Stance → Option Park
  | arming p | parked p _ | ended p => some p
  | idle | finished => none

namespace Engine

variable {V : Type}

/-- Nothing changes that concerns the hand-over of tasks, their incarnations or their timeouts. -/
structure Aloof (e e' : Engine V) : Prop extends Frame e e' where
  generations : e'.tasks.map (·.generation) = e.tasks.map (·.generation)
  reckoning : e'.reckoning = e.reckoning

end Engine

namespace Floor

variable {V : Type}

/-- Steps that have no part in a park or in the timers. A task that a carrier is about to hold back,
as `held` says, is neither moved nor switched to. -/
inductive Plain (held : TaskId → Bool) : Floor V → Floor V → Prop
  | other {f : Floor V} {e : Engine V} (h : f.engine.Aloof e) : Plain held f { f with engine := e }
  | take {f : Floor V} {c : Nat} {r : Runnable} {e : Engine V} (at_ : f.phases[c]? = some .looking)
      (h : f.engine.Taken c r e) : Plain held f (f.move c (.holding r) e)
  | abandon {f : Floor V} {c : Nat} {s : Submission}
      (at_ : f.phases[c]? = some (.holding (.start s))) :
      Plain held f (f.move c .looking f.engine)
  | obtainPooled {f : Floor V} {c : Nat} {s : Submission} {t : TaskId} {e : Engine V}
      (at_ : f.phases[c]? = some (.holding (.start s))) (h : f.engine.Popped t e) :
      Plain held f (f.move c (.readying t s) e)
  | obtainFresh {f : Floor V} {c : Nat} {s : Submission}
      (at_ : f.phases[c]? = some (.holding (.start s))) :
      Plain held f (f.move c (.readying f.engine.makeTask.2 s) f.engine.makeTask.1)
  | assign {f : Floor V} {c : Nat} {s : Submission} {t : TaskId}
      (at_ : f.phases[c]? = some (.readying t s)) :
      Plain held f (f.move c (.resuming t) (f.engine.assign c t s))
  | unmark {f : Floor V} {c : Nat} {t : TaskId}
      (at_ : f.phases[c]? = some (.holding (.resume t))) :
      Plain held f (f.move c (.resuming t) (f.engine.updateTask t ({ · with enqueued := false })))
  | refuse {f : Floor V} {c : Nat} {t : TaskId} {x : Task}
      (at_ : f.phases[c]? = some (.resuming t)) (found : f.engine.task? t = some x)
      (ended : x.status ≠ .alive) :
      Plain held f (f.move c .looking (f.engine.blame (.resumeNotAlive t)))
  | steal {f : Floor V} {c : Nat} {t : TaskId} {x : Task} {e : Engine V}
      (at_ : f.phases[c]? = some (.resuming t)) (kept : held t = false)
      (found : f.engine.task? t = some x) (foreign : x.carrier ≠ some c)
      (h : f.engine.steal? c x = some e) : Plain held f { f with engine := e }
  | giveUp {f : Floor V} {c : Nat} {t : TaskId} (at_ : f.phases[c]? = some (.resuming t))
      (kept : held t = false) :
      Plain held f { f.move c .looking f.engine with freed := t :: f.freed }
  | switchIn {f : Floor V} {c : Nat} {t : TaskId} {x : Task} (now : Nanos)
      (at_ : f.phases[c]? = some (.resuming t)) (kept : held t = false)
      (found : f.engine.task? t = some x) (own : x.carrier = some c) (free : x.locked = false) :
      Plain held f (f.move c (.working t) (f.engine.switchIn now c t))
  | permit {f : Floor V} {c : Nat} {t : TaskId} {x : Task} {a : Axis} {native : Bool} {p : Parker}
      (at_ : f.phases[c]? = some (.working t)) (found : f.engine.task? t = some x)
      (h : (x.parker a).begin native = .ok (p, false)) :
      Plain held f { f with engine := f.engine.updateTask t (·.setParker a p) }
  | refusePark {f : Floor V} {c : Nat} {t : TaskId} {x : Task} {a : Axis} {native : Bool}
      {y : Fault} (at_ : f.phases[c]? = some (.working t)) (found : f.engine.task? t = some x)
      (h : (x.parker a).begin native = .error y) :
      Plain held f { f with engine := f.engine.blame y }
  | undefer {f : Floor V} {c : Nat} {t : TaskId} {x : Carrier}
      (at_ : f.phases[c]? = some .settling) (found : f.engine.carriers[c]? = some x)
      (h : x.deferred = some t) :
      Plain held f { f with
        engine := f.engine.updateCarrier c ({ · with deferred := none })
        freed := t :: f.freed }
  | settle {f : Floor V} {c : Nat} {x : Carrier} (at_ : f.phases[c]? = some .settling)
      (found : f.engine.carriers[c]? = some x) (registered : x.pendingPrecise = [])
      (woken : x.deferred = none) : Plain held f (f.move c .looking f.engine)
  | release {f : Floor V} {t : TaskId} {x : Task} (a : Axis) (found : f.engine.task? t = some x) :
      Plain held f { f with
        engine := f.engine.updateTask t fun _ => (x.release a).1
        freed := f.freedBy t (x.release a).2 }
  | wake {f : Floor V} {t : TaskId} (now : Nanos) (h : t ∈ f.freed) :
      Plain held f { f with engine := f.engine.wake now t, freed := f.freed.erase t }
  | scrap {f : Floor V} {t : TaskId} {e : Engine V} (h : f.engine.Popped t e) :
      Plain held f { f with engine := e.updateTask t Task.discard }

theorem Plain.step {held : TaskId → Bool} {f f' : Floor V} (h : f.Plain held f') : Step f f' := by
  cases h with
  | other ha => exact .other ha.toFrame
  | take hp h => exact .take hp h
  | abandon hp => exact .abandon hp
  | obtainPooled hp h => exact .obtainPooled hp h
  | obtainFresh hp => exact .obtainFresh hp
  | assign hp => exact .assign hp
  | unmark hp => exact .unmark hp
  | refuse hp hx hended => exact .refuse hp hx hended
  | steal hp _ hx hforeign h => exact .steal hp hx hforeign h
  | giveUp hp _ => exact .giveUp hp
  | switchIn now hp _ hx hown hfree => exact .switchIn now hp hx hown hfree
  | permit hp hx h => exact .permit hp hx h
  | refusePark hp hx h => exact .refusePark hp hx h
  | undefer hp hx h => exact .undefer hp hx h
  | settle hp hx hr hw => exact .settle hp hx hr hw
  | release a hx => exact .release a hx
  | wake now h => exact .wake now h
  | scrap h => exact .scrap h

end Floor

/-- An engine at work, with what its tasks are doing about parks. -/
structure Watch (V : Type) where
  floor : Floor V
  stance : TaskId → Stance := fun _ => .idle
  /-- The tasks that a carrier has disarmed because they are out of quota, and is about to hold
  back. -/
  withheld : TaskId → Bool := fun _ => false
  /-- The park that a timeout was armed for. -/
  purpose : TimeoutRef → Option Park := fun _ => none
  /-- The timeouts that were fired, last first. -/
  fired : List TimeoutRef := []
  /-- How many parks have begun. -/
  parks : Nat := 0

namespace Watch

variable {V : Type}

/-- The timeouts that were armed and neither fired nor cancelled. -/
def pending (w : Watch V) : Set TimeoutRef := w.floor.engine.toCome w.fired

/-- Those of one task. -/
def live (w : Watch V) (t : TaskId) : Set TimeoutRef :=
  { r ∈ w.pending | ∃ y, w.floor.engine.timeout? r = some y ∧ y.task = t }

/-- A task gets on with its parks. -/
def turn (w : Watch V) (t : TaskId) (n : Stance) (f : Floor V) : Watch V :=
  { w with floor := f, stance := Function.update w.stance t n }

/-- A task begins a park. -/
def enter (w : Watch V) (p : Park) (timed : Bool) (f : Floor V) : Watch V :=
  { w.turn p.task (if timed then .arming p else .parked p false) f with parks := w.parks + 1 }

/-- A timeout is armed for a park: the one that the task knows then. -/
def armed (w : Watch V) (p : Park) (f : Floor V) : Watch V :=
  { w.turn p.task (.parked p true) f with
    purpose := fun r => if f.engine.slot p.task = some r then some p else w.purpose r }

/-- What can happen at once. -/
inductive Step : Watch V → Watch V → Prop
  | plain {w : Watch V} {f : Floor V} (h : w.floor.Plain w.withheld f) :
      Step w { w with floor := f }
  -- Parks
  /-- A task begins to wait and is about to give its carrier away. -/
  | park {w : Watch V} {c : Nat} {t : TaskId} {x : Task} {a : Axis} {q : Parker} (timed : Bool)
      (at_ : w.floor.phases[c]? = some (.working t)) (ready : w.stance t = .idle)
      (found : w.floor.engine.task? t = some x) (h : (x.parker a).begin false = .ok (q, true)) :
      Step w (w.enter ⟨t, x.generation, a, w.parks⟩ timed
        (w.floor.move c (.leaving t (some a)) (w.floor.engine.updateTask t (·.setParker a q))))
  /-- In a critical section. -/
  | block {w : Watch V} {c : Nat} {t : TaskId} {x : Task} {a : Axis} {q : Parker} (timed : Bool)
      (at_ : w.floor.phases[c]? = some (.working t)) (ready : w.stance t = .idle)
      (found : w.floor.engine.task? t = some x) (h : (x.parker a).begin true = .ok (q, true)) :
      Step w (w.enter ⟨t, x.generation, a, w.parks⟩ timed
        (w.floor.move c (.blocked t a) (w.floor.engine.updateTask t (·.setParker a q))))
  | arm {w : Watch V} {c : Nat} {p : Park} (now deadline : Nanos)
      (at_ : w.floor.phases[c]? = some (.leaving p.task (some p.axis)))
      (ready : w.stance p.task = .arming p) :
      Step w (w.armed p { w.floor with
        engine := w.floor.engine.arm now c p.task deadline (.wakeCooperative p.axis) true })
  | armBlocked {w : Watch V} {c : Nat} {p : Park} (now deadline : Nanos)
      (at_ : w.floor.phases[c]? = some (.blocked p.task p.axis))
      (ready : w.stance p.task = .arming p) :
      Step w (w.armed p { w.floor with
        engine := w.floor.engine.arm now c p.task deadline (.wakeNative p.axis) true })
  /-- A bounded park arms its timeout before the task gives its carrier away. -/
  | leave {w : Watch V} {c : Nat} {t : TaskId} {axis : Option Axis}
      (at_ : w.floor.phases[c]? = some (.leaving t axis)) (ready : ∀ p, w.stance t ≠ .arming p) :
      Step w { w with floor := w.floor.move c .settling (w.floor.engine.vacate c t) }
  | endPark {w : Watch V} {c : Nat} {t : TaskId} {p : Park} {timed : Bool}
      (at_ : w.floor.phases[c]? = some (.working t)) (ready : w.stance t = .parked p timed) :
      Step w (w.turn t (if timed then .ended p else .idle) { w.floor with
        engine := w.floor.engine.updateTask t fun x =>
          x.setParker p.axis (x.parker p.axis).finish })
  | disarm {w : Watch V} {c : Nat} {t : TaskId} {p : Park}
      (at_ : w.floor.phases[c]? = some (.working t)) (ready : w.stance t = .ended p) :
      Step w (w.turn t .idle { w.floor with engine := w.floor.engine.withdraw t w.floor.due })
  /-- A task that blocks its carrier disarms before it ends the park. -/
  | disarmBlocked {w : Watch V} {c : Nat} {t : TaskId} {p : Park}
      (at_ : w.floor.phases[c]? = some (.blocked t p.axis)) (ready : w.stance t = .parked p true) :
      Step w (w.turn t (.parked p false) { w.floor with
        engine := w.floor.engine.withdraw t w.floor.due })
  | unblock {w : Watch V} {c : Nat} {t : TaskId} {p : Park}
      (at_ : w.floor.phases[c]? = some (.blocked t p.axis)) (ready : w.stance t = .parked p false) :
      Step w (w.turn t .idle (w.floor.move c (.working t)
        (w.floor.engine.updateTask t fun x => x.setParker p.axis (x.parker p.axis).finish)))
  | yield {w : Watch V} {c : Nat} {t : TaskId} (at_ : w.floor.phases[c]? = some (.working t))
      (ready : w.stance t = .idle) :
      Step w { w with
        floor := w.floor.move c (.leaving t none) (w.floor.engine.updateCarrier c (·.deferWake t)) }
  -- The end of the work of a task, also when it is unwound out of a park
  | exit {w : Watch V} {c : Nat} {t : TaskId} (at_ : w.floor.phases[c]? = some (.working t)) :
      Step w (w.turn t .finished { w.floor with engine := w.floor.engine.withdraw t w.floor.due })
  | retire {w : Watch V} {c : Nat} {t : TaskId} (at_ : w.floor.phases[c]? = some (.working t))
      (ready : w.stance t = .finished) :
      Step w (w.turn t .idle (w.floor.move c (.leaving t none) (w.floor.engine.recycle c t)))
  -- A task that is out of quota
  | withhold {w : Watch V} {c : Nat} {t : TaskId} {x : Task}
      (at_ : w.floor.phases[c]? = some (.resuming t)) (found : w.floor.engine.task? t = some x)
      (own : x.carrier = some c) :
      Step w { w with
        floor := { w.floor with engine := w.floor.engine.withdraw t w.floor.due }
        withheld := Function.update w.withheld t true }
  | throttle {w : Watch V} {c : Nat} {t : TaskId} (now deadline : Nanos)
      (at_ : w.floor.phases[c]? = some (.resuming t)) (ready : w.withheld t = true) :
      Step w { w with
        floor := w.floor.move c .looking (w.floor.engine.arm now c t deadline .resume false)
        withheld := Function.update w.withheld t false }
  -- Timers
  | register {w : Watch V} {c k : Nat} {x : Carrier} {ks : List Nat}
      (at_ : w.floor.phases[c]? = some .settling) (found : w.floor.engine.carriers[c]? = some x)
      (h : x.pendingPrecise = k :: ks) :
      Step w { w with floor := { w.floor with
        engine := (w.floor.engine.updateCarrier c ({ · with pendingPrecise := ks })).register
          ⟨Engine.preciseOwner, k⟩ } }
  | poll {w : Watch V} {owner : Nat} {q : TimerQueue} (now : Nanos)
      (found : w.floor.engine.timersOf owner = some q) :
      Step w { w with floor := { w.floor with
        engine := w.floor.engine.updateTimers owner fun _ => (q.poll now).1
        due := ((q.poll now).2.map fun number => { owner, number }) ++ w.floor.due } }
  /-- A timeout that was cancelled after it was taken out does nothing. -/
  | lapse {w : Watch V} {r : TimeoutRef} {y : Timeout} (h : r ∈ w.floor.due)
      (found : w.floor.engine.timeout? r = some y) (cancelled : y.cancelled = true) :
      Step w { w with floor := { w.floor with due := w.floor.due.erase r } }
  | fire {w : Watch V} {r : TimeoutRef} {y : Timeout} (now : Nanos) (h : r ∈ w.floor.due)
      (found : w.floor.engine.timeout? r = some y) (valid : y.cancelled = false) :
      Step w { w with
        floor := { w.floor with
          engine := w.floor.engine.fire now r
          due := w.floor.due.erase r }
        fired := r :: w.fired }

/-- What can be reached from an engine that starts. -/
inductive Reached : Watch V → Prop
  | start {config : Config} {processors : Nat} {groups : List ControlGroup} {pump : EventPump}
      {e : Engine V} (h : Engine.start config processors groups pump = .ok e) :
      Reached { floor := Floor.quiet e }
  | step {w w' : Watch V} (h : Reached w) (s : Step w w') : Reached w'

end Watch

end GreenThreads

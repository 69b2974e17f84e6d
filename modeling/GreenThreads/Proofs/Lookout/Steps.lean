import GreenThreads.Engine.Dispatch
import GreenThreads.Proofs.Engine.Tasks
import Mathlib.Data.Set.Card

/-!
# Waits for channels

A task that waits for a channel drops the readiness that it has seen before, registers for the
channel, parks, takes what it has seen, and gives the registration back. A task that is unwound out
of this keeps its registration until it parks for something else, waits for a channel again, or is
done with its work. Polls come in between at any time, each in one piece.

A lookout is an engine together with what each of its tasks is doing about such a wait. It remembers
which signals the polls took meanwhile; nothing of the engine is decided by that.
-/

namespace GreenThreads

/-- The conditions of a readiness mask are among these. -/
def Interest.Covers (i : Interest) (mask : UInt8) : Prop :=
  ∀ k, mask.toNat.testBit k = true → i.mask.testBit k = true

/-- All that the pending signals say about a channel. -/
def ManualPump.signalled (p : ManualPump) (c : Channel) : Interest :=
  p.signals.foldr (fun s i => if s.1 = c then s.2.union i else i) .none

namespace EventPump

/-- All that the pending signals say about a channel. -/
def signalled (c : Channel) : EventPump → Interest
  | absent => .none
  | manual p => p.signalled c

/-- Who is registered, for which channel and for what. -/
def registrations : EventPump → List (TaskId × Channel × Interest)
  | absent => []
  | manual p => p.registrations

end EventPump

/-- Somebody waits on one of the axes of the task. -/
def Task.Waits (x : Task) : Prop := ∃ a, (x.parker a).isWaiting = true

instance (x : Task) : Decidable x.Waits :=
  decidable_of_iff (x.user.isWaiting = true ∨ x.internal.isWaiting = true)
    ⟨fun h => h.elim (⟨.user, ·⟩) (⟨.internal, ·⟩), fun ⟨a, h⟩ => by
      cases a with
      | user => exact .inl h
      | internal => exact .inr h⟩

/-- A wait for a channel, and what it has seen. -/
structure Sighting where
  task : TaskId
  channel : Channel
  interest : Interest
  /-- The channel of a registration that an earlier wait has left behind. -/
  left : Option Channel
  /-- The signals on that channel that were taken after earlier readiness was dropped and before the
  registration for this wait. -/
  late : Interest := .none
  /-- The signals on the channel that were taken while the task was registered for this wait. -/
  heard : Interest := .none
  /-- The answer of the wait. -/
  seen : UInt8 := 0
deriving DecidableEq, Repr

/-- What a task is doing about a wait for a channel. -/
inductive Outlook where
  | none
  /-- Earlier readiness is dropped, and the task is to be registered. -/
  | opening (s : Sighting)
  /-- The task is registered, and parks or is about to. -/
  | keeping (s : Sighting)
  /-- The task has taken what it has seen, and is to give its registration back. -/
  | closing (s : Sighting)
deriving DecidableEq, Repr

/-- The pending signals are taken by a poll. -/
def Outlook.hear (p : EventPump) : Outlook → Outlook
  | .opening s => .opening { s with
      late := match s.left with
        | some c => s.late.union (p.signalled c)
        | .none => s.late }
  | .keeping s => .keeping { s with heard := s.heard.union (p.signalled s.channel) }
  | v => v

namespace Engine

variable {V : Type}

/-- A task, where one that was never made counts as fresh. -/
def berth (e : Engine V) (t : TaskId) : Task := (e.task? t).getD (Task.fresh t)

/-- The tasks whose channel is set. -/
def moored (e : Engine V) : Set TaskId := { t | ∃ x, e.task? t = some x ∧ x.channel ≠ none }

/-- The task has work and can go on with it. -/
def Awake (e : Engine V) (t : TaskId) (x : Task) : Prop :=
  e.task? t = some x ∧ x.status = .alive ∧ ¬x.Waits

end Engine

/-- `y` is `x` after something that has no part in waits for channels. Readiness may be forgotten,
and waits may end. -/
structure Task.Landward (x y : Task) : Prop where
  channel : y.channel = x.channel
  ready : y.ready = x.ready ∨ y.ready = 0
  waits : y.Waits → x.Waits

/-- `e'` differs from `e` in nothing that concerns waits for channels, and no work has ended except
that of one task. -/
structure Engine.Landward {V : Type} (ended : Option TaskId) (e e' : Engine V) : Prop where
  pump : e'.pump = e.pump
  ioWaiters : e'.ioWaiters = e.ioWaiters
  tasks : ∀ t, (e.berth t).Landward (e'.berth t)
  alive : ∀ t, ended ≠ some t → (e.berth t).status = .alive → (e'.berth t).status = .alive

/-- An engine with what its tasks are doing about waits for channels. -/
structure Lookout (V : Type) where
  engine : Engine V
  outlook : TaskId → Outlook := fun _ => .none
  /-- The waits that have come to their answer, last first. -/
  sightings : List Sighting := []

namespace Lookout

variable {V : Type}

/-- A task gets on with its wait. -/
def turn (l : Lookout V) (t : TaskId) (v : Outlook) (e : Engine V) : Lookout V :=
  { l with engine := e, outlook := Function.update l.outlook t v }

/-- What can happen at once. A fickle pump takes and refuses registrations, forgets them and reports
events as it likes. -/
inductive Step (fickle : Bool) : Lookout V → Lookout V → Prop
  -- Waits for channels
  | begin {l : Lookout V} {t : TaskId} {x : Task} (channel : Channel) (interest : Interest)
      (awake : l.engine.Awake t x) (idle : l.outlook t = .none) :
      Step fickle l (l.turn t (.opening { task := t, channel, interest, left := x.channel })
        (l.engine.updateTask t (·.takeReady.1)))
  | register {l : Lookout V} {t : TaskId} {x : Task} {s : Sighting} {e : Engine V}
      (awake : l.engine.Awake t x) (at_ : l.outlook t = .opening s)
      (h : l.engine.registerChannel t s.channel s.interest = (e, none)) :
      Step fickle l (l.turn t (.keeping s) e)
  | refuse {l : Lookout V} {t : TaskId} {x : Task} {s : Sighting} {e : Engine V} {err : EngineError}
      (awake : l.engine.Awake t x) (at_ : l.outlook t = .opening s)
      (h : l.engine.registerChannel t s.channel s.interest = (e, some err)) :
      Step fickle l (l.turn t .none e)
  /-- It blocks, natively or not, for the channel. -/
  | await {l : Lookout V} {t : TaskId} {x : Task} {s : Sighting} {native : Bool} {p : Parker}
      (awake : l.engine.Awake t x) (at_ : l.outlook t = .keeping s)
      (h : x.internal.begin native = .ok (p, true)) :
      Step fickle l { l with engine := l.engine.updateTask t (·.setParker .internal p) }
  | take {l : Lookout V} {t : TaskId} {x : Task} {s : Sighting}
      (awake : l.engine.Awake t x) (at_ : l.outlook t = .keeping s) :
      Step fickle l (l.turn t (.closing { s with seen := x.takeReady.2 })
        (l.engine.updateTask t (·.takeReady.1)))
  | answer {l : Lookout V} {t : TaskId} {x : Task} {s : Sighting}
      (awake : l.engine.Awake t x) (at_ : l.outlook t = .closing s) :
      Step fickle l { l.turn t .none (l.engine.unregisterChannel t) with
        sightings := s :: l.sightings }
  /-- A task is unwound out of whatever it does. -/
  | unwind {l : Lookout V} {t : TaskId} {x : Task} (awake : l.engine.Awake t x) :
      Step fickle l (l.turn t .none l.engine)
  -- Other parks, and the end of the work of a task
  | giveBack {l : Lookout V} {t : TaskId} {x : Task} (awake : l.engine.Awake t x)
      (idle : l.outlook t = .none) :
      Step fickle l { l with engine := l.engine.unregisterChannel t }
  /-- A task that parks for anything but a channel gives its registration back, and blocks. -/
  | park {l : Lookout V} {t : TaskId} {x : Task} {a : Axis} {native : Bool} {p : Parker}
      (awake : l.engine.Awake t x) (idle : l.outlook t = .none)
      (h : (x.parker a).begin native = .ok (p, true)) :
      Step fickle l { l with
        engine := (l.engine.unregisterChannel t).updateTask t (·.setParker a p) }
  | exit {l : Lookout V} {t : TaskId} {x : Task} (now : Nanos) (c : Nat)
      (awake : l.engine.Awake t x) (idle : l.outlook t = .none) :
      Step fickle l { l with engine := l.engine.exit now c t }
  | assign {l : Lookout V} (c : Nat) (t : TaskId) (s : Submission) :
      Step fickle l { l with engine := l.engine.assign c t s }
  -- Signals and polls
  | signal {l : Lookout V} (channel : Channel) (interest : Interest) :
      Step fickle l { l with
        engine := { l.engine with pump := l.engine.pump.signal channel interest } }
  | poll {l : Lookout V} (now : Nanos) :
      Step fickle l { l with
        engine := l.engine.pollEvents now
        outlook := fun t => (l.outlook t).hear l.engine.pump }
  | other {l : Lookout V} {e : Engine V} (h : l.engine.Landward .none e) :
      Step fickle l { l with engine := e }
  -- A pump that answers as it likes
  | whim {l : Lookout V} (h : fickle = true) (pump : EventPump) :
      Step fickle l { l with engine := { l.engine with pump } }
  | report {l : Lookout V} (h : fickle = true) (now : Nanos) (event : ReadyEvent) :
      Step fickle l { l with engine := l.engine.deliver now event }

/-- What can be reached from an engine that starts, with a pump that knows nobody yet. -/
inductive Reached (fickle : Bool) : Lookout V → Prop
  | start {config : Config} {processors : Nat} {groups : List ControlGroup} {pump : EventPump}
      {e : Engine V} (h : Engine.start config processors groups pump = .ok e)
      (unknown : pump.registrations = []) : Reached fickle { engine := e }
  | step {l l' : Lookout V} (h : Reached fickle l) (s : Step fickle l l') : Reached fickle l'

end Lookout

end GreenThreads

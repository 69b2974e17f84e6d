import GreenThreads.Fault

/-!
# Readiness events

Tasks wait for channels to become readable or writable. A pump holds who is interested in what,
collects signals and hands them out on request.
-/

namespace GreenThreads

/-- A set of the two readiness conditions, as two bits. -/
structure Interest where
  /-- Bit 0 stands for readable and bit 1 for writable. -/
  bits : BitVec 2
deriving DecidableEq, Repr, Inhabited

namespace Interest

/-- No condition. -/
def none : Interest := ⟨0⟩

/-- The conditions among the low bits of a mask. -/
def ofMask (mask : Nat) : Interest := ⟨BitVec.ofNat 2 mask⟩

/-- The mask of the conditions. -/
def mask (i : Interest) : Nat := i.bits.toNat

def readable (i : Interest) : Bool := i.bits.getLsbD 0

def writable (i : Interest) : Bool := i.bits.getLsbD 1

def isEmpty (i : Interest) : Bool := i.bits == 0

def union (a b : Interest) : Interest := ⟨a.bits ||| b.bits⟩

def inter (a b : Interest) : Interest := ⟨a.bits &&& b.bits⟩

end Interest

/-- A source of readiness that tasks can wait for. -/
abbrev Channel := Nat

/-- One task that has become ready. -/
structure ReadyEvent where
  task : TaskId
  channel : Channel
  ready : Interest
deriving DecidableEq, Repr

/-- A pump that is signalled by hand. -/
structure ManualPump where
  /-- What each registered task waits for, in order of registration. -/
  registrations : List (TaskId × Channel × Interest) := []
  /-- Signals that have not been handed out, oldest first. -/
  signals : List (Channel × Interest) := []
deriving Repr, Inhabited

namespace ManualPump

/-- Takes the registration of a task away. -/
def unregister (p : ManualPump) (t : TaskId) : ManualPump :=
  { p with registrations := p.registrations.filter (·.1 != t) }

/-- Registers a task; an earlier registration of it is replaced. -/
def register (p : ManualPump) (t : TaskId) (c : Channel) (i : Interest) : ManualPump :=
  { p with registrations := (p.unregister t).registrations ++ [(t, c, i)] }

/-- Marks conditions of a channel as met. -/
def signal (p : ManualPump) (c : Channel) (i : Interest) : ManualPump :=
  { p with signals := p.signals ++ [(c, i)] }

/-- What one signal tells the registered tasks. -/
def eventsOf (p : ManualPump) (c : Channel) (i : Interest) : List ReadyEvent :=
  p.registrations.filterMap fun (t, c', wanted) =>
    let overlap := wanted.inter i
    if c' = c ∧ overlap.isEmpty = false then some ⟨t, c, overlap⟩ else Option.none

/-- Hands out all pending signals, oldest first. -/
def poll (p : ManualPump) : ManualPump × List ReadyEvent :=
  ({ p with signals := [] }, p.signals.flatMap fun (c, i) => p.eventsOf c i)

end ManualPump

/-- Where readiness comes from. -/
inductive EventPump where
  /-- Nowhere: every registration is refused. -/
  | absent
  | manual (pump : ManualPump)
deriving Repr, Inhabited

namespace EventPump

/-- The failure of a registration where there is no pump. -/
def absentCause : String := "no event pump configured"

def register (t : TaskId) (c : Channel) (i : Interest) : EventPump → Except String EventPump
  | absent => .error absentCause
  | manual p => .ok (.manual (p.register t c i))

def unregister (t : TaskId) : EventPump → EventPump
  | absent => absent
  | manual p => manual (p.unregister t)

def signal (c : Channel) (i : Interest) : EventPump → EventPump
  | absent => absent
  | manual p => manual (p.signal c i)

def poll : EventPump → EventPump × List ReadyEvent
  | absent => (absent, [])
  | manual p => let (p, events) := p.poll; (manual p, events)

/-- Whether there are signals that have not been handed out. -/
def isSignalled : EventPump → Bool
  | absent => false
  | manual p => !p.signals.isEmpty

/-- How many tasks are registered. -/
def registered : EventPump → Nat
  | absent => 0
  | manual p => p.registrations.length

end EventPump

end GreenThreads

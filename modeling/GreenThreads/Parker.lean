import GreenThreads.Fault

/-!
# Parkers

A parker blocks one waiter on one axis. A wake that finds nobody waiting leaves a permit, and the
next park consumes it without blocking; at most one permit is kept.
-/

namespace GreenThreads

/-- What a task can wait for: its user, or the engine itself (sleeps, joins and readiness). -/
inductive Axis where
  | user
  | internal
deriving DecidableEq, Repr

/-- The name of an axis in descriptions. -/
def Axis.describe : Axis → String
  | user => "User"
  | internal => "Internal"

/-- The state of one axis. -/
inductive Parker where
  /-- Nobody waits and no permit is kept. -/
  | free
  /-- A task waits and has given its carrier away. -/
  | waiting
  /-- A permit is kept. -/
  | permitted
  /-- A thread waits and blocks its carrier with it. -/
  | waitingNative
deriving DecidableEq, Repr, Inhabited

/-- What a release found. -/
inductive Released where
  /-- A task that now has to be put into a run queue. -/
  | cooperative
  /-- A blocked thread that now has to be notified. -/
  | native
  /-- Nobody: a permit is kept. -/
  | permit
deriving DecidableEq, Repr

namespace Parker

/-- The name of a state in descriptions. -/
def describe : Parker → String
  | free => "Free"
  | waiting => "Waiting"
  | permitted => "Permitted"
  | waitingNative => "WaitingNative"

/-- Whether somebody waits. -/
def isWaiting : Parker → Bool
  | waiting | waitingNative => true
  | free | permitted => false

/-- The waiting state of a park that blocks its carrier or gives it away. -/
def blocked (native : Bool) : Parker := if native then waitingNative else waiting

/-- Begins a park: the answer says whether the caller has to block. -/
def begin (native : Bool) : Parker → Except Fault (Parker × Bool)
  | free => .ok (blocked native, true)
  | permitted => .ok (free, false)
  | waiting | waitingNative => .error .alreadyWaiting

/-- Ends a park, whether or not it has been released. -/
def finish : Parker → Parker
  | waiting | waitingNative => free
  | p => p

/-- Frees the waiter or keeps a permit. -/
def release : Parker → Parker × Released
  | waiting => (free, .cooperative)
  | waitingNative => (free, .native)
  | free | permitted => (permitted, .permit)

/-- Frees the waiter, and keeps no permit if there is none. -/
def wakeWaiting : Parker → Parker × Option Released
  | waiting => (free, some .cooperative)
  | waitingNative => (free, some .native)
  | p => (p, none)

/-- The axis is free afterwards in any case; it is a fault if somebody still waited. -/
def clear (p : Parker) : Parker × Option Fault :=
  (free, if p.isWaiting then some .stillWaiting else none)

/-- A whole park of a thread that nobody wakes before its time is over. -/
def parkUnwoken (p : Parker) : Except Fault Parker :=
  (p.begin true).map fun (p, _) => p.finish

end Parker

end GreenThreads

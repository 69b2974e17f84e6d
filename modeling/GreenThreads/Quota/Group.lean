import GreenThreads.Quota.Bucket
import GreenThreads.Task.Basic

/-!
# Control groups

A control group is a quota bucket that its member tasks share. A task is a member of at most one
group; a destroyed group takes no new members.
-/

namespace GreenThreads

/-- A task that belongs to a group, and the incarnation in which it joined. -/
structure Member where
  task : TaskId
  generation : Nat
deriving DecidableEq, Repr

/-- Tasks that share a quota. -/
structure ControlGroup where
  bucket : Bucket
  /-- The members, in the order in which they joined. -/
  members : List Member := []
  /-- How many times a member was held back. -/
  throttles : UInt64 := 0
  destroyed : Bool := false
deriving DecidableEq, Repr

namespace ControlGroup

/-- The period of groups that are given a share of a processor. -/
def defaultPeriod : Nanos := 100000000

/-- A group that admits `quota` of run time per `period`; both have to be positive. -/
def make (quota period now : Nanos) : Except EngineError ControlGroup :=
  if quota ≤ 0 ∨ period ≤ 0 then .error (.invalidQuota quota period)
  else .ok { bucket := Bucket.full quota period now }

/-- A group that admits a percentage of one processor; more than 100 is more than one. -/
def ofCpuPercent (percent : Float) (now : Nanos) : Except EngineError ControlGroup :=
  if percent.isFinite && 0.0 < percent then
    make (100000000.0 * percent / 100.0).toInt64 defaultPeriod now
  else .error (.invalidQuota 0 defaultPeriod)

/-- The run time charged so far, as it is shown. -/
def shownConsumed (g : ControlGroup) : Nanos := max 0 g.bucket.consumed

/-- Whether a task is a member. -/
def hasMember (g : ControlGroup) (t : TaskId) : Bool := g.members.any (·.task == t)

/-- Makes a task a member in its present incarnation. -/
def enroll (g : ControlGroup) (t : Task) : ControlGroup :=
  { g with
    members := g.members.filter (·.task != t.id) ++ [{ task := t.id, generation := t.generation }] }

/-- Takes a task out of the members. -/
def dismiss (g : ControlGroup) (t : TaskId) : ControlGroup :=
  { g with members := g.members.filter (·.task != t) }

/-- Charges run time. -/
def charge (g : ControlGroup) (used : Nanos) : ControlGroup :=
  { g with bucket := g.bucket.charge used }

/-- Refills the bucket and tells how long to hold a member back. -/
def check (g : ControlGroup) (now : Nanos) : ControlGroup × Except Fault Nanos :=
  let (bucket, delay) := g.bucket.check now
  ({ g with bucket }, delay)

/-- The check before a member runs. A member that is held back is counted, and the time of one that
is admitted starts at `now` if asked for. -/
def checkMember (g : ControlGroup) (t : Task) (now : Nanos) (restart : Bool) :
    ControlGroup × Task × Except Fault Nanos :=
  match g.check now with
  | (g, .ok delay) =>
    if delay = 0 then (g, if restart then { t with enteredAt := now } else t, .ok 0)
    else ({ g with throttles := g.throttles + 1 }, t, .ok delay)
  | (g, .error fault) => (g, t, .error fault)

/-- Charges the group with the run time of a task since it was switched to. -/
def chargeElapsed (g : ControlGroup) (t : Task) (now : Nanos) : ControlGroup × Task × Nanos :=
  let (t, elapsed) := t.takeElapsed now
  (g.charge elapsed, t, elapsed)

/-- Attaches a task to the group `g`, whose number is `id`. The run time before that is not the
group's. A task that is attached already stays as it is. -/
def attach (g : ControlGroup) (id : GroupId) (t : Task) (now : Nanos) :
    Except EngineError (ControlGroup × Task) :=
  if g.destroyed then .error .rejected
  else
    match t.group with
    | some other => if other = id then .ok (g, t) else .error .alreadyAttached
    | none =>
      let t := { (t.takeElapsed now).1 with group := some id }
      .ok (g.enroll t, t)

/-- Detaches a task from the group `g`, whose number is `id`, and charges what it used. A task that
is not attached to this group stays as it is. -/
def detach (g : ControlGroup) (id : GroupId) (t : Task) (now : Nanos) : ControlGroup × Task :=
  if t.group = some id then
    let (g, t, _) := g.chargeElapsed t now
    (g.dismiss t.id, { t with group := none })
  else (g, t)

/-- The members other than the caller. -/
def others (g : ControlGroup) (caller : Option TaskId) : List Member :=
  g.members.filter fun m => some m.task != caller

/-- Closes the group: the members that have to be cancelled. A group is closed once. -/
def close (g : ControlGroup) (caller : Option TaskId) : ControlGroup × Option (List Member) :=
  if g.destroyed then (g, none) else ({ g with destroyed := true }, some (g.others caller))

end ControlGroup

end GreenThreads

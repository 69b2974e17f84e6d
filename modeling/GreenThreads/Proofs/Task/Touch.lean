import GreenThreads.Quota.Group
import GreenThreads.Waker

/-!
# What happens to a task

Everything that the engine and the handles do to a task, one operation after another. A handle
reaches the task through the generation that it was made for.
-/

namespace GreenThreads

namespace Task

/-- The task with the mark of a run queue entry, if it can be woken and has none. -/
def woken (now : Nanos) (t : Task) : Task :=
  if t.carrier.isSome ∧ t.status = .alive ∧ t.isThread = false ∧ t.enqueued = false then
    { t with enqueued := true, enqueuedAt := now }
  else t

/-- The task after a release: it is woken if it had given its carrier away. -/
def wokenBy (now : Nanos) (t : Task) : Released → Task
  | .cooperative => t.woken now
  | .native | .permit => t

/-- Releases an axis and wakes the task if it waited there. -/
def unparked (now : Nanos) (a : Axis) (t : Task) : Task :=
  let (t, r) := t.release a
  t.wokenBy now r

/-- Wakes the task if it waits on the axis, and keeps no permit if it does not. -/
def wokenWaiting (now : Nanos) (a : Axis) (t : Task) : Task :=
  match (t.parker a).wakeWaiting with
  | (p, some r) => (t.setParker a p).wokenBy now r
  | (_, none) => t

/-- Cancels the work of a generation and wakes the task on both axes. -/
def cancelledBy (now : Nanos) (generation : Nat) (t : Task) : Task :=
  match t.cancel generation with
  | (_, none) => t
  | (t, some (internal, user)) => (t.wokenBy now internal).wokenBy now user

/-- Begins a park, unless the axis waits already. -/
def parked (a : Axis) (native : Bool) (t : Task) : Task :=
  match (t.parker a).begin native with
  | .ok (p, _) => t.setParker a p
  | .error _ => t

/-- What a due timeout does to its task. -/
def fired (now : Nanos) (r : TimeoutRef) (action : TimeoutAction) (t : Task) : Task :=
  let t := t.clearTimeoutIf r
  match action with
  | .resume => t.woken now
  | .wakeCooperative a | .wakeNative a => t.wokenWaiting now a

/-- Gives the task a piece of work. -/
def renewed (name : String) (carrier : Nat) (job : JobId) (t : Task) : Task :=
  { (t.reset name carrier).1 with job := some job }

/-- Joins a group, unless the group refuses. -/
def attached (g : ControlGroup) (id : GroupId) (now : Nanos) (t : Task) : Task :=
  match g.attach id t now with
  | .ok (_, t) => t
  | .error _ => t

/-- The end of a piece of work: the task drops its registration and its timeout, leaves its group,
and is kept for reuse or destroyed. -/
def exited (now : Nanos) (kept : Bool) (t : Task) : Task :=
  if t.status = .alive then
    { ({ t with channel := none }.takeTimeout.1.takeElapsed now).1 with
      group := none
      status := if kept then .cached else .dead }
  else t

end Task

/-- One operation on a task. -/
inductive Touch where
  /-- The axis is released. -/
  | unpark (now : Nanos) (a : Axis)
  /-- A waker that was made for a generation is used. -/
  | unparkBy (generation : Nat) (now : Nanos) (a : Axis)
  /-- The present work is cancelled by the id of the task. -/
  | cancel (now : Nanos)
  /-- The handle of the work of a generation is asked to cancel. -/
  | cancelBy (generation : Nat) (now : Nanos)
  | wake (now : Nanos)
  | fire (now : Nanos) (r : TimeoutRef) (action : TimeoutAction)
  | park (a : Axis) (native : Bool)
  | endPark (a : Axis)
  | checkpoint
  /-- Its entry is taken out of a run queue. -/
  | dequeue
  | switchIn (now : Nanos)
  | switchOut
  | move (source target : Option Nat)
  | arm (r : TimeoutRef)
  | disarm
  | attach (g : ControlGroup) (id : GroupId) (now : Nanos)
  | detach (g : ControlGroup) (id : GroupId) (now : Nanos)
  | checkQuota (g : ControlGroup) (now : Nanos) (restart : Bool)
  | setChannel (c : Option Channel)
  | addReady (mask : UInt8)
  | takeReady
  | takeElapsed (now : Nanos)
  | addRunTime (n : Nanos)
  | ensureContext
  | reset (name : String) (carrier : Nat) (job : JobId)
  | exit (now : Nanos) (kept : Bool)
  | discard
  | endUnhosted

namespace Touch

/-- What an operation makes of the task. -/
def apply (t : Task) : Touch → Task
  | unpark now a => t.unparked now a
  | unparkBy g now a => if t.generation = g then t.unparked now a else t
  | cancel now => t.cancelledBy now t.generation
  | cancelBy g now => t.cancelledBy now g
  | wake now => t.woken now
  | fire now r action => t.fired now r action
  | park a native => t.parked a native
  | endPark a => t.setParker a (t.parker a).finish
  | checkpoint => t.checkpoint.1
  | dequeue => { t with enqueued := false }
  | switchIn now => { t.tryLock.1 with enteredAt := now }
  | switchOut =>
    { t with locked := false, context := if t.status = .dead then .absent else t.context }
  | move source target => (t.moveCarrier source target).1.recordStolen
  | arm r => { t with timeout := some r }
  | disarm => t.takeTimeout.1
  | attach g id now => t.attached g id now
  | detach g id now => (g.detach id t now).2
  | checkQuota g now restart => (g.checkMember t now restart).2.1
  | setChannel channel => { t with channel }
  | addReady mask => t.addReady mask
  | takeReady => t.takeReady.1
  | takeElapsed now => (t.takeElapsed now).1
  | addRunTime n => t.addRunTime n
  | ensureContext => t.ensureContext
  | reset name carrier job => t.renewed name carrier job
  | exit now kept => t.exited now kept
  | discard => t.discard
  | endUnhosted => t.endUnhosted

/-- What a sequence of operations makes of the task. -/
def run (t : Task) (h : List Touch) : Task := h.foldl apply t

/-- The generation of the handle through which an operation is called, if it is one. -/
def handle? : Touch → Option Nat
  | unparkBy g _ _ | cancelBy g _ => some g
  | _ => none

/-- `Padded g h h'` says that `h'` is `h` with calls put in between, all through handles of
generations before `g`. -/
inductive Padded (g : Nat) : List Touch → List Touch → Prop where
  | nil : Padded g [] []
  | keep (x : Touch) {h h' : List Touch} : Padded g h h' → Padded g (x :: h) (x :: h')
  | insert {x : Touch} {k : Nat} {h h' : List Touch} :
      x.handle? = some k → k < g → Padded g h h' → Padded g h (x :: h')

end Touch

namespace Task

variable {now : Nanos} {a : Axis} {t : Task}

/-! ## Generations

Only new work moves a task on to another generation. -/

@[simp] theorem generation_woken : (t.woken now).generation = t.generation := by
  unfold woken; split <;> rfl

@[simp] theorem generation_wokenBy (r : Released) :
    (t.wokenBy now r).generation = t.generation := by
  cases r with
  | cooperative => exact generation_woken
  | native => rfl
  | permit => rfl

@[simp] theorem generation_setParker (p : Parker) :
    (t.setParker a p).generation = t.generation := by
  cases a with
  | user => rfl
  | internal => rfl

@[simp] theorem generation_release : (t.release a).1.generation = t.generation :=
  generation_setParker _

@[simp] theorem generation_unparked : (t.unparked now a).generation = t.generation := by
  simp only [unparked, generation_wokenBy, generation_release]

@[simp] theorem generation_wokenWaiting : (t.wokenWaiting now a).generation = t.generation := by
  unfold wokenWaiting
  split
  · rw [generation_wokenBy, generation_setParker]
  · rfl

@[simp] theorem generation_cancelledBy (g : Nat) :
    (t.cancelledBy now g).generation = t.generation := by
  unfold cancelledBy cancel
  split
  · rfl
  · next h =>
      split at h
      · cases h
        simp only [generation_wokenBy, generation_setParker]
      · cases h

@[simp] theorem generation_parked (native : Bool) :
    (t.parked a native).generation = t.generation := by
  unfold parked
  split
  · exact generation_setParker _
  · rfl

@[simp] theorem generation_clearTimeoutIf (r : TimeoutRef) :
    (t.clearTimeoutIf r).generation = t.generation := by
  unfold clearTimeoutIf; split <;> rfl

@[simp] theorem generation_fired (r : TimeoutRef) (action : TimeoutAction) :
    (t.fired now r action).generation = t.generation := by
  cases action with
  | resume => simp only [fired, generation_woken, generation_clearTimeoutIf]
  | wakeCooperative a => simp only [fired, generation_wokenWaiting, generation_clearTimeoutIf]
  | wakeNative a => simp only [fired, generation_wokenWaiting, generation_clearTimeoutIf]

@[simp] theorem generation_takeElapsed : (t.takeElapsed now).1.generation = t.generation := by
  unfold takeElapsed; split <;> rfl

@[simp] theorem generation_attached (g : ControlGroup) (id : GroupId) :
    (t.attached g id now).generation = t.generation := by
  unfold attached
  split
  · next h =>
      simp only [ControlGroup.attach] at h
      split at h
      · cases h
      · split at h
        · split at h
          · cases h; rfl
          · cases h
        · cases h; exact generation_takeElapsed
  · rfl

@[simp] theorem generation_detach (g : ControlGroup) (id : GroupId) :
    (g.detach id t now).2.generation = t.generation := by
  simp only [ControlGroup.detach, ControlGroup.chargeElapsed]
  split
  · exact generation_takeElapsed
  · rfl

@[simp] theorem generation_checkMember (g : ControlGroup) (restart : Bool) :
    (g.checkMember t now restart).2.1.generation = t.generation := by
  unfold ControlGroup.checkMember
  split
  · split
    · cases restart <;> rfl
    · rfl
  · rfl

@[simp] theorem generation_checkpoint : t.checkpoint.1.generation = t.generation := by
  unfold checkpoint
  split
  · rfl
  · split <;> rfl

@[simp] theorem generation_exited (kept : Bool) :
    (t.exited now kept).generation = t.generation := by
  unfold exited
  split
  · exact generation_takeElapsed
  · rfl

theorem le_generation_renewed (name : String) (carrier : Nat) (job : JobId) :
    t.generation ≤ (t.renewed name carrier job).generation := by
  simp only [renewed, reset, forget]
  split
  · exact Nat.le_refl _
  · exact Nat.le_refl _
  · split
    · exact Nat.le_succ _
    · split
      · exact Nat.le_succ _
      · exact Nat.le_succ _

end Task

namespace Touch

variable {t : Task} {g k : Nat} {x : Touch} {h h' : List Touch}

theorem le_generation_apply (t : Task) (x : Touch) : t.generation ≤ (x.apply t).generation := by
  cases x with
  | unparkBy g now a =>
      simp only [apply]
      split
      · exact Nat.le_of_eq Task.generation_unparked.symm
      · exact Nat.le_refl _
  | reset name carrier job => exact Task.le_generation_renewed name carrier job
  | move source target =>
      simp only [apply, Task.moveCarrier, Task.recordStolen]
      split <;> exact Nat.le_refl _
  | ensureContext =>
      simp only [apply, Task.ensureContext]
      split <;> exact Nat.le_refl _
  | _ =>
      simp [apply, Task.takeReady, Task.takeTimeout, Task.tryLock, Task.addReady, Task.addRunTime,
        Task.discard, Task.endUnhosted]

/-- A call through a handle of an earlier generation changes nothing. -/
theorem apply_of_handle_lt (hx : x.handle? = some k) (hk : k < t.generation) : x.apply t = t := by
  have hne : t.generation ≠ k := Nat.ne_of_gt hk
  cases x with
  | unparkBy g now a =>
      cases hx
      simp only [apply, if_neg hne]
  | cancelBy g now =>
      cases hx
      have hcarries : t.carries k = false := by
        rw [Task.carries, beq_false_of_ne hne, Bool.false_and]
      simp only [apply, Task.cancelledBy, Task.cancel, hcarries, Bool.false_eq_true, ↓reduceIte]
  | _ => cases hx

/-- Calls through handles of earlier generations leave a whole run as it is. -/
theorem run_padded (hp : Padded g h h') (hg : g ≤ t.generation) : run t h' = run t h := by
  induction hp generalizing t with
  | nil => rfl
  | keep x _ ih => exact ih (Nat.le_trans hg (le_generation_apply t x))
  | insert hx hk _ ih =>
      simp only [run, List.foldl_cons]
      rw [apply_of_handle_lt hx (Nat.lt_of_lt_of_le hk hg)]
      exact ih hg

end Touch

end GreenThreads

import GreenThreads.Engine.Wake
import GreenThreads.Proofs.Task.Touch

/-!
# Tasks under the wakes of an engine

What the wakes and the cancellations of an engine make of each of its tasks: the task that they are
meant for is touched as the operation says, and every other task stays as it is.
-/

namespace GreenThreads.Engine

variable {V : Type} {e : Engine V} {now : Nanos} {t u : TaskId}

/-- Releases an axis of a task if the task waits there. -/
def releaseWaiting (e : Engine V) (now : Nanos) (t : TaskId) (a : Axis) : Engine V :=
  match e.task? t with
  | some x => if (x.parker a).isWaiting then e.unpark now t a else e
  | none => e

theorem task?_updateTask (e : Engine V) (t u : TaskId) (f : Task → Task) :
    (e.updateTask t f).task? u = if u = t then (e.task? u).map f else e.task? u := by
  simp only [task?, updateTask, Array.getElem?_modify]
  by_cases h : u = t
  · simp only [h, ↓reduceIte]
  · have hne : t.index ≠ u.index := by
      intro he
      exact h (by cases t; cases u; simp only at he; rw [he])
    simp only [h, hne, ↓reduceIte]

@[simp] theorem task?_updateTask_self (e : Engine V) (t : TaskId) (f : Task → Task) :
    (e.updateTask t f).task? t = (e.task? t).map f := by
  rw [task?_updateTask, if_pos rfl]

@[simp] theorem task?_updateCarrier (e : Engine V) (c : Nat) (f : Carrier → Carrier)
    (t : TaskId) : (e.updateCarrier c f).task? t = e.task? t := rfl

/-! ## Wakes -/

theorem task?_wake (e : Engine V) (now : Nanos) (t u : TaskId) :
    (e.wake now t).task? u = if u = t then (e.task? u).map (·.woken now) else e.task? u := by
  unfold wake
  split
  · next h =>
      split
      · next hu => rw [hu, h]; rfl
      · rfl
  · next task h =>
      split
      · next hcarrier =>
          have hwoken : task.woken now = task := by simp [Task.woken, hcarrier]
          split
          · next hu => rw [hu, h, Option.map_some, hwoken]
          · rfl
      · next c hcarrier =>
          split
          · next hcan =>
              have hwoken : task.woken now = { task with enqueued := true, enqueuedAt := now } := by
                simp [Task.woken, hcarrier, hcan]
              rw [task?_updateCarrier, task?_updateTask]
              split
              · next hu => rw [hu, h, Option.map_some, Option.map_some, hwoken]
              · rfl
          · next hcan =>
              have hwoken : task.woken now = task := by
                simp only [Task.woken, hcarrier, Option.isSome_some, true_and, if_neg hcan]
              split
              · next hu => rw [hu, h, Option.map_some, hwoken]
              · rfl

theorem task?_wakeReleased (e : Engine V) (now : Nanos) (t u : TaskId) (r : Released) :
    (e.wakeReleased now t r).task? u =
      if u = t then (e.task? u).map (·.wokenBy now r) else e.task? u := by
  cases r with
  | cooperative => exact task?_wake e now t u
  | native => simp only [wakeReleased, Task.wokenBy, Option.map_id']; split <;> rfl
  | permit => simp only [wakeReleased, Task.wokenBy, Option.map_id']; split <;> rfl

theorem task?_cancelTask (e : Engine V) (now : Nanos) (t u : TaskId) (generation : Nat) :
    (e.cancelTask now t generation).1.task? u =
      if u = t then (e.task? u).map (·.cancelledBy now generation) else e.task? u := by
  unfold cancelTask
  split
  · next h =>
      split
      · next hu => rw [hu, h]; rfl
      · rfl
  · next task h =>
      split
      · next hc =>
          split
          · next hu =>
              rw [hu, h, Option.map_some]
              simp only [Task.cancelledBy, hc]
          · rfl
      · next task' internal user hc =>
          simp only [task?_wakeReleased, task?_updateTask]
          split
          · next hu =>
              simp only [hu, h, Option.map_some, Task.cancelledBy, hc]
          · rfl

end GreenThreads.Engine

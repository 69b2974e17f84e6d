import GreenThreads.Proofs.Task.Touch

/-!
# Incarnations do not see each other

New work finds its task the same whatever the earlier incarnations did, and whoever still holds a
handle to one of those cannot reach it.
-/

namespace GreenThreads

namespace Task

/-- The earlier work is over: the task is kept for reuse, waits for nothing and has no entry in a
run queue. -/
structure Ended (t : Task) : Prop where
  cached : t.status = .cached
  user : t.user.isWaiting = false
  internal : t.internal.isWaiting = false
  unqueued : t.enqueued = false

/-- Two tasks are the same for the work that they carry. -/
structure SameForWork (t u : Task) : Prop where
  status : t.status = u.status
  name : t.name = u.name
  carrier : t.carrier = u.carrier
  timeout : t.timeout = u.timeout
  group : t.group = u.group
  user : t.user = u.user
  internal : t.internal = u.internal
  cancelled : t.cancelled = u.cancelled
  delivered : t.delivered = u.delivered
  channel : t.channel = u.channel
  ready : t.ready = u.ready
  enqueuedAt : t.enqueuedAt = u.enqueuedAt
  enteredAt : t.enteredAt = u.enteredAt
  runTime : t.runTime = u.runTime

variable {t u : Task}

theorem reset_of_idle (hcached : t.status = .cached)
    (hwaits : ∀ a, (t.parker a).isWaiting = false) (name : String) (carrier : Nat) :
    t.reset name carrier =
      ({ t.forget name with
          user := .free, internal := .free, carrier := some carrier, status := .alive }, none) := by
  have huser : (t.forget name).user.clear = (.free, none) := by
    have hfree : t.user.isWaiting = false := hwaits .user
    simp only [Parker.clear, forget, hfree, Bool.false_eq_true, ↓reduceIte]
  have hinternal : (t.forget name).internal.clear = (.free, none) := by
    have hfree : t.internal.isWaiting = false := hwaits .internal
    simp only [Parker.clear, forget, hfree, Bool.false_eq_true, ↓reduceIte]
  simp only [reset, hcached, huser, hinternal]

theorem reset_of_ended (h : t.Ended) (name : String) (carrier : Nat) :
    t.reset name carrier =
      ({ t.forget name with
          user := .free, internal := .free, carrier := some carrier, status := .alive }, none) := by
  refine reset_of_idle h.cached ?_ name carrier
  intro a
  cases a with
  | user => exact h.user
  | internal => exact h.internal

theorem sameForWork_renewed (ht : t.Ended) (hu : u.Ended) (name : String) (carrier : Nat)
    (job : JobId) : SameForWork (t.renewed name carrier job) (u.renewed name carrier job) := by
  simp only [renewed, reset_of_ended ht, reset_of_ended hu]
  constructor <;> rfl

/-- Two tasks whose earlier work is over are the same for the next work, whatever was done to them
before. From then on no call through a handle of an earlier incarnation makes a difference, however
many of them are put in between whatever else is done. -/
theorem incarnations_isolated {i j : TaskId} {before before' : List Touch}
    (ht : Ended (Touch.run (fresh i) before)) (hu : Ended (Touch.run (fresh j) before'))
    (name : String) (carrier : Nat) (job : JobId) :
    ((Touch.run (fresh i) before).reset name carrier).2 = none ∧
      ((Touch.run (fresh j) before').reset name carrier).2 = none ∧
      SameForWork ((Touch.run (fresh i) before).renewed name carrier job)
        ((Touch.run (fresh j) before').renewed name carrier job) ∧
      ∀ later later' : List Touch,
        Touch.Padded ((Touch.run (fresh i) before).renewed name carrier job).generation later
          later' →
        Touch.run ((Touch.run (fresh i) before).renewed name carrier job) later' =
          Touch.run ((Touch.run (fresh i) before).renewed name carrier job) later := by
  refine ⟨?_, ?_, sameForWork_renewed ht hu name carrier job, ?_⟩
  · rw [reset_of_ended ht]
  · rw [reset_of_ended hu]
  · intro later later' hp
    exact Touch.run_padded hp (Nat.le_refl _)

/-- The first task was cancelled and unparked in its first incarnation, and a timeout and a group of
it were left behind; the second one never had work. -/
theorem incarnations_isolated_after_cancel :
    let before : List Touch :=
      [.reset "first" 0 7, .switchIn 5, .park .user false, .arm ⟨0, 3⟩, .cancelBy 1 6,
        .unpark 8 .internal, .endPark .user, .checkpoint,
        .attach { bucket := Bucket.full 10 100 0 } 2 9, .setChannel (some 4), .addReady 3,
        .addRunTime 11, .dequeue, .exit 20 true, .arm ⟨0, 9⟩, .unpark 21 .user]
    let t := (Touch.run (fresh ⟨0⟩) before).renewed "second" 1 8
    Ended (Touch.run (fresh ⟨0⟩) before) ∧
      SameForWork t ((Touch.run (fresh ⟨5⟩) []).renewed "second" 1 8) ∧
      Touch.run t [.cancelBy 1 30, .park .user false, .unparkBy 1 31 .user, .wake 32] =
        Touch.run t [.park .user false, .wake 32] := by
  intro before t
  have ht : Ended (Touch.run (fresh ⟨0⟩) before) :=
    { cached := by decide, user := by decide, internal := by decide, unqueued := by decide }
  have hu : Ended (Touch.run (fresh ⟨5⟩) []) :=
    { cached := by decide, user := by decide, internal := by decide, unqueued := by decide }
  obtain ⟨-, -, hsame, hlater⟩ := incarnations_isolated ht hu "second" 1 8
  refine ⟨ht, hsame, hlater _ _ ?_⟩
  exact .insert (k := 1) rfl (by decide) (.keep _ (.insert (k := 1) rfl (by decide) (.keep _ .nil)))

end Task

end GreenThreads

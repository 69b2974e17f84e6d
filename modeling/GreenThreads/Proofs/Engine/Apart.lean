import GreenThreads.Engine.Submission
import GreenThreads.Proofs.Engine.Frame

/-!
# Operations without a part in the hand-over

Taking run times, charging groups, registering for channels, submitting work and telling results are
frames: they leave the places in which a task can be as they are.
-/

namespace GreenThreads

/-- A task that is where it was, with the timeout that it had. -/
def Task.Stays (x y : Task) : Prop := y.core = x.core ∧ y.timeout = x.timeout

namespace Task.Stays

variable {x y z : Task}

theorem refl (x : Task) : Stays x x := ⟨rfl, rfl⟩

theorem trans (h : Stays x y) (h' : Stays y z) : Stays x z :=
  ⟨h'.1.trans h.1, h'.2.trans h.2⟩

theorem takeElapsed (x : Task) (now : Nanos) : Stays x (x.takeElapsed now).1 := by
  unfold Task.takeElapsed
  split <;> exact ⟨rfl, rfl⟩

theorem ensureContext (x : Task) : Stays x x.ensureContext := by
  unfold Task.ensureContext
  split <;> exact ⟨rfl, rfl⟩

theorem checkpoint (x : Task) : Stays x x.checkpoint.1 := by
  unfold Task.checkpoint
  split
  · exact .refl x
  · split <;> exact ⟨rfl, rfl⟩

theorem checkMember (g : ControlGroup) (x : Task) (now : Nanos) (restart : Bool) :
    Stays x (g.checkMember x now restart).2.1 := by
  unfold ControlGroup.checkMember
  split
  · split
    · split <;> exact ⟨rfl, rfl⟩
    · exact .refl x
  · exact .refl x

theorem attach {g g' : ControlGroup} {id : GroupId} {now : Nanos}
    (h : g.attach id x now = .ok (g', y)) : Stays x y := by
  unfold ControlGroup.attach at h
  split at h
  · cases h
  · split at h
    · split at h
      · cases h
        exact .refl x
      · cases h
    · cases h
      obtain ⟨hcore, htimeout⟩ := takeElapsed x now
      exact ⟨hcore, htimeout⟩

theorem detach (g : ControlGroup) (id : GroupId) (x : Task) (now : Nanos) :
    Stays x (g.detach id x now).2 := by
  unfold ControlGroup.detach
  split
  · obtain ⟨hcore, htimeout⟩ := takeElapsed x now
    exact ⟨hcore, htimeout⟩
  · exact .refl x

end Task.Stays

namespace Engine

variable {V : Type} {e e' : Engine V} {t : TaskId} {x y : Task}

theorem frame_stays (ht : e.task? t = some x) (h : x.Stays y) :
    Frame e (e.updateTask t fun _ => y) := frame_put ht h.1 h.2

/-- Only the pump and the number of those that wait for it are changed beside `e'`. -/
theorem Frame.channels (h : Frame e e') (n : UInt64) (pump : EventPump) :
    Frame e { e' with ioWaiters := n, pump } :=
  h.trans (frame_of_eq rfl rfl rfl rfl rfl (fun _ h => .inl h) rfl)

theorem frame_blameIf {x : Option Fault} (h : ∀ y, x = some y → y.isLocal = true) :
    Frame e (e.blameIf x) := by
  cases x with
  | none => exact .refl e
  | some y => exact frame_blame (h y rfl)

/-! ## Run times and groups -/

theorem frame_accountRun (e : Engine V) (now : Nanos) (t : TaskId) :
    Frame e (e.accountRun now t) := by
  unfold accountRun
  split
  · exact .refl e
  · next x hx =>
      have hput : Frame e (e.updateTask t fun _ => (x.takeElapsed now).1) :=
        frame_stays hx (.takeElapsed x now)
      dsimp only
      split
      · exact hput.trans (frame_updateGroup _ _ _)
      · exact hput.trans (frame_of_eq rfl rfl rfl rfl rfl (fun _ h => .inl h) rfl)

theorem frame_attach (e : Engine V) (now : Nanos) (t : TaskId) (g : GroupId) :
    Frame e (e.attach now t g).1 := by
  unfold attach
  split
  · next x group hx _ =>
      split
      · next group' y hy =>
          exact (frame_updateGroup e g fun _ => group').trans (frame_stays hx (.attach hy))
      · exact .refl e
  · exact .refl e

theorem frame_detach (e : Engine V) (now : Nanos) (t : TaskId) (g : GroupId) :
    Frame e (e.detach now t g) := by
  unfold detach
  split
  · next x group hx _ =>
      exact (frame_updateGroup e g fun _ => (group.detach g x now).1).trans
        (frame_stays hx (.detach group g x now))
  · exact .refl e

/-- The only fault of a check is a debt that cannot be turned around. -/
theorem isLocal_of_delay {b : Bucket} {now : Nanos} {z : Fault} (h : b.delay now = .error z) :
    z.isLocal = true := by
  unfold Bucket.delay Bucket.extraPeriods at h
  split at h
  · cases h
  · split at h
    · cases h
      rfl
    · cases h

theorem isLocal_of_checkMember {g : ControlGroup} {now : Nanos} {restart : Bool} {z : Fault}
    (h : (g.checkMember x now restart).2.2 = .error z) : z.isLocal = true := by
  unfold ControlGroup.checkMember at h
  split at h
  · split at h
    · cases h
    · cases h
  · next group fault hcheck =>
      cases h
      have hdelay : (g.bucket.refill now).delay now = .error z := congrArg Prod.snd hcheck
      exact isLocal_of_delay hdelay

theorem frame_checkQuota (e : Engine V) (now : Nanos) (t : TaskId) :
    Frame e (e.checkQuota now t).1 := by
  unfold checkQuota
  split
  · exact .refl e
  · next x hx =>
      split
      · exact .refl e
      · next g group _ =>
          have hput := (frame_updateGroup e g fun _ => (group.checkMember x now true).1).trans
            (frame_stays hx (.checkMember group x now true))
          dsimp only
          split
          · exact hput
          · next z hz => exact hput.trans (frame_blame (isLocal_of_checkMember hz))

theorem frame_ensureContext (e : Engine V) (t : TaskId) : Frame e (e.ensureContext t) := by
  unfold ensureContext
  split
  · exact .refl e
  · split
    · exact (frame_updateTask (fun x => (Task.Stays.ensureContext x).1)
        fun x => (Task.Stays.ensureContext x).2).trans (frame_count _ _)
    · exact .refl e

/-! ## Channels -/

theorem frame_setChannel (e : Engine V) (t : TaskId) (ch : Option Channel) :
    Frame e (e.updateTask t ({ · with channel := ch })) :=
  frame_updateTask (fun _ => rfl) fun _ => rfl

theorem frame_unregisterChannel (e : Engine V) (t : TaskId) :
    Frame e (e.unregisterChannel t) := by
  unfold unregisterChannel
  split
  · exact .refl e
  · split
    · exact .refl e
    · exact (frame_setChannel e t none).channels _ _

theorem frame_registerChannel (e : Engine V) (t : TaskId) (ch : Channel) (i : Interest) :
    Frame e (e.registerChannel t ch i).1 := by
  have hback := frame_unregisterChannel e t
  unfold registerChannel
  dsimp only
  split
  · exact (hback.trans (frame_setChannel _ t (some ch))).channels _ _
  · exact hback

/-! ## Submission -/

theorem frame_place (e : Engine V) (caller : Option TaskId) (s : Submission) :
    Frame e (e.place caller s) := by
  have henqueue : ∀ d, Frame e (e.updateCarrier d (·.enqueue (.start s))) := by
    intro d
    refine frame_updateCarrier ?_ fun _ => rfl
    intro x
    simp [Carrier.core, Carrier.enqueue, Runnable.isResume]
  unfold place
  split
  · exact henqueue _
  · split
    · exact henqueue _
    · refine ⟨⟨rfl, rfl, ?_, rfl, fun _ h => .inl h⟩, ⟨rfl, rfl, rfl⟩, rfl⟩
      simp [Runnable.isResume]

theorem frame_accept (e : Engine V) (caller : Option TaskId) (name : String)
    (g : Option GroupId) : Frame e (e.accept caller name g).1 := by
  have hjob : Frame e { e.makeJob.1 with outstanding := e.makeJob.1.outstanding + 1 } :=
    frame_of_eq rfl rfl rfl rfl rfl (fun _ h => .inl h) rfl
  exact (hjob.trans (frame_count _ _)).trans (frame_place _ _ _)

theorem frame_submit (e : Engine V) (caller : Option TaskId) (name : String)
    (g : Option GroupId) : Frame e (e.submit caller name g).1 := by
  unfold submit
  split
  · exact frame_count e _
  · exact frame_accept e caller name g

theorem frame_submitThread (e : Engine V) (caller : Option TaskId) (name : String) :
    Frame e (e.submitThread caller name).1 := by
  unfold submitThread
  split
  · exact frame_submit e caller name none
  · split
    · exact frame_of_eq rfl rfl rfl rfl rfl (fun _ h => .inl h) rfl
    · exact frame_count e _

theorem frame_shutdown (e : Engine V) (caller : Option TaskId) :
    Frame e (e.shutdown caller).1 := by
  unfold shutdown
  split
  · have hclosed : Frame e { e with accepting := false } :=
      frame_of_eq rfl rfl rfl rfl rfl (fun _ h => .inl h) rfl
    exact hclosed.trans (frame_accept _ _ _ _)
  · exact .refl e

end Engine

end GreenThreads

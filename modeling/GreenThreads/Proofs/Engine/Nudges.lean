import GreenThreads.Proofs.Ledger.Work
import Mathlib.Logic.Relation

/-!
# Nudges

Wakes, timers, channels, run times, quotas, cancellations and switches are made of small changes,
here called nudges: of a task that keeps its work and its group, of a carrier that keeps the work
that waits there and its pool, of a cell that keeps its result, and of counters that record neither
work nor pools. Whatever every nudge leaves as it is, all of these operations leave as it is.
-/

namespace GreenThreads

/-- The name of a task, its work and its group. -/
def Task.badge (t : Task) : Task :=
  { id := t.id, status := t.status, name := t.name, generation := t.generation, group := t.group,
    discarded := t.discarded, isThread := t.isThread, job := t.job }

/-- `y` is `x` with the work, the group and the context that it had. A cancellation that was
requested still is, and `y` waits on no axis on which `x` did not. -/
structure Task.Nudged (x y : Task) : Prop where
  badge : y.badge = x.badge
  context : x.status ≠ .dead → y.context = x.context
  cancelled : x.cancelled = true → y.cancelled = true
  waits : ∀ a, (y.parker a).isWaiting = true → (x.parker a).isWaiting = true

/-- `y` is `x` with the result and the binding that it had. A cancellation that was requested still
is. -/
structure Join.Nudged {V : Type} (x y : Join V) : Prop where
  result : y.result = x.result
  record : y.record = x.record
  requested : x.cancelRequested = true → y.cancelRequested = true

/-- Whether a counter records work, contexts or the use of pools. -/
def Counter.isKept : Counter → Bool
  | tasksSubmitted | tasksCompleted | tasksRejected | contextsCreated | localCacheHits
  | globalCacheHits | stolenCacheHits | cacheDiscards => true
  | stealSuccesses | stealFailures | switchFailures | timersArmed | timersFired | timersCancelled
  | quotaThrottles | freeRunning => false

/-- The members of a group, and whether it was destroyed. -/
def ControlGroup.roll (g : ControlGroup) : List Member × Bool := (g.members, g.destroyed)

theorem Task.Nudged.refl (x : Task) : Nudged x x :=
  ⟨rfl, fun _ => rfl, fun hc => hc, fun _ hw => hw⟩

theorem Task.nudged_setParker {x : Task} {a : Axis} {p : Parker}
    (h : p.isWaiting = true → (x.parker a).isWaiting = true) : x.Nudged (x.setParker a p) :=
  ⟨by cases a <;> rfl, fun _ => by cases a <;> rfl, fun hc => by cases a <;> exact hc,
    (kept_setParker h).waits⟩

theorem Task.carrier_setParker (x : Task) (a : Axis) (p : Parker) :
    (x.setParker a p).carrier = x.carrier := by
  cases a <;> rfl

namespace Engine

variable {V : Type} {e e' e'' : Engine V} {t : TaskId} {c : Nat} {now : Nanos} {f : Task → Task}
  {g : Carrier → Carrier} {x y : Task}

/-- A small change that has no part in the work. -/
inductive Nudge : Engine V → Engine V → Prop
  | task {e : Engine V} {t : TaskId} {f : Task → Task}
      (h : ∀ x, e.task? t = some x → x.Nudged (f x))
      (home : ∀ x, e.task? t = some x →
        (f x).carrier = x.carrier ∨ ∃ c < e.carriers.size, (f x).carrier = some c) :
      Nudge e (e.updateTask t f)
  | carrier {e : Engine V} {c : Nat} {g : Carrier → Carrier}
      (h : ∀ x, e.carriers[c]? = some x → (g x).stock = x.stock) : Nudge e (e.updateCarrier c g)
  | group {e : Engine V} {k : GroupId} {h : ControlGroup → ControlGroup}
      (same : ∀ x, e.groups[k]? = some x → (h x).roll = x.roll) : Nudge e (e.updateGroup k h)
  | job {e : Engine V} {j : JobId} {k : Join V → Join V}
      (h : ∀ x, e.jobs[j]? = some x → x.Nudged (k x)) : Nudge e (e.updateJob j k)
  | add {e : Engine V} {n : Counter} (k : UInt64) (h : n.isKept = false) :
      Nudge e { e with stats := e.stats.add n k }
  | blame {e : Engine V} (x : Fault) : Nudge e (e.blame x)
  | precise {e : Engine V} (q : TimerQueue) : Nudge e { e with precise := q }
  | channels {e : Engine V} (n : UInt64) (pump : EventPump) :
      Nudge e { e with ioWaiters := n, pump }

/-- A number of nudges, one after the other. -/
abbrev Nudges : Engine V → Engine V → Prop := Relation.ReflTransGen Nudge

/-- What every nudge keeps. -/
theorem Nudges.induct {R : Engine V → Engine V → Prop} (refl : ∀ e, R e e)
    (trans : ∀ {e e' e''}, R e e' → R e' e'' → R e e'') (nudge : ∀ {e e'}, Nudge e e' → R e e')
    (h : Nudges e e') : R e e' := by
  induction h with
  | refl => exact refl e
  | tail _ hn ih => exact trans ih (nudge hn)

theorem nudges_foldl {α : Type} {k : Engine V → α → Engine V} (h : ∀ e x, Nudges e (k e x))
    (e : Engine V) (l : List α) : Nudges e (l.foldl k e) := by
  induction l generalizing e with
  | nil => exact .refl
  | cons x l ih => exact (h e x).trans (ih (k e x))

/-! ## Changes of one part -/

theorem nudges_updateTask (h : ∀ x : Task, x.Nudged (f x)) (home : ∀ x, (f x).carrier = x.carrier) :
    Nudges e (e.updateTask t f) := .single (.task (fun x _ => h x) fun x _ => .inl (home x))

theorem nudges_put (ht : e.task? t = some x) (h : x.Nudged y) (home : y.carrier = x.carrier) :
    Nudges e (e.updateTask t fun _ => y) := by
  refine .single (.task (fun z hz => ?_) fun z hz => ?_)
  · rw [ht] at hz
    cases hz
    exact h
  · rw [ht] at hz
    cases hz
    exact .inl home

theorem nudges_updateCarrier (h : ∀ x, e.carriers[c]? = some x → (g x).stock = x.stock) :
    Nudges e (e.updateCarrier c g) := .single (.carrier h)

theorem nudges_updateTimers (e : Engine V) (owner : Nat) (k : TimerQueue → TimerQueue) :
    Nudges e (e.updateTimers owner k) := by
  unfold updateTimers
  split
  · exact .single (.precise _)
  · exact nudges_updateCarrier fun _ _ => rfl

theorem nudges_count (e : Engine V) {n : Counter} (h : n.isKept = false) : Nudges e (e.count n) :=
  .single (.add 1 h)

/-! ## Wakes -/

theorem nudges_wake (e : Engine V) (now : Nanos) (t : TaskId) : Nudges e (e.wake now t) := by
  unfold wake
  split
  · exact .refl
  · split
    · exact .refl
    · split
      · have hmark : Nudges e (e.updateTask t ({ · with enqueued := true, enqueuedAt := now })) :=
          nudges_updateTask (fun _ => ⟨rfl, fun _ => rfl, id, fun _ => id⟩) fun _ => rfl
        refine hmark.trans (nudges_updateCarrier fun x _ => ?_)
        simp [Carrier.stock, Carrier.enqueue, Runnable.work?]
      · exact .refl

theorem nudges_wakeReleased (e : Engine V) (now : Nanos) (t : TaskId) (r : Released) :
    Nudges e (e.wakeReleased now t r) := by
  cases r with
  | cooperative => exact nudges_wake e now t
  | native => exact .refl
  | permit => exact .refl

theorem nudged_release (x : Task) (a : Axis) : x.Nudged (x.release a).1 := by
  refine Task.nudged_setParker fun h => ?_
  revert h
  cases x.parker a <;> simp [Parker.isWaiting]

theorem carrier_release (x : Task) (a : Axis) : (x.release a).1.carrier = x.carrier :=
  x.carrier_setParker a _

theorem nudges_unpark (e : Engine V) (now : Nanos) (t : TaskId) (a : Axis) :
    Nudges e (e.unpark now t a) := by
  unfold unpark
  split
  · exact .refl
  · next x hx =>
      exact (nudges_put hx (nudged_release x a) (carrier_release x a)).trans
        (nudges_wakeReleased _ now t _)

theorem nudges_wakeWaiting (e : Engine V) (now : Nanos) (t : TaskId) (a : Axis) :
    Nudges e (e.wakeWaiting now t a) := by
  unfold wakeWaiting
  split
  · exact .refl
  · split
    · next p r hw =>
        have hp : p.isWaiting = false := by
          unfold Parker.wakeWaiting at hw
          split at hw <;> cases hw <;> rfl
        have hfreed : ∀ x : Task, x.Nudged (x.setParker a p) := fun x =>
          Task.nudged_setParker fun h => by rw [hp] at h; cases h
        exact (nudges_updateTask hfreed fun x => x.carrier_setParker a p).trans
          (nudges_wakeReleased _ now t r)
    · exact .refl

theorem nudges_useWaker (e : Engine V) (now : Nanos) (w : Waker) : Nudges e (e.useWaker now w) := by
  unfold useWaker
  split
  · exact .refl
  · split
    · exact nudges_unpark e now w.task w.axis
    · exact .refl

theorem nudged_cancel {generation : Nat} {r : Released × Released}
    (h : x.cancel generation = (y, some r)) : x.Nudged y ∧ y.carrier = x.carrier := by
  unfold Task.cancel at h
  split at h
  · cases h
    have hinternal := nudged_release { x with cancelled := true } .internal
    have huser := nudged_release ({ x with cancelled := true }.release .internal).1 .user
    exact ⟨⟨huser.badge.trans hinternal.badge, fun _ => rfl, fun _ => rfl,
      fun a ha => hinternal.waits a (huser.waits a ha)⟩, rfl⟩
  · cases h

theorem nudges_cancelTask (e : Engine V) (now : Nanos) (t : TaskId) (generation : Nat) :
    Nudges e (e.cancelTask now t generation).1 := by
  unfold cancelTask
  split
  · exact .refl
  · next x hx =>
      split
      · exact .refl
      · next y internal user hc =>
          obtain ⟨hy, hcarrier⟩ := nudged_cancel hc
          exact ((nudges_put hx hy hcarrier).trans (nudges_wakeReleased _ now t internal)).trans
            (nudges_wakeReleased _ now t user)

theorem nudges_cancel (e : Engine V) (now : Nanos) (t : TaskId) :
    Nudges e (e.cancel now t).1 := by
  unfold cancel
  split
  · exact .refl
  · next x hx =>
      split
      · exact nudges_cancelTask e now t x.generation
      · exact .refl

theorem nudges_cancelJob (e : Engine V) (now : Nanos) (j : JobId) :
    Nudges e (e.cancelJob now j) := by
  unfold cancelJob
  split
  · exact .refl
  · next cell hj =>
      have hcell : Nudges e (e.updateJob j fun _ => cell.requestCancel.1) := by
        refine .single (.job fun x hx => ?_)
        rw [hj] at hx
        cases hx
        exact ⟨rfl, rfl, fun _ => rfl⟩
      dsimp only
      split
      · exact hcell
      · next b hb => exact hcell.trans (nudges_cancelTask _ now b.task b.generation)

theorem nudges_releaseWaiting (e : Engine V) (now : Nanos) (t : TaskId) (a : Axis) :
    Nudges e (e.releaseWaiting now t a) := by
  unfold releaseWaiting
  split
  · split
    · exact nudges_unpark e now t a
    · exact .refl
  · exact .refl

theorem nudges_drainRound (e : Engine V) (now : Nanos) (me : TaskId) :
    Nudges e (e.drainRound now me) := by
  have hrelease : ∀ (e : Engine V) t, Nudges e
      ((e.releaseWaiting now t .internal).releaseWaiting now t .user) := fun e t =>
    (nudges_releaseWaiting e now t .internal).trans (nudges_releaseWaiting _ now t .user)
  exact nudges_foldl hrelease e (e.live.filter (· != me))

/-! ## Timers -/

theorem nudges_setTimeout (e : Engine V) (t : TaskId) (r : Option TimeoutRef) :
    Nudges e (e.updateTask t ({ · with timeout := r })) :=
  nudges_updateTask (fun _ => ⟨rfl, fun _ => rfl, id, fun _ => id⟩) fun _ => rfl

theorem nudges_disarm (e : Engine V) (t : TaskId) : Nudges e (e.disarm t) := by
  have htake : Nudges e (e.updateTask t fun x => x.takeTimeout.1) := nudges_setTimeout e t none
  unfold disarm
  split
  · exact .refl
  · split
    · exact .refl
    · dsimp only
      split
      · exact (htake.trans (nudges_updateTimers _ _ _)).trans (nudges_count _ rfl)
      · exact htake

theorem nudges_register (e : Engine V) (r : TimeoutRef) : Nudges e (e.register r) :=
  nudges_updateTimers e r.owner _

theorem nudges_arm (e : Engine V) (now : Nanos) (c : Nat) (t : TaskId) (deadline : Nanos)
    (action : TimeoutAction) (byTask : Bool) :
    Nudges e (e.arm now c t deadline action byTask) := by
  have hslot : ∀ owner k r, Nudges e
      (((e.count .timersArmed).updateTimers owner k).updateTask t ({ · with timeout := r })) :=
    fun owner k r => ((nudges_count e rfl).trans (nudges_updateTimers _ owner k)).trans
      (nudges_setTimeout _ t r)
  unfold arm
  generalize (if e.config.preciseTimer then preciseOwner else c) = owner
  dsimp only
  split
  · exact .refl
  · split
    · exact (hslot _ _ _).trans (nudges_updateCarrier fun _ _ => rfl)
    · exact (hslot _ _ _).trans (nudges_register _ _)

theorem nudged_clearTimeoutIf (x : Task) (r : TimeoutRef) :
    x.Nudged (x.clearTimeoutIf r) ∧ (x.clearTimeoutIf r).carrier = x.carrier := by
  unfold Task.clearTimeoutIf
  split
  · exact ⟨⟨rfl, fun _ => rfl, id, fun _ => id⟩, rfl⟩
  · exact ⟨.refl x, rfl⟩

theorem nudges_fire (e : Engine V) (now : Nanos) (r : TimeoutRef) : Nudges e (e.fire now r) := by
  unfold fire
  split
  · exact .refl
  · next y hy =>
      split
      · exact .refl
      · have hclear : Nudges e
            ((e.count .timersFired).updateTask y.task (·.clearTimeoutIf r)) :=
          (nudges_count e rfl).trans (nudges_updateTask (fun x => (nudged_clearTimeoutIf x r).1)
            fun x => (nudged_clearTimeoutIf x r).2)
        dsimp only
        split
        · exact hclear.trans (nudges_wake _ now y.task)
        · exact hclear.trans (nudges_wakeWaiting _ now y.task _)
        · exact hclear.trans (nudges_wakeWaiting _ now y.task _)

theorem nudges_pollTimers (e : Engine V) (now : Nanos) (owner : Nat) :
    Nudges e (e.pollTimers now owner) := by
  unfold pollTimers
  split
  · exact .refl
  · exact (nudges_updateTimers _ _ _).trans (nudges_foldl (fun e k => nudges_fire e now _) _ _)

/-! ## Channels -/

theorem nudges_setChannel (e : Engine V) (t : TaskId) (ch : Option Channel) :
    Nudges e (e.updateTask t ({ · with channel := ch })) :=
  nudges_updateTask (fun _ => ⟨rfl, fun _ => rfl, id, fun _ => id⟩) fun _ => rfl

theorem nudges_unregisterChannel (e : Engine V) (t : TaskId) :
    Nudges e (e.unregisterChannel t) := by
  unfold unregisterChannel
  split
  · exact .refl
  · split
    · exact .refl
    · exact (nudges_setChannel e t none).tail (.channels _ _)

theorem nudges_registerChannel (e : Engine V) (t : TaskId) (ch : Channel) (i : Interest) :
    Nudges e (e.registerChannel t ch i).1 := by
  have hback := nudges_unregisterChannel e t
  unfold registerChannel
  dsimp only
  split
  · exact (hback.trans (nudges_setChannel _ t (some ch))).tail (.channels _ _)
  · exact hback

theorem nudges_deliver (e : Engine V) (now : Nanos) (event : ReadyEvent) :
    Nudges e (e.deliver now event) := by
  have hready : Nudges e (e.updateTask event.task (·.addReady event.ready.mask.toUInt8)) :=
    nudges_updateTask (fun _ => ⟨rfl, fun _ => rfl, id, fun _ => id⟩) fun _ => rfl
  unfold deliver
  split
  · exact .refl
  · split
    · exact hready.trans (nudges_unpark _ now event.task .internal)
    · exact .refl

theorem nudges_pollEvents (e : Engine V) (now : Nanos) : Nudges e (e.pollEvents now) := by
  have hpump : ∀ pump, Nudges e { e with pump } := fun pump => .single (.channels e.ioWaiters pump)
  exact (hpump _).trans (nudges_foldl (fun e event => nudges_deliver e now event) _ _)

/-! ## Run times and quotas -/

theorem nudged_takeElapsed (x : Task) (now : Nanos) :
    x.Nudged (x.takeElapsed now).1 ∧ (x.takeElapsed now).1.carrier = x.carrier := by
  unfold Task.takeElapsed
  split <;> exact ⟨⟨rfl, fun _ => rfl, id, fun _ => id⟩, rfl⟩

theorem nudges_accountRun (e : Engine V) (now : Nanos) (t : TaskId) :
    Nudges e (e.accountRun now t) := by
  unfold accountRun
  split
  · exact .refl
  · next x hx =>
      obtain ⟨hx', hcarrier⟩ := nudged_takeElapsed x now
      have hput := nudges_put hx hx' hcarrier
      dsimp only
      split
      · exact hput.tail (.group fun _ _ => rfl)
      · exact hput.tail (.add _ rfl)

theorem nudged_checkMember (G : ControlGroup) (x : Task) (now : Nanos) (restart : Bool) :
    (G.checkMember x now restart).1.roll = G.roll ∧
      x.Nudged (G.checkMember x now restart).2.1 ∧
      (G.checkMember x now restart).2.1.carrier = x.carrier := by
  have hcheck : (G.check now).1.roll = G.roll := rfl
  unfold ControlGroup.checkMember
  split
  · next G' delay hG =>
      rw [hG] at hcheck
      split
      · refine ⟨hcheck, ?_⟩
        split <;> exact ⟨⟨rfl, fun _ => rfl, id, fun _ => id⟩, rfl⟩
      · exact ⟨hcheck, .refl x, rfl⟩
  · next G' fault hG =>
      rw [hG] at hcheck
      exact ⟨hcheck, .refl x, rfl⟩

theorem nudges_checkQuota (e : Engine V) (now : Nanos) (t : TaskId) :
    Nudges e (e.checkQuota now t).1 := by
  unfold checkQuota
  split
  · exact .refl
  · next x hx =>
      split
      · exact .refl
      · next k G hG =>
          obtain ⟨hroll, hx', hcarrier⟩ := nudged_checkMember G x now true
          have hgroup : e.groups[k]? = some G := by
            obtain ⟨k', -, hk⟩ := Option.bind_eq_some_iff.mp hG
            obtain ⟨G', hG', heq⟩ := Option.map_eq_some_iff.mp hk
            cases heq
            exact hG'
          have hput : Nudges e ((e.updateGroup k fun _ => (G.checkMember x now true).1).updateTask t
              fun _ => (G.checkMember x now true).2.1) := by
            refine .trans (.single (.group fun G' hG' => ?_)) (nudges_put hx hx' hcarrier)
            rw [hgroup] at hG'
            cases hG'
            exact hroll
          dsimp only
          split
          · exact hput
          · exact hput.tail (.blame _)

/-! ## Switches -/

theorem nudges_switchIn (e : Engine V) (now : Nanos) (c : Nat) (t : TaskId) :
    Nudges e (e.switchIn now c t) := by
  have hlock : Nudges e (e.updateTask t ({ · with locked := true, enteredAt := now })) :=
    nudges_updateTask (fun _ => ⟨rfl, fun _ => rfl, id, fun _ => id⟩) fun _ => rfl
  exact hlock.trans (nudges_updateCarrier fun _ _ => rfl)

theorem nudges_resumeOwned (e : Engine V) (now : Nanos) (c : Nat) (t : TaskId) :
    Nudges e (e.resumeOwned now c t) := by
  have hquota := nudges_checkQuota e now t
  unfold resumeOwned
  dsimp only
  split
  · exact ((hquota.trans (nudges_count _ rfl)).trans (nudges_disarm _ t)).trans
      (nudges_arm _ now c t _ .resume false)
  · split
    · exact hquota
    · split
      · exact (hquota.trans (nudges_count _ rfl)).trans (nudges_wake _ now t)
      · exact hquota.trans (nudges_switchIn _ now c t)

theorem nudges_steal? (hc : c < e.carriers.size) (h : e.steal? c x = some e') :
    Nudges e e' := by
  unfold steal? at h
  split at h
  · cases h
  · cases h
    refine .single (.task (fun z _ => ?_) fun z _ => ?_)
    · simp only [Task.moveCarrier, ↓reduceIte]
      exact ⟨rfl, fun _ => rfl, id, fun _ => id⟩
    · simp only [Task.moveCarrier, ↓reduceIte]
      exact .inr ⟨c, hc, rfl⟩

theorem nudges_resume (hc : c < e.carriers.size) (now : Nanos) (t : TaskId) :
    Nudges e (e.resume now c t) := by
  unfold resume
  split
  · exact .refl
  · split
    · exact .single (.blame _)
    · split
      · exact nudges_resumeOwned e now c t
      · split
        · next hs =>
            exact ((nudges_steal? hc hs).trans (nudges_count _ rfl)).trans
              (nudges_resumeOwned _ now c t)
        · exact (nudges_count e rfl).trans (nudges_wake _ now t)

theorem nudges_switchOut (e : Engine V) (now : Nanos) (c : Nat) :
    Nudges e (e.switchOut now c) := by
  unfold switchOut
  split
  · exact .refl
  · next x hx =>
      have hseat : Nudges e (e.updateCarrier c
          ({ · with current := none, state := .idle, deferred := none, pendingPrecise := [] })) :=
        nudges_updateCarrier fun _ _ => rfl
      have hleft : ∀ y : Task, y.Nudged { y with
          locked := false
          context := if y.status = .dead then .absent else y.context } := fun y =>
        ⟨rfl, fun halive => if_neg halive, id, fun _ => id⟩
      have hregister : ∀ {e₁ : Engine V}, Nudges e e₁ → Nudges e (x.pendingPrecise.foldl
          (fun e number => e.register { owner := preciseOwner, number }) e₁) := fun h =>
        h.trans (nudges_foldl
          (fun e number => nudges_register e { owner := preciseOwner, number }) _ _)
      have hlock : ∀ t, Nudges e ((e.updateCarrier c
          ({ · with current := none, state := .idle, deferred := none,
                    pendingPrecise := [] })).updateTask t fun y =>
            { y with
              locked := false
              context := if y.status = .dead then .absent else y.context }) := fun t =>
        hseat.trans (nudges_updateTask hleft fun _ => rfl)
      cases x.current with
      | none =>
          cases x.deferred with
          | none => exact hregister hseat
          | some u => exact (hregister hseat).trans (nudges_wake _ now u)
      | some t =>
          cases x.deferred with
          | none => exact hregister (hlock t)
          | some u => exact (hregister (hlock t)).trans (nudges_wake _ now u)

/-! ## What nudges keep -/

theorem Nudge.sameWork (h : Nudge e e') : SameWork e e' := by
  cases h with
  | @task t f h home =>
      refine ⟨⟨fun he => ?_, map_modify_of_eq fun x hx => ?_, rfl, fun _ => Nat.le_refl _, rfl⟩,
        calm_updateTask fun x hx => (h x hx).waits, rfl, rfl, rfl, rfl, rfl⟩
      · intro u y d hy hd
        rw [task?_updateTask] at hy
        split at hy
        · next hu =>
            obtain ⟨x, hx, rfl⟩ := Option.map_eq_some_iff.mp hy
            rcases home x (hu ▸ hx) with hold | ⟨c, hc, hnew⟩
            · exact he u x d hx (hold.symm.trans hd)
            · rw [hnew] at hd
              cases hd
              exact hc
        · exact he u y d hy hd
      · have hbadge : (f x).badge.duty = x.badge.duty := congrArg Task.duty (h x hx).badge
        exact hbadge
  | carrier h => exact (sameRecords_updateCarrier h).sameWork
  | group same => exact sameWork_updateGroup _ _ _
  | job h => exact (sameRecords_updateJob fun x hx => (h x hx).record).sameWork
  | @add n k h =>
      have hother : ∀ m : Counter, m.isKept = true → (e.stats.add n k).get m = e.stats.get m := by
        intro m hm
        rw [Stats.get_add, if_neg]
        rintro rfl
        rw [h] at hm
        cases hm
      exact sameWork_of_eq rfl rfl rfl rfl rfl rfl rfl (hother .tasksSubmitted rfl)
        (hother .tasksCompleted rfl)
  | blame x => exact (sameRecords_blame e x).sameWork
  | precise q => exact sameWork_of_eq rfl rfl rfl rfl rfl rfl rfl rfl rfl
  | channels n pump => exact sameWork_of_eq rfl rfl rfl rfl rfl rfl rfl rfl rfl

theorem Nudges.sameWork (h : Nudges e e') : SameWork e e' :=
  h.induct .refl .trans Nudge.sameWork

end Engine

end GreenThreads

import GreenThreads.Proofs.Lobby.Sound
import GreenThreads.Proofs.Engine.Ways

/-!
# No completion is lost

What an engine does to a piece of work, to those who wait for it and to other tasks is made of the
steps of a lobby. In every order of the steps, once a completion is over nobody is left waiting for
it.
-/

namespace GreenThreads.Lobby

open Engine

variable {V : Type} {l : Lobby V} {e : Engine V} {t : TaskId} {cell : Join V} {x : Task} {a : Axis}

/-! ## What an engine does -/

/-- What changes neither cells nor the axes that waits park on is done aside. -/
theorem aside_of_tasks (hjobs : e.jobs = l.engine.jobs)
    (htasks : ∀ t x, l.engine.task? t = some x →
      ∃ y, e.task? t = some y ∧ y.generation = x.generation ∧ y.internal = x.internal) :
    l.Aside e :=
  ⟨fun cell hcell => ⟨cell, hjobs ▸ hcell, rfl, rfl, rfl⟩, fun t x _ hx => htasks t x hx⟩

theorem aside_wakeReleased (l : Lobby V) (now : Nanos) (t : TaskId) (r : Released) :
    l.Aside (l.engine.wakeReleased now t r) :=
  aside_of_tasks (jobs_wakeReleased _ now t r) fun u x hx => by
    rw [task?_wakeReleased, hx]
    split
    · exact ⟨_, rfl, Task.generation_wokenBy r, internal_wokenBy x now r⟩
    · exact ⟨x, rfl, rfl, rfl⟩

theorem aside_updateTask (l : Lobby V) (t : TaskId) {f : Task → Task}
    (hf : ∀ x, (f x).generation = x.generation ∧ (f x).internal = x.internal) :
    l.Aside (l.engine.updateTask t f) :=
  aside_of_tasks rfl fun u x hx => by
    rw [task?_updateTask, hx]
    split
    · exact ⟨_, rfl, hf x⟩
    · exact ⟨x, rfl, rfl, rfl⟩

theorem internal_clearTimeoutIf (x : Task) (r : TimeoutRef) :
    (x.clearTimeoutIf r).internal = x.internal := by
  unfold Task.clearTimeoutIf
  split <;> rfl

theorem Reached.unpark (h : Reached l) (now : Nanos) (t : TaskId) (a : Axis) :
    Reached { l with engine := l.engine.unpark now t a } := by
  unfold Engine.unpark
  split
  · exact h
  · next x hx =>
      have hreleased : Reached { l with engine := l.engine.updateTask t fun _ => (x.release a).1 } := by
        cases a with
        | user =>
            have heq : l.engine.updateTask t (fun y => (y.release .user).1) =
                l.engine.updateTask t fun _ => (x.release .user).1 := updateTask_congr hx rfl
            exact heq ▸ h.step (.aside (aside_updateTask l t fun _ => ⟨rfl, rfl⟩))
        | internal =>
            have heq : l.engine.updateTask t (fun y => (y.release .internal).1) =
                l.engine.updateTask t fun _ => (x.release .internal).1 := updateTask_congr hx rfl
            have hstep : Reached { l with
                engine := l.engine.updateTask t fun y => (y.release .internal).1 } :=
              h.step (.release t)
            rw [heq] at hstep
            exact hstep
      exact hreleased.step (.aside (aside_wakeReleased _ now t _))

theorem Reached.useWaker (h : Reached l) (now : Nanos) (w : Waker) :
    Reached { l with engine := l.engine.useWaker now w } := by
  unfold Engine.useWaker
  split
  · exact h
  · split
    · exact h.unpark now w.task w.axis
    · exact h

theorem Reached.wakeWaiting (h : Reached l) (now : Nanos) (t : TaskId) (a : Axis) :
    Reached { l with engine := l.engine.wakeWaiting now t a } := by
  unfold Engine.wakeWaiting
  split
  · exact h
  · next x hx =>
      split
      · next p r hp =>
          have hfreed : Reached { l with engine := l.engine.updateTask t (·.setParker a p) } := by
            cases a with
            | user => exact h.step (.aside (aside_updateTask l t fun _ => ⟨rfl, rfl⟩))
            | internal =>
                have heq : l.engine.updateTask t
                    (fun y => y.setParker .internal y.internal.wakeWaiting.1) =
                    l.engine.updateTask t (·.setParker .internal p) :=
                  updateTask_congr hx (congrArg (x.setParker .internal ·.1) hp)
                have hstep : Reached { l with
                    engine := l.engine.updateTask t
                      fun y => y.setParker .internal y.internal.wakeWaiting.1 } := h.step (.free t)
                rw [heq] at hstep
                exact hstep
          exact hfreed.step (.aside (aside_wakeReleased _ now t r))
      · exact h

theorem Reached.fire (h : Reached l) (now : Nanos) (r : TimeoutRef) :
    Reached { l with engine := l.engine.fire now r } := by
  unfold Engine.fire
  split
  · exact h
  · next y hy =>
      split
      · exact h
      · have hclear : Reached { l with
            engine := (l.engine.count .timersFired).updateTask y.task (·.clearTimeoutIf r) } := by
          refine h.step (.aside (aside_of_tasks rfl fun u x hx => ?_))
          rw [task?_updateTask]
          have hx : (l.engine.count .timersFired).task? u = some x := hx
          rw [hx]
          split
          · exact ⟨_, rfl, Task.generation_clearTimeoutIf r, internal_clearTimeoutIf x r⟩
          · exact ⟨x, rfl, rfl, rfl⟩
        dsimp only
        split
        · exact hclear.step (.aside (aside_wakeReleased _ now y.task .cooperative))
        · exact hclear.wakeWaiting now y.task _
        · exact hclear.wakeWaiting now y.task _

theorem Reached.callAll (now : Nanos) (ws : List Waker) {e : Engine V}
    (h : Reached { l with engine := e, finish := .calling ws }) :
    Reached { l with engine := ws.foldl (Engine.useWaker · now ·) e, finish := .calling [] } := by
  induction ws generalizing e with
  | nil => exact h
  | cons w ws ih =>
      refine ih (e := e.useWaker now w) ?_
      unfold Engine.useWaker
      split
      · next hnone =>
          exact h.step (.complete (.skip rfl fun x hx => by rw [hnone] at hx; cases hx))
      · next x hx =>
          split
          · next same =>
              have hcall := h.step (.complete (.call rfl hx same))
              have hstrike := hcall.step (.complete (.strike rfl hx))
              have hrouse := hstrike.step (.complete (.rouse now rfl))
              unfold Engine.unpark
              rw [hx]
              exact hrouse
          · next other =>
              exact h.step (.complete (.skip rfl fun y hy => by rw [hx] at hy; cases hy; exact other))

/-- A completion that nobody interrupts is that of the engine. -/
theorem Reached.publish (h : Reached l) (at_ : l.finish = .before) (open_ : l.keeper = none)
    (found : l.cell? = some cell) (r : Except JoinError V) (now : Nanos) :
    Reached { l with
      engine := l.engine.publish now l.job (cell.complete r)
      finish := .returned
      vigils := fun n => (l.vigils n).notify
      stored := some r } := by
  have hlock := h.step (.complete (.lock at_ open_))
  have hraise := (hlock.step (.complete (.store r rfl))).step (.complete (.raise rfl))
  have hunlock := (hraise.step (.complete (.notify rfl))).step (.complete (.unlock rfl))
  have hgather := hunlock.step (.complete (.gather rfl (cell?_write (cell?_write found _) _)))
  have hcell : ((l.engine.updateJob l.job ({ · with result := some r })).updateJob l.job
      ({ · with done := true })).updateJob l.job ({ · with waiters := [] }) =
      l.engine.updateJob l.job fun _ => (cell.complete r).1 := by
    simp only [updateJob, modify_modify]
    rw [modify_congr (k := fun _ => (cell.complete r).1) found rfl]
  have hgathered : Reached { l with
      engine := l.engine.updateJob l.job fun _ => (cell.complete r).1
      finish := .calling cell.waiters
      vigils := fun n => (l.vigils n).notify
      stored := some r } := by
    rw [← hcell]
    exact open_ ▸ hgather
  have hcalled := Reached.callAll (l := { l with
    vigils := fun n => (l.vigils n).notify
    stored := some r }) now cell.waiters hgathered
  exact hcalled.step (.complete (.return_ rfl))

theorem Reached.register (h : Reached l) (timed : Bool) (at_ : l.visits t = .away)
    (found : l.engine.task? t = some x) (awake : x.internal.isWaiting = false)
    (hcell : l.cell? = some cell) (hopen : cell.done = false) :
    Reached ((l.write (·.addWaiter ⟨t, x.generation, .internal⟩)).visit t (.deciding timed)) := by
  have hat (v : Visit) (l' : Lobby V) : (l'.visit t v).visits t = v := Function.update_self ..
  have henter := h.step (.visit t (.arrive timed at_ found awake))
  have htest := henter.step (.visit t (.miss (by rw [hat]; rfl) hcell hopen))
  have hpush := htest.step (.visit t (.miss (by rw [hat]; rfl) hcell hopen))
  have hlook := hpush.step (.visit t (.push (hat _ _) found))
  have hdecide := hlook.step (.visit t (.miss (by rw [hat]; rfl)
    (cell?_write (l := l.visit t .away) hcell _) hopen))
  simp only [visit, write, Function.update_idem] at hdecide ⊢
  exact hdecide

theorem Reached.wait (h : Reached l) (timed native : Bool) {p : Parker} {blocks : Bool}
    (at_ : l.visits t = .away) (found : l.engine.task? t = some x)
    (allowed : x.internal.begin native = .ok (p, blocks)) (hcell : l.cell? = some cell)
    (hopen : cell.done = false) :
    Reached ({ l with
      engine := (l.engine.updateJob l.job (·.addWaiter ⟨t, x.generation, .internal⟩)).updateTask t
        (·.setParker .internal p) }.visit t
          (if blocks then .parked timed native else .resumed timed)) := by
  have hawake : x.internal.isWaiting = false := by
    cases hx : x.internal with
    | free | permitted => rfl
    | waiting | waitingNative => rw [hx] at allowed; cases allowed
  have hregister := h.register timed at_ found hawake hcell hopen
  have hbegin := hregister.step
    (.visit t (.begin native (Function.update_self ..) found allowed))
  simp only [visit, write, touch, Function.update_idem] at hbegin ⊢
  exact hbegin

theorem Reached.doze (h : Reached l) (timed : Bool) {n : Nat} (at_ : l.vigils n = .away)
    (open_ : l.keeper = none) (hcell : l.cell? = some cell) (hopen : cell.done = false) :
    Reached (l.watch n (.asleep timed false)) := by
  have hat (v : Vigil) (l' : Lobby V) : (l'.watch n v).vigils n = v := Function.update_self ..
  have henter := h.step (.watch n (.arrive timed at_))
  have hlock := (henter.step (.watch n (.miss (hat _ _) hcell hopen))).step
    (.watch n (.lock (hat _ _) open_))
  have hstay := hlock.step (.watch n (.stay (hat _ _) hcell hopen))
  have hsleep := hstay.step (.watch n (.sleep (hat _ _)))
  simp only [watch, Function.update_idem] at hsleep ⊢
  exact open_ ▸ hsleep

/-! ## No completion is lost -/

/-- Once a completion is over, no task that is parked in its wait still waits on its axis, and every
thread that sleeps was notified. Whoever is told that the work is over is told so after the result
was stored, and the result was handed out at most once. -/
theorem Reached.loses_no_completion (h : Reached l) :
    (l.finish = .returned →
      (∀ t timed native, l.visits t = .parked timed native →
        ∃ x, l.engine.task? t = some x ∧ x.internal.isWaiting = false) ∧
      ∀ n timed, l.vigils n ≠ .asleep timed false) ∧
    (∀ t, l.visits t = .returned true → l.stored.isSome = true) ∧
    (∀ n, l.vigils n = .returned true → l.stored.isSome = true) ∧
    l.taken.length ≤ 1 ∧ ∀ r ∈ l.taken, l.stored = some r := by
  obtain ⟨cell, hsound⟩ := h.sound
  have hstored (hr : l.finish.hasRaised = true) : l.stored.isSome = true :=
    hsound.stored.trans (hasStored_of_hasRaised hr)
  refine ⟨fun hover => ⟨fun t timed native ht => ?_, fun n timed hn => ?_⟩,
    fun t ht => hstored (hsound.answers t ht), fun n hn => ?_, ?_, fun r hr => ?_⟩
  · obtain ⟨x, hx, hfits⟩ := hsound.visits t (by rw [ht]; rfl)
    rw [ht, hand, hover] at hfits
    exact ⟨x, hx, hfits.resolve_left List.not_mem_nil⟩
  · have hwaits := hsound.vigils n
    rw [hn, hover] at hwaits
    cases hwaits
  · have hwaits := hsound.vigils n
    rw [hn] at hwaits
    exact hstored hwaits
  · have hone : l.stored.toList.length ≤ 1 := by
      cases l.stored with
      | none => exact Nat.zero_le 1
      | some r => exact Nat.le_refl 1
    rw [← hsound.result, List.length_append] at hone
    exact Nat.le_trans (Nat.le_add_left _ _) hone
  · have hmem : r ∈ l.stored.toList := hsound.result ▸ List.mem_append_right _ hr
    exact Option.mem_toList.mp hmem

/-- One task is parked when the work is completed, another one is about to park, and a thread
sleeps. The second task takes the result. -/
theorem loses_no_completion_between_steps : ∃ (l : Lobby Unit) (x : Task), Reached l ∧
    l.finish = .returned ∧ l.visits ⟨0⟩ = .parked false false ∧ l.engine.task? ⟨0⟩ = some x ∧
    x.internal.isWaiting = false ∧ l.vigils 0 = .asleep false true ∧ l.taken = [.ok ()] ∧
    l.stored = some (.ok ()) := by
  let lobby (first second : Parker) (waiters : List Waker) : Lobby Unit :=
    { engine := {
        config := {}
        carriers := #[Carrier.make 0 1]
        pool := { capacity := 1 }
        tasks := #[{ Task.fresh ⟨0⟩ with status := .alive, carrier := some 0, internal := first },
          { Task.fresh ⟨1⟩ with status := .alive, carrier := some 0, internal := second }]
        jobs := #[{ waiters }]
        precise := { owner := preciseOwner }
        running := 1 }
      job := 0 }
  have h0 : Reached (lobby .free .free []) := .start rfl rfl rfl
  have h1 : Reached ((lobby .waiting .free [⟨⟨0⟩, 0, .internal⟩]).visit ⟨0⟩ (.parked false false)) :=
    h0.wait (t := ⟨0⟩) false false rfl rfl rfl rfl rfl
  have h2 : Reached (((lobby .waiting .free [⟨⟨0⟩, 0, .internal⟩, ⟨⟨1⟩, 0, .internal⟩]).visit ⟨0⟩
      (.parked false false)).visit ⟨1⟩ (.deciding false)) :=
    h1.register (t := ⟨1⟩) false rfl rfl rfl rfl rfl
  have h3 := h2.doze (n := 0) false rfl rfl rfl rfl
  have h4 := h3.publish rfl rfl rfl (.ok ()) 5
  -- The second task finds the permit that the completion left, and looks again.
  have h5 := h4.step (.visit ⟨1⟩ (.begin false rfl rfl rfl))
  have h6 := h5.step (.visit ⟨1⟩ (.again rfl))
  have h7 := h6.step (.visit ⟨1⟩ (.see rfl rfl rfl))
  have h8 := h7.step (.visit ⟨1⟩ (.take rfl rfl rfl))
  obtain ⟨hover, -, -, -, htaken⟩ := h8.loses_no_completion
  obtain ⟨hparked, -⟩ := hover rfl
  obtain ⟨x, hx, hfree⟩ := hparked ⟨0⟩ false false rfl
  exact ⟨_, x, h8, rfl, rfl, hx, hfree, rfl, rfl, htaken (.ok ()) (.head _)⟩

end GreenThreads.Lobby

import GreenThreads.Proofs.Lookout.Steps

/-!
# What a registration is

Which operations of an engine have a part in waits for channels, and what the others leave alone.
The counter of the engine is the number of tasks whose channel is set, and no task has one that is
done with its work or blocks for anything but a channel.
-/

namespace GreenThreads

/-! ## Tasks -/

namespace Task

variable {x y z : Task}

theorem not_waits_fresh (t : TaskId) : ¬(fresh t).Waits := by
  rintro ⟨a, h⟩
  cases a <;> cases h

theorem Landward.refl (x : Task) : x.Landward x := ⟨rfl, .inl rfl, fun h => h⟩

theorem Landward.trans (h : x.Landward y) (h' : y.Landward z) : x.Landward z := by
  refine ⟨h'.channel.trans h.channel, ?_, fun hw => h.waits (h'.waits hw)⟩
  rcases h'.ready with hr | hr
  · rw [hr]
    exact h.ready
  · exact .inr hr

/-- Only what does not concern channels is changed, and both axes stay as they are. -/
theorem landward_of_eq (hc : y.channel = x.channel) (hr : y.ready = x.ready)
    (hp : ∀ a, y.parker a = x.parker a) : x.Landward y :=
  ⟨hc, .inl hr, fun h => h.imp fun a ha => by rwa [← hp a]⟩

/-- One axis is freed, or given a permit. -/
theorem landward_setParker (x : Task) (a : Axis) {p : Parker} (hp : p.isWaiting = false) :
    x.Landward (x.setParker a p) := by
  refine ⟨by cases a <;> rfl, .inl (by cases a <;> rfl), ?_⟩
  rintro ⟨b, hb⟩
  cases a <;> cases b
  · rw [parker_setParker_self, hp] at hb; cases hb
  · exact ⟨.internal, hb⟩
  · exact ⟨.user, hb⟩
  · rw [parker_setParker_self, hp] at hb; cases hb

theorem isWaiting_release (p : Parker) : p.release.1.isWaiting = false := by cases p <;> rfl

theorem landward_release (x : Task) (a : Axis) : x.Landward (x.release a).1 :=
  landward_setParker x a (isWaiting_release _)

theorem status_release (x : Task) (a : Axis) : (x.release a).1.status = x.status := by
  cases a <;> rfl

theorem landward_takeElapsed (x : Task) (now : Nanos) : x.Landward (x.takeElapsed now).1 := by
  unfold takeElapsed
  split
  · exact landward_of_eq rfl rfl fun a => by cases a <;> rfl
  · exact landward_of_eq rfl rfl fun a => by cases a <;> rfl

theorem status_takeElapsed (x : Task) (now : Nanos) : (x.takeElapsed now).1.status = x.status := by
  unfold takeElapsed
  split <;> rfl

/-- A task is given work: what it has seen of channels is forgotten, and its axes are freed. -/
theorem landward_reset (name : String) (c : Nat) (rest : x.status ≠ .alive → x.channel = none) :
    x.Landward (x.reset name c).1 ∧ (x.status = .alive → (x.reset name c).1.status = .alive) := by
  unfold reset
  split
  · exact ⟨.refl x, fun h => h⟩
  · exact ⟨.refl x, fun h => h⟩
  · next hcached =>
      have hchannel := rest (by rw [hcached]; nofun)
      have hdead : x.status = .alive → False := by rw [hcached]; nofun
      have hfreed : ∀ y : Task, y.channel = none → y.ready = 0 → y.user = .free →
          (y.internal = x.internal ∨ y.internal = .free) → x.Landward y := by
        intro y hc hr hu hi
        refine ⟨hc.trans hchannel.symm, .inr hr, ?_⟩
        rintro ⟨a, ha⟩
        cases a with
        | user =>
            rw [parker, hu] at ha
            cases ha
        | internal =>
            rcases hi with hi | hi
            · exact ⟨.internal, by rwa [parker, hi] at ha⟩
            · rw [parker, hi] at ha
              cases ha
      refine ⟨?_, fun ha => (hdead ha).elim⟩
      dsimp only [forget, Parker.clear]
      split
      · next h =>
          obtain ⟨rfl, -⟩ := Prod.mk.inj h
          exact hfreed _ rfl rfl rfl (.inl rfl)
      · next h =>
          obtain ⟨rfl, -⟩ := Prod.mk.inj h
          split
          · next h =>
              obtain ⟨rfl, -⟩ := Prod.mk.inj h
              exact hfreed _ rfl rfl rfl (.inr rfl)
          · next h =>
              obtain ⟨rfl, -⟩ := Prod.mk.inj h
              exact hfreed _ rfl rfl rfl (.inr rfl)

end Task

namespace Engine

variable {V : Type} {e e' e'' : Engine V} {t u : TaskId} {x : Task} {f : Task → Task}
  {gone : Option TaskId} {now : Nanos} {c : Nat}

/-! ## Berths -/

theorem berth_of_task? (h : e.task? t = some x) : e.berth t = x := by
  rw [berth, h, Option.getD_some]

theorem berth_congr (h : e'.tasks = e.tasks) (t : TaskId) : e'.berth t = e.berth t := by
  rw [berth, berth, task?, task?, h]

/-- Who is registered, waits or has work is no fresh task. -/
theorem task?_berth (h : e.berth t ≠ Task.fresh t) : e.task? t = some (e.berth t) := by
  cases ht : e.task? t with
  | none => exact absurd (by rw [berth, ht]; rfl) h
  | some x => rw [berth_of_task? ht]

theorem Awake.berth (h : e.Awake t x) : e.berth t = x := berth_of_task? h.1

theorem berth_updateTask_of_ne (h : u ≠ t) (f : Task → Task) :
    (e.updateTask t f).berth u = e.berth u := by
  rw [berth, berth, task?_updateTask, if_neg h]

theorem berth_updateTask_self (h : e.task? t = some x) (f : Task → Task) :
    (e.updateTask t f).berth t = f x := by
  rw [berth, task?_updateTask_self, h]
  rfl

theorem mem_moored : t ∈ e.moored ↔ (e.berth t).channel ≠ none := by
  constructor
  · rintro ⟨x, hx, hc⟩
    rwa [berth_of_task? hx]
  · intro hc
    refine ⟨_, task?_berth ?_, hc⟩
    intro hfresh
    rw [hfresh] at hc
    exact hc rfl

theorem moored_subset (e : Engine V) :
    e.moored ⊆ ((Finset.range e.tasks.size).image TaskId.mk : Finset TaskId) := by
  rintro t ⟨x, hx, -⟩
  obtain ⟨hlt, -⟩ := Array.getElem?_eq_some_iff.mp hx
  exact Finset.mem_coe.mpr (Finset.mem_image.mpr ⟨t.index, Finset.mem_range.mpr hlt, rfl⟩)

theorem finite_moored (e : Engine V) : e.moored.Finite :=
  (Finset.finite_toSet _).subset e.moored_subset

theorem ncard_moored_le (e : Engine V) : e.moored.ncard ≤ e.tasks.size := by
  have hle := Set.ncard_le_ncard e.moored_subset (Finset.finite_toSet _)
  rw [Set.ncard_coe_finset] at hle
  exact hle.trans (Finset.card_image_le.trans (Finset.card_range _).le)

theorem moored_congr (h : ∀ t, (e'.berth t).channel = (e.berth t).channel) :
    e'.moored = e.moored := by
  ext t
  rw [mem_moored, mem_moored, h]

/-! ## What has no part in waits for channels -/

namespace Landward

theorem refl (gone : Option TaskId) (e : Engine V) : e.Landward gone e :=
  ⟨rfl, rfl, fun _ => .refl _, fun _ _ h => h⟩

theorem trans (h : e.Landward gone e') (h' : e'.Landward gone e'') : e.Landward gone e'' :=
  ⟨h'.pump.trans h.pump, h'.ioWaiters.trans h.ioWaiters, fun t => (h.tasks t).trans (h'.tasks t),
    fun t ht ha => h'.alive t ht (h.alive t ht ha)⟩

theorem moored (h : e.Landward gone e') : e'.moored = e.moored :=
  moored_congr fun t => (h.tasks t).channel

end Landward

theorem landward_of_eq (ht : e'.tasks = e.tasks) (hp : e'.pump = e.pump)
    (hw : e'.ioWaiters = e.ioWaiters) : e.Landward gone e' :=
  ⟨hp, hw, fun t => by rw [berth_congr ht]; exact .refl _, fun t _ ha => by rwa [berth_congr ht]⟩

/-- A new task counted as fresh before it was made. -/
theorem landward_makeTask (gone : Option TaskId) (e : Engine V) :
    e.Landward gone e.makeTask.1 := by
  have hberth : ∀ t, e.makeTask.1.berth t = e.berth t := by
    intro t
    rw [berth, berth, task?, task?, makeTask, Array.getElem?_push]
    split
    · next ht =>
        have hid : (⟨e.tasks.size⟩ : TaskId) = t := by rw [← ht]
        rw [ht, Array.getElem?_eq_none (Nat.le_refl _), hid]
        rfl
    · rfl
  exact ⟨rfl, rfl, fun t => by rw [hberth]; exact .refl _, fun t _ ha => by rwa [hberth]⟩

theorem landward_updateTask (h : ∀ x : Task, x.Landward (f x))
    (ha : gone = some t ∨ ∀ x : Task, x.status = .alive → (f x).status = .alive) :
    e.Landward gone (e.updateTask t f) := by
  refine ⟨rfl, rfl, fun u => ?_, fun u hu halive => ?_⟩
  · cases ht : e.task? u with
    | none => rw [berth, berth, task?_updateTask, ht]; split <;> exact .refl _
    | some y =>
        rw [berth, berth, task?_updateTask, ht]
        split
        · exact h y
        · exact .refl y
  · by_cases hut : u = t
    · subst hut
      rcases ha with rfl | ha
      · exact absurd rfl hu
      · cases ht : e.task? u with
        | none => rw [berth, ht] at halive; cases halive
        | some y =>
            rw [berth_of_task? ht] at halive
            rw [berth_updateTask_self ht]
            exact ha y halive
    · rwa [berth_updateTask_of_ne hut]

theorem landward_become {y : Task} (ht : e.task? t = some x) (h : x.Landward y)
    (ha : x.status = .alive → y.status = .alive) : e.Landward gone (e.updateTask t fun _ => y) := by
  refine ⟨rfl, rfl, fun u => ?_, fun u _ halive => ?_⟩
  · by_cases hu : u = t
    · subst hu
      rw [berth_of_task? ht, berth_updateTask_self ht]
      exact h
    · rw [berth_updateTask_of_ne hu]
      exact .refl _
  · by_cases hu : u = t
    · subst hu
      rw [berth_of_task? ht] at halive
      rw [berth_updateTask_self ht]
      exact ha halive
    · rwa [berth_updateTask_of_ne hu]

theorem landward_put {y : Task} (ht : e.task? t = some x) (h : x.Landward y)
    (ha : y.status = x.status) : e.Landward gone (e.updateTask t fun _ => y) :=
  landward_become ht h fun halive => ha.trans halive

theorem landward_updateTimers (e : Engine V) (owner : Nat) (g : TimerQueue → TimerQueue) :
    e.Landward gone (e.updateTimers owner g) := by
  unfold updateTimers
  split <;> exact landward_of_eq rfl rfl rfl

theorem landward_wake (e : Engine V) (now : Nanos) (t : TaskId) :
    e.Landward gone (e.wake now t) := by
  unfold wake
  split
  · exact .refl _ e
  · split
    · exact .refl _ e
    · split
      · have hqueued : e.Landward gone
            (e.updateTask t ({ · with enqueued := true, enqueuedAt := now })) :=
          landward_updateTask
            (fun _ => Task.landward_of_eq rfl rfl fun a => by cases a <;> rfl) (.inr fun _ h => h)
        exact hqueued.trans (landward_of_eq rfl rfl rfl)
      · exact .refl _ e

theorem landward_wakeReleased (e : Engine V) (now : Nanos) (t : TaskId) (r : Released) :
    e.Landward gone (e.wakeReleased now t r) := by
  cases r with
  | cooperative => exact landward_wake e now t
  | native => exact .refl _ e
  | permit => exact .refl _ e

theorem landward_unpark (e : Engine V) (now : Nanos) (t : TaskId) (a : Axis) :
    e.Landward gone (e.unpark now t a) := by
  unfold unpark
  split
  · exact .refl _ e
  · next x hx =>
      exact (landward_put hx (Task.landward_release x a) (Task.status_release x a)).trans
        (landward_wakeReleased _ now t _)

theorem landward_disarm (e : Engine V) (t : TaskId) : e.Landward gone (e.disarm t) := by
  unfold disarm
  split
  · exact .refl _ e
  · split
    · exact .refl _ e
    · have htaken : e.Landward gone (e.updateTask t fun task => task.takeTimeout.1) :=
        landward_updateTask
          (fun _ => Task.landward_of_eq rfl rfl fun a => by cases a <;> rfl) (.inr fun _ h => h)
      dsimp only
      split
      · exact (htaken.trans (landward_updateTimers _ _ _)).trans (landward_of_eq rfl rfl rfl)
      · exact htaken

theorem landward_accountRun (e : Engine V) (now : Nanos) (t : TaskId) :
    e.Landward gone (e.accountRun now t) := by
  unfold accountRun
  split
  · exact .refl _ e
  · next x hx =>
      have hput : e.Landward gone (e.updateTask t fun _ => (x.takeElapsed now).1) :=
        landward_put hx (Task.landward_takeElapsed x now) (Task.status_takeElapsed x now)
      dsimp only
      split
      · exact hput.trans (landward_of_eq rfl rfl rfl)
      · exact hput.trans (landward_of_eq rfl rfl rfl)

theorem landward_detach (e : Engine V) (now : Nanos) (t : TaskId) (g : GroupId) :
    e.Landward gone (e.detach now t g) := by
  unfold detach
  split
  · next x group hx _ =>
      have htask : x.Landward (group.detach g x now).2 ∧
          (group.detach g x now).2.status = x.status := by
        unfold ControlGroup.detach
        split
        · exact ⟨(Task.landward_takeElapsed x now).trans
            (Task.landward_of_eq rfl rfl fun a => by cases a <;> rfl),
            Task.status_takeElapsed x now⟩
        · exact ⟨.refl x, rfl⟩
      have hgroup : e.Landward gone (e.updateGroup g fun _ => (group.detach g x now).1) :=
        landward_of_eq rfl rfl rfl
      exact hgroup.trans (landward_put (e := e.updateGroup g _) hx htask.1 htask.2)
  · exact .refl _ e

theorem landward_register (e : Engine V) (r : TimeoutRef) : e.Landward gone (e.register r) :=
  landward_updateTimers e _ _

/-- The task is let go by its carrier. -/
theorem landward_unlock (e : Engine V) (t : TaskId) : e.Landward gone
    (e.updateTask t fun task => { task with
      locked := false
      context := if task.status = .dead then .absent else task.context }) :=
  landward_updateTask (fun _ => Task.landward_of_eq rfl rfl fun a => by cases a <;> rfl)
    (.inr fun _ h => h)

theorem landward_registerAll (ks : List Nat) (e : Engine V) : e.Landward gone
    (ks.foldl (fun e number => e.register { owner := preciseOwner, number }) e) := by
  induction ks generalizing e with
  | nil => exact .refl _ e
  | cons k ks ih => exact (landward_register e _).trans (ih _)

theorem landward_switchOut (e : Engine V) (now : Nanos) (c : Nat) :
    e.Landward gone (e.switchOut now c) := by
  unfold switchOut
  split
  · exact .refl _ e
  · next y _ =>
      have hleft : e.Landward gone (e.updateCarrier c
          ({ · with current := none, state := .idle, deferred := none, pendingPrecise := [] })) :=
        landward_of_eq rfl rfl rfl
      cases y.current with
      | none =>
          have hout := hleft.trans (landward_registerAll y.pendingPrecise _)
          cases y.deferred with
          | none => exact hout
          | some t => exact hout.trans (landward_wake _ now t)
      | some u =>
          have hout := (hleft.trans (landward_unlock _ u)).trans
            (landward_registerAll y.pendingPrecise _)
          cases y.deferred with
          | none => exact hout
          | some t => exact hout.trans (landward_wake _ now t)

/-- The task whose work has ended is kept for other work, or destroyed. -/
theorem landward_recycle (e : Engine V) (c : Nat) (t : TaskId) :
    e.Landward (some t) (e.recycle c t) := by
  have hstatus : ∀ (e : Engine V) (s : Status),
      e.Landward (some t) (e.updateTask t ({ · with status := s })) := fun e s =>
    landward_updateTask (fun _ => Task.landward_of_eq rfl rfl fun a => by cases a <;> rfl)
      (.inl rfl)
  unfold recycle
  dsimp only
  split
  · exact (hstatus e .cached).trans (landward_of_eq rfl rfl rfl)
  · split
    · exact (hstatus e .cached).trans (landward_of_eq rfl rfl rfl)
    · exact ((hstatus e .cached).trans (hstatus _ .dead)).trans (landward_of_eq rfl rfl rfl)

/-- Apart from its registration, a task that ends its work has nothing to do with channels. -/
theorem landward_exit (e : Engine V) (now : Nanos) (c : Nat) (t : TaskId) :
    (e.unregisterChannel t).Landward (some t) (e.exit now c t) := by
  have haccount : (e.unregisterChannel t).Landward (some t)
      (((e.unregisterChannel t).disarm t).accountRun now t) :=
    (landward_disarm _ t).trans (landward_accountRun _ now t)
  have hend : ∀ e : Engine V,
      e.Landward (some t) { e with live := e.live.filter (· != t) }.finishOne :=
    fun e => landward_of_eq rfl rfl rfl
  unfold exit
  refine (((haccount.trans ?_).trans (hend _)).trans (landward_recycle _ c t)).trans
    (landward_switchOut _ now c)
  -- It leaves its group, if it is in one.
  split
  · exact landward_detach _ now t _
  · exact .refl _ _

/-- A task that is given work has no channel to forget. -/
theorem landward_assign (c : Nat) (s : Submission)
    (rest : (e.berth t).status ≠ .alive → (e.berth t).channel = none) :
    e.Landward .none (e.assign c t s) := by
  unfold assign
  split
  · exact .refl _ e
  · next x hx =>
      rw [berth_of_task? hx] at rest
      have hreset := Task.landward_reset s.name c rest
      have hput : e.Landward .none
          (e.updateTask t fun _ => { (x.reset s.name c).1 with job := some s.job }) := by
        refine landward_become hx (hreset.1.trans ?_) hreset.2
        exact Task.landward_of_eq rfl rfl fun a => by cases a <;> rfl
      have hblame : ∀ (e : Engine V) (f : Option Fault), e.Landward .none (e.blameIf f) := by
        intro e f
        cases f <;> exact landward_of_eq rfl rfl rfl
      exact (hput.trans (hblame _ _)).trans (landward_of_eq rfl rfl rfl)

/-! ## Registrations -/

/-- The counter of the engine is the number of the tasks whose channel is set. -/
def Counted (e : Engine V) : Prop := e.ioWaiters = .ofNat e.moored.ncard

theorem Landward.counted (h : e.Landward gone e') (hc : e.Counted) : e'.Counted := by
  rw [Counted, h.ioWaiters, h.moored]
  exact hc

/-- A registration that is taken back leaves the task without a channel, and all others alone. -/
theorem berth_unregisterChannel (e : Engine V) (t u : TaskId) :
    (e.unregisterChannel t).berth u =
      if u = t then { e.berth t with channel := none } else e.berth u := by
  unfold unregisterChannel
  split
  · next ht =>
      split
      · next hu =>
          subst hu
          rw [berth, ht]
          rfl
      · rfl
  · next x hx =>
      split
      · next hnone =>
          split
          · next hu =>
              subst hu
              rw [berth_of_task? hx]
              rw [Option.isNone_iff_eq_none] at hnone
              cases x
              simp_all
          · rfl
      · have hberth : ∀ u, berth { e.updateTask t ({ · with channel := none }) with
            ioWaiters := e.ioWaiters - 1
            pump := e.pump.unregister t } u =
              (e.updateTask t ({ · with channel := none })).berth u := fun u => berth_congr rfl u
        rw [hberth]
        split
        · next hu =>
            subst hu
            rw [berth_updateTask_self hx, berth_of_task? hx]
        · next hu => exact berth_updateTask_of_ne hu _

theorem moored_unregisterChannel (e : Engine V) (t : TaskId) :
    (e.unregisterChannel t).moored = e.moored \ {t} := by
  ext u
  rw [mem_moored, berth_unregisterChannel, Set.mem_sdiff, Set.mem_singleton_iff, mem_moored]
  split
  · next hu => simp [hu]
  · next hu => simp [hu]

theorem unregisterChannel_of_notMem (h : t ∉ e.moored) : e.unregisterChannel t = e := by
  unfold unregisterChannel
  split
  · rfl
  · next x hx =>
      rw [mem_moored, berth_of_task? hx, not_not] at h
      rw [if_pos (Option.isNone_iff_eq_none.mpr h)]

theorem unregisterChannel_of_mem (h : t ∈ e.moored) :
    (e.unregisterChannel t).ioWaiters = e.ioWaiters - 1 ∧
      (e.unregisterChannel t).pump = e.pump.unregister t := by
  obtain ⟨x, hx, hc⟩ := h
  have hsome : ¬ x.channel.isNone = true := by rwa [Option.isNone_iff_eq_none]
  simp only [unregisterChannel, hx, if_neg hsome, and_self]

theorem Counted.unregisterChannel (h : e.Counted) (t : TaskId) :
    (e.unregisterChannel t).Counted := by
  by_cases ht : t ∈ e.moored
  · have hcard := Set.ncard_sdiff_singleton_add_one ht e.finite_moored
    rw [Counted, (unregisterChannel_of_mem ht).1, moored_unregisterChannel, h, ← hcard,
      UInt64.ofNat_add]
    exact UInt64.add_sub_cancel _ _
  · rwa [unregisterChannel_of_notMem ht]

/-- A registration that is refused leaves the task without a channel. -/
theorem registerChannel_refused {i : Interest} {c : Channel} {err : EngineError}
    (h : e.registerChannel t c i = (e', some err)) : e' = e.unregisterChannel t := by
  simp only [registerChannel] at h
  split at h
  · cases h
  · cases h
    rfl

theorem registerChannel_accepted {i : Interest} {c : Channel}
    (h : e.registerChannel t c i = (e', none)) :
    ∃ pump, (e.unregisterChannel t).pump.register t c i = .ok pump ∧
      e' = { (e.unregisterChannel t).updateTask t ({ · with channel := some c }) with
        ioWaiters := (e.unregisterChannel t).ioWaiters + 1, pump } := by
  simp only [registerChannel] at h
  split at h
  · next pump hpump =>
      cases h
      exact ⟨pump, hpump, rfl⟩
  · cases h

theorem task?_unregisterChannel (ht : e.task? t = some x) :
    (e.unregisterChannel t).task? t = some { x with channel := none } := by
  have hberth := berth_unregisterChannel e t t
  rw [if_pos rfl, berth_of_task? ht] at hberth
  have hsize : ∀ (e : Engine V) n pump, ({ e with ioWaiters := n, pump } : Engine V).task? t =
      e.task? t := fun _ _ _ => rfl
  cases hx : (e.unregisterChannel t).task? t with
  | some y => rw [← hberth, berth_of_task? hx]
  | none =>
      simp only [unregisterChannel, ht] at hx
      split at hx
      · rw [ht] at hx
        cases hx
      · rw [hsize, task?_updateTask_self, ht] at hx
        cases hx

theorem berth_registerChannel {i : Interest} {c : Channel}
    (h : e.registerChannel t c i = (e', none)) (ht : e.task? t = some x) (u : TaskId) :
    e'.berth u = if u = t then { x with channel := some c } else e.berth u := by
  obtain ⟨pump, -, rfl⟩ := registerChannel_accepted h
  have hberth : ∀ u, berth
      { (e.unregisterChannel t).updateTask t ({ · with channel := some c }) with
        ioWaiters := (e.unregisterChannel t).ioWaiters + 1, pump } u =
          ((e.unregisterChannel t).updateTask t ({ · with channel := some c })).berth u :=
    fun u => berth_congr rfl u
  rw [hberth]
  split
  · next hu =>
      subst hu
      rw [berth_updateTask_self (task?_unregisterChannel ht)]
  · next hu => rw [berth_updateTask_of_ne hu, berth_unregisterChannel, if_neg hu]

theorem moored_registerChannel {i : Interest} {c : Channel}
    (h : e.registerChannel t c i = (e', none)) (ht : e.task? t = some x) :
    e'.moored = insert t e.moored := by
  ext u
  rw [mem_moored, berth_registerChannel h ht, Set.mem_insert_iff, mem_moored]
  split
  · next hu => simp [hu]
  · next hu => simp [hu]

theorem Counted.registerChannel {i : Interest} {c : Channel} (hc : e.Counted)
    (h : e.registerChannel t c i = (e', none)) (ht : e.task? t = some x) : e'.Counted := by
  have hback := hc.unregisterChannel t
  have hnot : t ∉ e.moored \ {t} := fun hmem => hmem.2 rfl
  have hcard := Set.ncard_insert_of_notMem hnot (e.finite_moored.subset Set.sdiff_subset)
  rw [Counted, moored_unregisterChannel] at hback
  rw [Set.insert_sdiff_singleton] at hcard
  rw [Counted, moored_registerChannel h ht, hcard, UInt64.ofNat_add, ← hback]
  obtain ⟨pump, -, rfl⟩ := registerChannel_accepted h
  rfl

/-! ## Turns -/

/-- Nothing happens to any other task than `t`, which becomes `y`. -/
structure Turns (t : TaskId) (e e' : Engine V) (y : Task) : Prop where
  others : ∀ u, u ≠ t → e'.berth u = e.berth u
  own : e'.berth t = y

theorem turns_updateTask (ht : e.task? t = some x) (f : Task → Task) :
    Turns t e (e.updateTask t f) (f x) :=
  ⟨fun _ hu => berth_updateTask_of_ne hu f, berth_updateTask_self ht f⟩

theorem turns_unregisterChannel (ht : e.task? t = some x) :
    Turns t e (e.unregisterChannel t) { x with channel := none } :=
  ⟨fun u hu => by rw [berth_unregisterChannel, if_neg hu],
    by rw [berth_unregisterChannel, if_pos rfl, berth_of_task? ht]⟩

theorem turns_registerChannel {i : Interest} {c : Channel} (ht : e.task? t = some x)
    (h : e.registerChannel t c i = (e', none)) : Turns t e e' { x with channel := some c } :=
  ⟨fun u hu => by rw [berth_registerChannel h ht, if_neg hu],
    by rw [berth_registerChannel h ht, if_pos rfl]⟩

theorem Turns.trans {y z : Task} (h : Turns t e e' y) (h' : Turns t e' e'' z) : Turns t e e'' z :=
  ⟨fun u hu => (h'.others u hu).trans (h.others u hu), h'.own⟩

theorem Counted.updateTask (h : e.Counted) (hf : ∀ x, (f x).channel = x.channel) :
    (e.updateTask t f).Counted := by
  have hmoored : (e.updateTask t f).moored = e.moored := by
    refine moored_congr fun u => ?_
    cases hu : e.task? u with
    | none => rw [berth, berth, task?_updateTask, hu]; split <;> rfl
    | some y =>
        rw [berth, berth, task?_updateTask, hu]
        split
        · exact hf y
        · rfl
  rw [Counted, hmoored]
  exact h

/-! ## Events -/

/-- The tasks that are named in `events` may have been told of readiness for their channels. -/
structure Told (events : List ReadyEvent) (e e' : Engine V) : Prop where
  pump : e'.pump = e.pump
  ioWaiters : e'.ioWaiters = e.ioWaiters
  channel : ∀ t, (e'.berth t).channel = (e.berth t).channel
  waits : ∀ t, (e'.berth t).Waits → (e.berth t).Waits
  alive : ∀ t, (e.berth t).status = .alive → (e'.berth t).status = .alive
  ready : ∀ t k, (e'.berth t).ready.toNat.testBit k = true →
    (e.berth t).ready.toNat.testBit k = true ∨
      ∃ event ∈ events, event.task = t ∧ (e.berth t).channel = some event.channel ∧
        event.ready.mask.testBit k = true

theorem Landward.told (h : e.Landward .none e') (events : List ReadyEvent) :
    Told events e e' where
  pump := h.pump
  ioWaiters := h.ioWaiters
  channel t := (h.tasks t).channel
  waits t := (h.tasks t).waits
  alive t := h.alive t nofun
  ready t k hk := by
    rcases (h.tasks t).ready with hr | hr
    · rw [hr] at hk
      exact .inl hk
    · rw [hr] at hk
      simp at hk

theorem Told.trans {l l' : List ReadyEvent} (h : Told l e e') (h' : Told l' e' e'') :
    Told (l ++ l') e e'' where
  pump := h'.pump.trans h.pump
  ioWaiters := h'.ioWaiters.trans h.ioWaiters
  channel t := (h'.channel t).trans (h.channel t)
  waits t hw := h.waits t (h'.waits t hw)
  alive t ha := h'.alive t (h.alive t ha)
  ready t k hk := by
    rcases h'.ready t k hk with hk | ⟨event, hmem, ht, hc, hk⟩
    · rcases h.ready t k hk with hk | ⟨event, hmem, ht, hc, hk⟩
      · exact .inl hk
      · exact .inr ⟨event, List.mem_append_left _ hmem, ht, hc, hk⟩
    · exact .inr ⟨event, List.mem_append_right _ hmem, ht, (h.channel t).symm.trans hc, hk⟩

theorem told_deliver (e : Engine V) (now : Nanos) (event : ReadyEvent) :
    Told [event] e (e.deliver now event) := by
  have hnone : Told [event] e e := (Landward.refl .none e).told _
  unfold deliver
  split
  · exact hnone
  · next x hx =>
      split
      · next hlive =>
          have hmask : event.ready.mask.toUInt8.toNat = event.ready.mask :=
            Nat.mod_eq_of_lt (Nat.lt_trans event.ready.bits.isLt (by decide))
          have hadd : Told [event] e
              (e.updateTask event.task (·.addReady event.ready.mask.toUInt8)) := by
            have hberth : ∀ t, (e.updateTask event.task
                (·.addReady event.ready.mask.toUInt8)).berth t =
                  if t = event.task then (e.berth t).addReady event.ready.mask.toUInt8
                  else e.berth t := by
              intro t
              split
              · next ht => rw [ht, berth_updateTask_self hx, berth_of_task? hx]
              · next ht => exact berth_updateTask_of_ne ht _
            refine ⟨rfl, rfl, fun t => ?_, fun t => ?_, fun t => ?_, fun t k => ?_⟩
            · rw [hberth]; split <;> rfl
            · rw [hberth]
              split
              · exact fun ⟨a, ha⟩ => ⟨a, by cases a <;> exact ha⟩
              · exact fun h => h
            · rw [hberth]; split <;> exact fun h => h
            · rw [hberth]
              split
              · next ht =>
                  intro hk
                  rw [Task.addReady, UInt8.toNat_or, Nat.testBit_or, hmask, Bool.or_eq_true] at hk
                  rcases hk with hk | hk
                  · exact .inl hk
                  · refine .inr ⟨event, List.mem_singleton_self _, ht.symm, ?_, hk⟩
                    rw [ht, berth_of_task? hx]
                    exact hlive.2
              · exact .inl
          simpa using hadd.trans ((landward_unpark _ now event.task .internal).told [])
      · exact hnone

theorem told_deliverAll (now : Nanos) (events : List ReadyEvent) (e : Engine V) :
    Told events e (events.foldl (deliver · now ·) e) := by
  induction events generalizing e with
  | nil => exact (Landward.refl .none e).told []
  | cons event events ih => exact (told_deliver e now event).trans (ih _)

/-- A poll tells the tasks of the events that the pump hands out. -/
theorem told_pollEvents (e : Engine V) (now : Nanos) :
    Told e.pump.poll.2 { e with pump := e.pump.poll.1 } (e.pollEvents now) :=
  told_deliverAll now _ _

theorem Told.moored {events : List ReadyEvent} (h : Told events e e') : e'.moored = e.moored :=
  moored_congr h.channel

theorem Told.counted {events : List ReadyEvent} (h : Told events e e') (hc : e.Counted) :
    e'.Counted := by
  rw [Counted, h.ioWaiters, h.moored]
  exact hc

end Engine

end GreenThreads

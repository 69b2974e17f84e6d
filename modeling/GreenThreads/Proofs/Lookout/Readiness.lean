import GreenThreads.Proofs.Lookout.Sound

/-!
# What waits for channels can rely on

Between any two steps the engine counts exactly the tasks that are registered, and a pump that keeps
its promises knows exactly them. What a wait answers was asked for and was signalled on its channel
while the task was registered for it, apart from what polls took for a registration left behind by
an earlier wait, after earlier readiness was dropped and before that registration was replaced.
-/

namespace GreenThreads

/-! ## Sets of conditions -/

namespace Interest

variable {i j : Interest} {m : UInt8} {k : Nat}

theorem testBit_union (i j : Interest) (k : Nat) :
    (i.union j).mask.testBit k = (i.mask.testBit k || j.mask.testBit k) := by
  rw [union, mask, BitVec.toNat_or, Nat.testBit_or]
  rfl

theorem testBit_inter (i j : Interest) (k : Nat) :
    (i.inter j).mask.testBit k = (i.mask.testBit k && j.mask.testBit k) := by
  rw [inter, mask, BitVec.toNat_and, Nat.testBit_and]
  rfl

theorem covers_zero (i : Interest) : i.Covers 0 := by
  intro k hk
  simp at hk

theorem Covers.mono (h : i.Covers m)
    (hij : ∀ k, i.mask.testBit k = true → j.mask.testBit k = true) : j.Covers m :=
  fun k hk => hij k (h k hk)

end Interest

/-! ## Pumps -/

namespace EventPump

variable {p p' : EventPump} {t u : TaskId} {c d : Channel} {i j : Interest} {event : ReadyEvent}

theorem registrations_unregister (p : EventPump) (t : TaskId) :
    (p.unregister t).registrations = p.registrations.filter (·.1 != t) := by
  cases p <;> rfl

theorem mem_unregister : (u, d, j) ∈ (p.unregister t).registrations ↔
    u ≠ t ∧ (u, d, j) ∈ p.registrations := by
  rw [registrations_unregister, List.mem_filter, bne_iff_ne, and_comm]

theorem registrations_register (h : p.register t c i = .ok p') :
    p'.registrations = (p.unregister t).registrations ++ [(t, c, i)] := by
  cases p with
  | absent => cases h
  | manual p =>
      cases h
      rfl

theorem mem_register (h : p.register t c i = .ok p') : (u, d, j) ∈ p'.registrations ↔
    (u = t ∧ d = c ∧ j = i) ∨ (u ≠ t ∧ (u, d, j) ∈ p.registrations) := by
  rw [registrations_register h, List.mem_append, mem_unregister, List.mem_singleton,
    Prod.mk.injEq, Prod.mk.injEq, or_comm]

theorem nodup_unregister (h : (p.registrations.map (·.1)).Nodup) (t : TaskId) :
    ((p.unregister t).registrations.map (·.1)).Nodup := by
  rw [registrations_unregister]
  exact h.sublist (List.filter_sublist.map _)

theorem nodup_register (hp : (p.registrations.map (·.1)).Nodup)
    (h : p.register t c i = .ok p') : (p'.registrations.map (·.1)).Nodup := by
  rw [registrations_register h, List.map_append, List.map_singleton]
  refine (nodup_unregister hp t).append (List.nodup_singleton t) ?_
  intro u hu hut
  obtain ⟨⟨v, d, j⟩, hmem, rfl⟩ := List.mem_map.mp hu
  exact (mem_unregister.mp hmem).1 (List.mem_singleton.mp hut)

/-- Nobody is registered twice. -/
theorem eq_of_registered (h : (p.registrations.map (·.1)).Nodup)
    (hc : (t, c, i) ∈ p.registrations) (hd : (t, d, j) ∈ p.registrations) : c = d ∧ i = j := by
  have hinj := List.inj_on_of_nodup_map h hc hd rfl
  cases hinj
  exact ⟨rfl, rfl⟩

theorem registrations_signal (p : EventPump) (c : Channel) (i : Interest) :
    (p.signal c i).registrations = p.registrations := by
  cases p <;> rfl

theorem registrations_poll (p : EventPump) : p.poll.1.registrations = p.registrations := by
  cases p <;> rfl

/-- The signals on a channel are among all that they say about it. -/
theorem testBit_signalled {p : ManualPump} {k : Nat} (h : (c, i) ∈ p.signals)
    (hk : i.mask.testBit k = true) : (p.signalled c).mask.testBit k = true := by
  unfold ManualPump.signalled
  revert h
  induction p.signals with
  | nil => exact nofun
  | cons s l ih =>
      intro h
      rw [List.foldr_cons]
      rcases List.mem_cons.mp h with rfl | h
      · rw [if_pos rfl, Interest.testBit_union, hk, Bool.true_or]
      · split
        · rw [Interest.testBit_union, ih h, Bool.or_true]
        · exact ih h

/-- An event reports what was signalled on a channel to somebody who is registered for it. -/
theorem exists_of_event (h : event ∈ p.poll.2) :
    ∃ i, (event.task, event.channel, i) ∈ p.registrations ∧ ∀ k,
      event.ready.mask.testBit k = true → i.mask.testBit k = true ∧
        (p.signalled event.channel).mask.testBit k = true := by
  cases p with
  | absent => cases h
  | manual p =>
      obtain ⟨⟨c, j⟩, hsignal, hevent⟩ := List.mem_flatMap.mp h
      obtain ⟨⟨t, d, i⟩, hregistered, heq⟩ := List.mem_filterMap.mp hevent
      dsimp only at heq
      split at heq
      · next hd =>
          obtain ⟨rfl, -⟩ := hd
          cases heq
          refine ⟨i, hregistered, fun k hk => ?_⟩
          rw [Interest.testBit_inter, Bool.and_eq_true] at hk
          exact ⟨hk.1, testBit_signalled hsignal hk.2⟩
      · cases heq

end EventPump

namespace Lookout

variable {V : Type} {l l' : Lookout V} {t u : TaskId} {x : Task} {v : Outlook} {s : Sighting}
  {e e' : Engine V} {fickle : Bool} {gone : Option TaskId}

/-! ## What holds with any pump -/

/-- What holds between any two steps. -/
structure Sound (l : Lookout V) : Prop where
  counted : l.engine.Counted
  rest : ∀ t, (l.engine.berth t).status ≠ .alive →
    (l.engine.berth t).channel = none ∧ l.outlook t = .none
  parked : ∀ t, (l.engine.berth t).Waits →
    (l.engine.berth t).channel = none ∨ ∃ s, l.outlook t = .keeping s

@[simp] theorem engine_turn (l : Lookout V) (t : TaskId) (v : Outlook) (e : Engine V) :
    (l.turn t v e).engine = e := rfl

theorem outlook_turn_self (l : Lookout V) (t : TaskId) (v : Outlook) (e : Engine V) :
    (l.turn t v e).outlook t = v := Function.update_self ..

theorem outlook_turn_of_ne (l : Lookout V) (v : Outlook) (e : Engine V) (h : u ≠ t) :
    (l.turn t v e).outlook u = l.outlook u := Function.update_of_ne h ..

theorem turn_self (h : l.outlook t = v) (e : Engine V) : l.turn t v e = { l with engine := e } := by
  rw [turn, ← h, Function.update_eq_self]

theorem turn_turn (l : Lookout V) (t : TaskId) (v v' : Outlook) (e e' : Engine V) :
    (l.turn t v e).turn t v' e' = l.turn t v' e' := by
  rw [turn, turn, Function.update_idem]
  rfl

/-- A task goes on. -/
theorem Sound.turn {y : Task} (h : Sound l) (hc : e.Counted) (ht : Engine.Turns t l.engine e y)
    (alive : y.status = .alive)
    (parked : y.Waits → y.channel = none ∨ ∃ s, v = .keeping s) : Sound (l.turn t v e) := by
  refine ⟨hc, fun u hu => ?_, fun u hu => ?_⟩
  · by_cases hut : u = t
    · subst hut
      rw [engine_turn, ht.own] at hu
      exact absurd alive hu
    · rw [engine_turn, ht.others u hut] at hu ⊢
      rw [outlook_turn_of_ne l v e hut]
      exact h.rest u hu
  · by_cases hut : u = t
    · subst hut
      rw [engine_turn, ht.own] at hu ⊢
      rw [outlook_turn_self]
      exact parked hu
    · rw [engine_turn, ht.others u hut] at hu ⊢
      rw [outlook_turn_of_ne l v e hut]
      exact h.parked u hu

theorem Sound.landward (h : Sound l) (hl : l.engine.Landward gone e)
    (ended : ∀ t, gone = some t → (l.engine.berth t).channel = none ∧ l.outlook t = .none) :
    Sound { l with engine := e } := by
  refine ⟨hl.counted h.counted, fun t ht => ?_, fun t ht => ?_⟩
  · rw [(hl.tasks t).channel]
    by_cases hgone : gone = some t
    · exact ended t hgone
    · exact h.rest t fun ha => ht (hl.alive t hgone ha)
  · rw [(hl.tasks t).channel]
    exact h.parked t ((hl.tasks t).waits ht)

theorem Sound.told {events : List ReadyEvent} (h : Sound l) (ht : Engine.Told events l.engine e)
    {w : TaskId → Outlook} (hnone : ∀ t, l.outlook t = .none → w t = .none)
    (hkeeping : ∀ t s, l.outlook t = .keeping s → ∃ s', w t = .keeping s') :
    Sound { l with engine := e, outlook := w } := by
  refine ⟨ht.counted h.counted, fun t hx => ?_, fun t hx => ?_⟩
  · obtain ⟨hc, hv⟩ := h.rest t fun ha => hx (ht.alive t ha)
    exact ⟨(ht.channel t).trans hc, hnone t hv⟩
  · rcases h.parked t (ht.waits t hx) with hc | ⟨s, hs⟩
    · exact .inl ((ht.channel t).trans hc)
    · exact .inr (hkeeping t s hs)

/-- Only the pump changes. -/
theorem Sound.setPump (h : Sound l) (pump : EventPump) :
    Sound { l with engine := { l.engine with pump } } :=
  ⟨h.counted, h.rest, h.parked⟩

theorem hear_eq_none {p : EventPump} (h : v = .none) : v.hear p = .none := by rw [h]; rfl

theorem hear_eq_keeping {p : EventPump} (h : v = .keeping s) : ∃ s', v.hear p = .keeping s' := by
  rw [h]
  exact ⟨_, rfl⟩

theorem Sound.step (h : Sound l) (hs : Step fickle l l') : Sound l' := by
  cases hs with
  | begin channel interest awake idle =>
      exact h.turn (h.counted.updateTask fun _ => rfl) (Engine.turns_updateTask awake.1 _) awake.2.1
        fun hw => absurd hw awake.2.2
  | register awake at_ hr =>
      exact h.turn (h.counted.registerChannel hr awake.1) (Engine.turns_registerChannel awake.1 hr)
        awake.2.1 fun _ => .inr ⟨_, rfl⟩
  | refuse awake at_ hr =>
      rw [Engine.registerChannel_refused hr]
      exact h.turn (h.counted.unregisterChannel _) (Engine.turns_unregisterChannel awake.1)
        awake.2.1 fun _ => .inl rfl
  | await awake at_ hp =>
      rw [← turn_self at_]
      exact h.turn (h.counted.updateTask fun _ => rfl) (Engine.turns_updateTask awake.1 _) awake.2.1
        fun _ => .inr ⟨_, rfl⟩
  | take awake at_ =>
      exact h.turn (h.counted.updateTask fun _ => rfl) (Engine.turns_updateTask awake.1 _) awake.2.1
        fun hw => absurd hw awake.2.2
  | answer awake at_ =>
      have hturn := h.turn (v := .none) (h.counted.unregisterChannel _)
        (Engine.turns_unregisterChannel awake.1) awake.2.1 fun _ => .inl rfl
      exact ⟨hturn.counted, hturn.rest, hturn.parked⟩
  | unwind awake =>
      exact h.turn h.counted ⟨fun _ _ => rfl, awake.berth⟩ awake.2.1
        fun hw => absurd hw awake.2.2
  | giveBack awake idle =>
      rw [← turn_self idle]
      exact h.turn (h.counted.unregisterChannel _) (Engine.turns_unregisterChannel awake.1)
        awake.2.1 fun _ => .inl rfl
  | park awake idle hp =>
      next a _ p =>
      rw [← turn_self idle]
      refine h.turn ((h.counted.unregisterChannel _).updateTask fun _ => ?_)
        ((Engine.turns_unregisterChannel awake.1).trans
          (Engine.turns_updateTask (Engine.task?_unregisterChannel awake.1) _)) ?_ fun _ => .inl ?_
      · cases a <;> rfl
      · cases a <;> exact awake.2.1
      · cases a <;> rfl
  | exit now c awake idle =>
      next t x =>
      have hback := h.turn (v := .none) (h.counted.unregisterChannel t)
        (Engine.turns_unregisterChannel awake.1) awake.2.1 fun _ => .inl rfl
      rw [turn_self idle] at hback
      refine hback.landward (Engine.landward_exit l.engine now c t) ?_
      rintro u ⟨⟩
      exact ⟨by rw [Engine.berth_unregisterChannel, if_pos rfl], idle⟩
  | assign c t s => exact h.landward (Engine.landward_assign c s fun ht => (h.rest t ht).1) nofun
  | signal channel interest => exact h.setPump _
  | poll now =>
      exact (h.setPump _).told (Engine.told_pollEvents l.engine now) (fun t => hear_eq_none)
        fun t s => hear_eq_keeping
  | other hl => exact h.landward hl nofun
  | whim _ pump => exact h.setPump pump
  | report _ now event =>
      exact h.told (Engine.told_deliver l.engine now event) (fun _ hv => hv) fun _ s hv => ⟨s, hv⟩

theorem start_eq {config : Config} {processors : Nat} {groups : List ControlGroup}
    {pump : EventPump} (h : Engine.start config processors groups pump = .ok e) :
    e.tasks = #[] ∧ e.ioWaiters = 0 ∧ e.pump = pump := by
  unfold Engine.start at h
  cases hvalid : config.validate with
  | error err => rw [hvalid] at h; cases h
  | ok _ =>
      rw [hvalid] at h
      cases h
      exact ⟨rfl, rfl, rfl⟩

theorem berth_of_start (h : e.tasks = #[]) (t : TaskId) : e.berth t = .fresh t := by
  rw [Engine.berth, Engine.task?, h]
  rfl

theorem Reached.sound (h : Reached fickle l) : Sound l := by
  induction h with
  | start h _ =>
      obtain ⟨htasks, hwaiters, -⟩ := start_eq h
      refine ⟨?_, fun t _ => ⟨by rw [berth_of_start htasks]; rfl, rfl⟩, fun t ht => ?_⟩
      · have hnone : Engine.moored _ = ∅ := Set.eq_empty_of_forall_notMem fun t ht => by
          rw [Engine.mem_moored, berth_of_start htasks] at ht
          exact ht rfl
        rw [Engine.Counted, hwaiters, hnone, Set.ncard_empty]
        rfl
      · rw [berth_of_start htasks] at ht
        exact absurd ht (Task.not_waits_fresh t)
  | step _ hs ih => exact ih.step hs

/-! ## What holds with a pump that keeps its promises -/

end Lookout

/-- Signals are late only if a registration was left behind. -/
def Sighting.Timely (s : Sighting) : Prop := s.left = none → s.late = .none

/-- What the wait may have seen. -/
def Sighting.reported (s : Sighting) : Interest := (s.interest.inter s.heard).union s.late

/-- The answer is what the wait may have seen. -/
def Sighting.Fair (s : Sighting) : Prop := s.Timely ∧ s.reported.Covers s.seen

/-- The readiness of a task is what its wait may have seen so far. -/
def Outlook.Candid {V : Type} (e : Engine V) (t : TaskId) : Outlook → Prop
  | none => True
  | opening s => s.Timely ∧ (e.berth t).channel = s.left ∧ s.late.Covers (e.berth t).ready
  | keeping s => s.Timely ∧ (e.berth t).channel = some s.channel ∧
      (t, s.channel, s.interest) ∈ e.pump.registrations ∧ s.reported.Covers (e.berth t).ready
  | closing s => s.Fair

/-- The pump knows exactly the tasks whose channel is set, each with its channel. -/
structure Engine.Agreed {V : Type} (e : Engine V) : Prop where
  nodup : (e.pump.registrations.map (·.1)).Nodup
  registered : ∀ t c, (∃ i, (t, c, i) ∈ e.pump.registrations) ↔ (e.berth t).channel = some c

namespace Engine

variable {V : Type} {e e' : Engine V} {t u : TaskId} {x : Task} {i : Interest} {c : Channel}

theorem Agreed.congr (h : e.Agreed) (hp : e'.pump.registrations = e.pump.registrations)
    (hc : ∀ t, (e'.berth t).channel = (e.berth t).channel) : e'.Agreed :=
  ⟨by rw [hp]; exact h.nodup, fun t c => by rw [hp, hc]; exact h.registered t c⟩

theorem mem_registrations_unregisterChannel (hu : u ≠ t) :
    (u, c, i) ∈ (e.unregisterChannel t).pump.registrations ↔
      (u, c, i) ∈ e.pump.registrations := by
  by_cases ht : t ∈ e.moored
  · rw [(unregisterChannel_of_mem ht).2, EventPump.mem_unregister, and_iff_right hu]
  · rw [unregisterChannel_of_notMem ht]

theorem Agreed.unregisterChannel (h : e.Agreed) (t : TaskId) : (e.unregisterChannel t).Agreed := by
  by_cases ht : t ∈ e.moored
  · refine ⟨?_, fun u c => ?_⟩
    · rw [(unregisterChannel_of_mem ht).2]
      exact EventPump.nodup_unregister h.nodup t
    · rw [(unregisterChannel_of_mem ht).2, berth_unregisterChannel]
      simp only [EventPump.mem_unregister]
      split
      · next hu => simp [hu]
      · next hu => simpa [hu] using h.registered u c
  · rwa [unregisterChannel_of_notMem ht]

theorem Agreed.registerChannel (h : e.Agreed) (ht : e.task? t = some x)
    (hr : e.registerChannel t c i = (e', none)) :
    e'.Agreed ∧ (t, c, i) ∈ e'.pump.registrations ∧ ∀ u d j, u ≠ t →
      ((u, d, j) ∈ e'.pump.registrations ↔ (u, d, j) ∈ e.pump.registrations) := by
  have hback := h.unregisterChannel t
  have hturns := turns_registerChannel ht hr
  obtain ⟨pump, hpump, rfl⟩ := registerChannel_accepted hr
  have hmem : ∀ u d j, (u, d, j) ∈ pump.registrations ↔ (u = t ∧ d = c ∧ j = i) ∨
      (u ≠ t ∧ (u, d, j) ∈ (e.unregisterChannel t).pump.registrations) := fun u d j =>
    EventPump.mem_register hpump
  refine ⟨⟨EventPump.nodup_register hback.nodup hpump, fun u d => ?_⟩,
    (hmem t c i).mpr (.inl ⟨rfl, rfl, rfl⟩), fun u d j hu => ?_⟩
  · by_cases hu : u = t
    · subst hu
      rw [hturns.own]
      simp [hmem, eq_comm]
    · rw [hturns.others u hu]
      simp only [hmem, hu, false_and, false_or, ne_eq, not_false_eq_true, true_and]
      rw [hback.registered u d, berth_unregisterChannel, if_neg hu]
  · simp only [hmem, hu, false_and, false_or, ne_eq, not_false_eq_true, true_and]
    exact mem_registrations_unregisterChannel hu

end Engine

namespace Lookout

variable {V : Type} {l l' : Lookout V} {t u : TaskId} {x : Task} {v : Outlook} {s : Sighting}
  {e e' : Engine V} {gone : Option TaskId}

/-- What holds between any two steps. -/
structure Honest (l : Lookout V) : Prop where
  agreed : l.engine.Agreed
  outlook : ∀ t, (l.outlook t).Candid l.engine t
  sightings : ∀ s ∈ l.sightings, s.Fair

/-- What a task relies on is its channel, its registration and what it has seen. -/
theorem candid_congr (h : v.Candid e t) (hc : (e'.berth t).channel = (e.berth t).channel)
    (hr : (e'.berth t).ready = (e.berth t).ready ∨ (e'.berth t).ready = 0)
    (hp : ∀ c i, (t, c, i) ∈ e.pump.registrations → (t, c, i) ∈ e'.pump.registrations) :
    v.Candid e' t := by
  have hcovers : ∀ i : Interest, i.Covers (e.berth t).ready → i.Covers (e'.berth t).ready := by
    intro i hi
    rcases hr with hr | hr
    · rwa [hr]
    · rw [hr]
      exact i.covers_zero
  cases v with
  | none => trivial
  | opening s => exact ⟨h.1, hc.trans h.2.1, hcovers _ h.2.2⟩
  | keeping s => exact ⟨h.1, hc.trans h.2.1, hp _ _ h.2.2.1, hcovers _ h.2.2.2⟩
  | closing s => exact h

/-- A task goes on. -/
theorem Honest.turn {y : Task} (h : Honest l) (ha : e.Agreed) (ht : Engine.Turns t l.engine e y)
    (hp : ∀ u c i, u ≠ t → (u, c, i) ∈ l.engine.pump.registrations →
      (u, c, i) ∈ e.pump.registrations)
    (hv : v.Candid e t) : Honest (l.turn t v e) := by
  refine ⟨ha, fun u => ?_, h.sightings⟩
  by_cases hu : u = t
  · subst hu
    rw [outlook_turn_self]
    exact hv
  · rw [outlook_turn_of_ne l v e hu]
    have hberth := ht.others u hu
    exact candid_congr (h.outlook u) (by rw [engine_turn, hberth])
      (.inl (by rw [engine_turn, hberth])) fun c i => hp u c i hu

/-- A task goes on, and neither channels nor the pump have a part in that. -/
theorem Honest.updateTask {f : Task → Task} (h : Honest l) (ht : l.engine.task? t = some x)
    (hf : ∀ x, (f x).channel = x.channel) (hv : v.Candid (l.engine.updateTask t f) t) :
    Honest (l.turn t v (l.engine.updateTask t f)) := by
  refine h.turn (h.agreed.congr rfl fun u => ?_) (Engine.turns_updateTask ht f)
    (fun _ _ _ _ hmem => hmem) hv
  by_cases hu : u = t
  · subst hu
    rw [Engine.berth_updateTask_self ht, Engine.berth_of_task? ht, hf]
  · rw [Engine.berth_updateTask_of_ne hu]

/-- A task gives its registration back, or is refused another one. -/
theorem Honest.unregister (h : Honest l) (ht : l.engine.task? t = some x) :
    Honest (l.turn t .none (l.engine.unregisterChannel t)) :=
  h.turn (h.agreed.unregisterChannel t) (Engine.turns_unregisterChannel ht)
    (fun _ _ _ hu hmem => (Engine.mem_registrations_unregisterChannel hu).mpr hmem) trivial

theorem Honest.landward (h : Honest l) (hl : l.engine.Landward gone e) :
    Honest { l with engine := e } :=
  ⟨h.agreed.congr (by rw [hl.pump]) fun t => (hl.tasks t).channel,
    fun t => candid_congr (h.outlook t) (hl.tasks t).channel (hl.tasks t).ready
      fun _ _ hmem => by rwa [hl.pump], h.sightings⟩

/-- Only the pump changes, and it knows the same tasks. -/
theorem Honest.setPump {pump : EventPump} (h : Honest l)
    (hp : pump.registrations = l.engine.pump.registrations) :
    Honest { l with engine := { l.engine with pump } } :=
  ⟨h.agreed.congr hp fun _ => rfl,
    fun t => candid_congr (h.outlook t) rfl (.inl rfl) fun _ _ hmem => by rwa [hp], h.sightings⟩

/-- What was pending when a poll came is what the tasks are told. -/
theorem candid_hear {events : List ReadyEvent} {p : EventPump} (h : v.Candid e t) (ha : e.Agreed)
    (ht : Engine.Told events e e')
    (hevents : ∀ event ∈ events, ∃ i, (event.task, event.channel, i) ∈ e.pump.registrations ∧
      ∀ k, event.ready.mask.testBit k = true → i.mask.testBit k = true ∧
        (p.signalled event.channel).mask.testBit k = true) :
    (v.hear p).Candid e' t := by
  cases v with
  | none => trivial
  | opening s =>
      obtain ⟨htimely, hchannel, hcovers⟩ := h
      refine ⟨fun hleft => ?_, (ht.channel t).trans hchannel, fun k hk => ?_⟩
      · have hleft' : s.left = none := hleft
        simp only [hleft']
        exact htimely hleft'
      · rcases ht.ready t k hk with hk | ⟨event, hmem, rfl, hc, hk⟩
        · have hlate := hcovers k hk
          dsimp only
          split
          · rw [Interest.testBit_union, hlate, Bool.true_or]
          · exact hlate
        · obtain ⟨i, -, hbits⟩ := hevents event hmem
          rw [hc] at hchannel
          simp only [← hchannel]
          rw [Interest.testBit_union, (hbits k hk).2, Bool.or_true]
  | keeping s =>
      obtain ⟨htimely, hchannel, hregistered, hcovers⟩ := h
      refine ⟨htimely, (ht.channel t).trans hchannel, by rwa [ht.pump], fun k hk => ?_⟩
      rw [Sighting.reported, Interest.testBit_union, Interest.testBit_inter,
        Interest.testBit_union]
      rcases ht.ready t k hk with hk | ⟨event, hmem, rfl, hc, hk⟩
      · have hold := hcovers k hk
        rw [Sighting.reported, Interest.testBit_union, Interest.testBit_inter,
          Bool.or_eq_true, Bool.and_eq_true] at hold
        rcases hold with ⟨hi, hh⟩ | hlate
        · rw [hi, hh]
          rfl
        · rw [hlate, Bool.or_true]
      · obtain ⟨i, hi, hbits⟩ := hevents event hmem
        obtain ⟨hsame, rfl⟩ := EventPump.eq_of_registered ha.nodup hregistered hi
        obtain ⟨hwanted, hsignal⟩ := hbits k hk
        rw [hwanted, hsame, hsignal, Bool.or_true]
        rfl
  | closing s => exact h

theorem Honest.step (h : Honest l) (hsound : Sound l) (hs : Step false l l') : Honest l' := by
  cases hs with
  | begin channel interest awake idle =>
      refine h.updateTask awake.1 (fun _ => rfl) ⟨fun _ => rfl, ?_, ?_⟩
      · rw [Engine.berth_updateTask_self awake.1]
        rfl
      · rw [Engine.berth_updateTask_self awake.1]
        exact Interest.covers_zero _
  | register awake at_ hr =>
      next t x s e =>
      obtain ⟨ha, hmem, hothers⟩ := h.agreed.registerChannel awake.1 hr
      have hturns := Engine.turns_registerChannel awake.1 hr
      have hv := h.outlook t
      rw [at_] at hv
      obtain ⟨htimely, -, hcovers⟩ := hv
      rw [awake.berth] at hcovers
      refine h.turn ha hturns (fun u c i hu => (hothers u c i hu).mpr) ⟨htimely, ?_, hmem, ?_⟩
      · rw [hturns.own]
      · rw [hturns.own]
        refine hcovers.mono fun k hk => ?_
        rw [Sighting.reported, Interest.testBit_union, hk, Bool.or_true]
  | refuse awake at_ hr =>
      rw [Engine.registerChannel_refused hr]
      exact h.unregister awake.1
  | await awake at_ hp =>
      next t x s native p =>
      rw [← turn_self at_]
      have hv := h.outlook t
      rw [at_] at hv
      have hberth := Engine.berth_updateTask_self awake.1 (·.setParker .internal p)
      refine h.updateTask awake.1 (fun _ => rfl) (candid_congr hv ?_ (.inl ?_) fun _ _ hmem => hmem)
      · rw [hberth, awake.berth]
        rfl
      · rw [hberth, awake.berth]
        rfl
  | take awake at_ =>
      next t x s =>
      have hv := h.outlook t
      rw [at_] at hv
      obtain ⟨htimely, -, -, hcovers⟩ := hv
      rw [awake.berth] at hcovers
      exact h.updateTask awake.1 (fun _ => rfl) ⟨htimely, hcovers⟩
  | answer awake at_ =>
      next t x s =>
      have hback := h.unregister awake.1
      have hv := h.outlook t
      rw [at_] at hv
      exact ⟨hback.agreed, hback.outlook, List.forall_mem_cons.mpr ⟨hv, h.sightings⟩⟩
  | unwind awake =>
      exact h.turn h.agreed ⟨fun _ _ => rfl, awake.berth⟩ (fun _ _ _ _ hmem => hmem) trivial
  | giveBack awake idle =>
      rw [← turn_self idle]
      exact h.unregister awake.1
  | park awake idle hp =>
      next t x a native p =>
      rw [← turn_self idle]
      have hback := (h.unregister awake.1).updateTask (v := .none) (f := (·.setParker a p))
        (Engine.task?_unregisterChannel awake.1) (fun _ => by cases a <;> rfl) trivial
      rwa [turn_turn] at hback
  | exit now c awake idle =>
      next t x =>
      have hback := h.unregister awake.1
      rw [turn_self idle] at hback
      exact hback.landward (Engine.landward_exit l.engine now c t)
  | assign c t s =>
      exact h.landward (Engine.landward_assign c s fun ht => (hsound.rest t ht).1)
  | signal channel interest => exact h.setPump (EventPump.registrations_signal ..)
  | poll now =>
      have hp := EventPump.registrations_poll l.engine.pump
      have hpolled := h.setPump hp
      have htold := Engine.told_pollEvents l.engine now
      refine ⟨hpolled.agreed.congr (by rw [htold.pump]) htold.channel, fun t => ?_, h.sightings⟩
      refine candid_hear (hpolled.outlook t) hpolled.agreed htold fun event hmem => ?_
      rw [hp]
      exact EventPump.exists_of_event hmem
  | other hl => exact h.landward hl
  | whim hf _ => cases hf
  | report hf _ _ => cases hf

theorem Reached.honest (h : Reached false l) : Honest l := by
  induction h with
  | start h unknown =>
      obtain ⟨htasks, -, rfl⟩ := start_eq h
      refine ⟨⟨by rw [unknown]; exact List.nodup_nil, fun t c => ?_⟩, fun _ => trivial, nofun⟩
      rw [unknown, berth_of_start htasks]
      simp [Task.fresh]
  | step h hs ih => exact ih.step h.sound hs

end Lookout

theorem Engine.channel_berth {V : Type} {e : Engine V} {t : TaskId} {c : Channel} :
    (e.berth t).channel = some c ↔ ∃ x, e.task? t = some x ∧ x.channel = some c := by
  constructor
  · intro hc
    refine ⟨_, task?_berth fun hfresh => ?_, hc⟩
    rw [hfresh] at hc
    cases hc
  · rintro ⟨x, hx, hc⟩
    rwa [berth_of_task? hx]

namespace Lookout

variable {V : Type} {l : Lookout V} {fickle : Bool}

/-- Registrations are balanced, whatever the pump answers: the counter is the number of tasks whose
channel is set, and a task has none after a refusal, after its work, or while it is blocked for
anything else. With a pump that keeps its promises the registrations are the tasks with their
channels, and a wait answers what it asked for and what was signalled while it was registered.
Anything else that it answers was taken for the registration that an earlier wait had left behind.
-/
theorem Reached.balanced_and_honest (h : Reached fickle l) :
    (l.engine.ioWaiters = .ofNat l.engine.moored.ncard ∧
      (l.engine.tasks.size < UInt64.size →
        l.engine.ioWaiters.toNat = l.engine.moored.ncard)) ∧
    (∀ t c i e err, l.engine.registerChannel t c i = (e, some err) → t ∉ e.moored) ∧
    (∀ t ∈ l.engine.moored, ∃ x, l.engine.task? t = some x ∧ x.status = .alive ∧
      (x.Waits → ∃ s, l.outlook t = .keeping s)) ∧
    (fickle = false →
      (l.engine.pump.registrations.map (·.1)).Nodup ∧
      (∀ t c, (∃ i, (t, c, i) ∈ l.engine.pump.registrations) ↔
        ∃ x, l.engine.task? t = some x ∧ x.channel = some c) ∧
      ∀ s ∈ l.sightings, ((s.interest.inter s.heard).union s.late).Covers s.seen ∧
        (s.left = none → (s.interest.inter s.heard).Covers s.seen)) := by
  have hsound := h.sound
  refine ⟨⟨hsound.counted, fun hsize => ?_⟩, fun t c i e err hr => ?_, fun t ht => ?_, ?_⟩
  · rw [hsound.counted]
    exact UInt64.toNat_ofNat_of_lt' (Nat.lt_of_le_of_lt l.engine.ncard_moored_le hsize)
  · rw [Engine.registerChannel_refused hr, Engine.moored_unregisterChannel]
    exact fun hmem => hmem.2 rfl
  · have hc := Engine.mem_moored.mp ht
    obtain ⟨x, hx, -⟩ := ht
    have hrest := hsound.rest t
    have hparked := hsound.parked t
    rw [Engine.berth_of_task? hx] at hc hrest hparked
    exact ⟨x, hx, by_contra fun ha => hc (hrest ha).1, fun hw => (hparked hw).resolve_left hc⟩
  · rintro rfl
    have hhonest := h.honest
    refine ⟨hhonest.agreed.nodup, fun t c => ?_, fun s hs => ?_⟩
    · rw [hhonest.agreed.registered, Engine.channel_berth]
    · obtain ⟨htimely, hcovers⟩ := hhonest.sightings s hs
      refine ⟨hcovers, fun hleft => hcovers.mono fun k hk => ?_⟩
      rw [Sighting.reported, htimely hleft, Interest.testBit_union, Bool.or_eq_true] at hk
      exact hk.resolve_right (by simp [Interest.none, Interest.mask])

/-- A task waits for a channel that is signalled while it is registered. -/
theorem balanced_and_honest_signalled : ∃ l : Lookout Unit, Reached false l ∧
    l.engine.tasks.size = 1 ∧ l.engine.ioWaiters.toNat = l.engine.moored.ncard ∧
    l.sightings = [{ task := ⟨0⟩, channel := 7, interest := ⟨1⟩, left := none, heard := ⟨3⟩,
                     seen := 1 }] ∧
    (Interest.inter ⟨1⟩ ⟨3⟩).Covers 1 := by
  have h0 : Reached (V := Unit) false _ :=
    .start (show Engine.start {} 1 [] (.manual {}) = .ok _ from rfl) rfl
  have h1 := h0.step (.other (Engine.landward_makeTask _ _))
  have h2 := h1.step (.assign 0 ⟨0⟩ ⟨0, "reader", none⟩)
  have h3 := h2.step (.begin (t := ⟨0⟩) 7 ⟨1⟩ ⟨rfl, rfl, by decide⟩ rfl)
  have h4 := h3.step (.register (t := ⟨0⟩) ⟨rfl, rfl, by decide⟩ rfl rfl)
  have h5 := h4.step (.signal 7 ⟨3⟩)
  have h6 := h5.step (.poll 3)
  have h7 := h6.step (.take (t := ⟨0⟩) ⟨rfl, rfl, by decide⟩ rfl)
  have h8 := h7.step (.answer (t := ⟨0⟩) ⟨rfl, rfl, by decide⟩ rfl)
  obtain ⟨⟨-, hcount⟩, -, -, hpromise⟩ := h8.balanced_and_honest
  obtain ⟨-, -, hfair⟩ := hpromise rfl
  exact ⟨_, h8, rfl, hcount (by decide), rfl, (hfair _ (.head _)).2 rfl⟩

/-- A task that is unwound out of a wait and waits again can be told what it did not ask for: a poll
falls between the moment where it drops earlier readiness and the one where it gives its old
registration back. -/
theorem readiness_of_earlier_wait : ∃ (l : Lookout Unit) (s : Sighting), Reached false l ∧
    s ∈ l.sightings ∧ s.channel = 9 ∧ s.interest = ⟨2⟩ ∧ s.left = some 7 ∧ s.heard = .none ∧
    s.seen = 1 ∧ ¬s.interest.Covers s.seen := by
  have h0 : Reached (V := Unit) false _ :=
    .start (show Engine.start {} 1 [] (.manual {}) = .ok _ from rfl) rfl
  have h1 := h0.step (.other (Engine.landward_makeTask _ _))
  have h2 := h1.step (.assign 0 ⟨0⟩ ⟨0, "reader", none⟩)
  have h3 := h2.step (.begin (t := ⟨0⟩) 7 ⟨1⟩ ⟨rfl, rfl, by decide⟩ rfl)
  have h4 := h3.step (.register (t := ⟨0⟩) ⟨rfl, rfl, by decide⟩ rfl rfl)
  have h5 := h4.step (.unwind (t := ⟨0⟩) ⟨rfl, rfl, by decide⟩)
  have h6 := h5.step (.begin (t := ⟨0⟩) 9 ⟨2⟩ ⟨rfl, rfl, by decide⟩ rfl)
  -- The registration for channel 7 is still in place.
  have h7 := h6.step (.signal 7 ⟨1⟩)
  have h8 := h7.step (.poll 3)
  have h9 := h8.step (.register (t := ⟨0⟩) ⟨rfl, rfl, by decide⟩ rfl rfl)
  have h10 := h9.step (.take (t := ⟨0⟩) ⟨rfl, rfl, by decide⟩ rfl)
  have h11 := h10.step (.answer (t := ⟨0⟩) ⟨rfl, rfl, by decide⟩ rfl)
  refine ⟨_, _, h11, .head _, rfl, rfl, rfl, rfl, rfl, fun hcovers => ?_⟩
  exact absurd (hcovers 0 rfl) (by decide)

end Lookout

end GreenThreads

import GreenThreads.Proofs.Ledger.Crew
import GreenThreads.Proofs.Watch.Sound

/-!
# Steps that have no part in a park or in the timers

Such a step leaves the timeouts as they are, and every task that has work keeps it.
-/

namespace GreenThreads

namespace Engine

variable {V : Type} {e e' e'' : Engine V} {t : TaskId} {c : Nat} {x : Task}

/-- If a task has work it keeps it, on the same carrier. -/
def Retains (e e' : Engine V) (t : TaskId) : Prop :=
  ∀ x, e.task? t = some x → x.status = .alive → ∃ x', e'.task? t = some x' ∧
    x'.status = .alive ∧ x'.generation = x.generation ∧ x'.carrier = x.carrier

theorem Retains.trans (h : Retains e e' t) (h' : Retains e' e'' t) : Retains e e'' t := by
  intro x hx halive
  obtain ⟨y, hy, halive, hg, hc⟩ := h x hx halive
  obtain ⟨z, hz, halive, hg', hc'⟩ := h' y hy halive
  exact ⟨z, hz, halive, hg'.trans hg, hc'.trans hc⟩

theorem SameRecords.retains (h : SameRecords e e') (t : TaskId) : Retains e e' t := by
  intro x hx halive
  obtain ⟨y, hy, hrecord⟩ := exists_of_map_eq h.tasks.symm hx
  have hstatus : x.record.status = y.record.status := by rw [hrecord]
  have hgeneration : x.record.generation = y.record.generation := by rw [hrecord]
  have hcarrier : x.record.carrier = y.record.carrier := by rw [hrecord]
  exact ⟨y, hy, hstatus ▸ halive, hgeneration.symm, hcarrier.symm⟩

/-- The timeouts are the same, and the tasks keep their work. -/
structure Mild (e e' : Engine V) : Prop extends SameClock e e' where
  task : ∀ t, Retains e e' t

theorem Mild.trans (h : Mild e e') (h' : Mild e' e'') : Mild e e'' :=
  ⟨h.toSameClock.trans h'.toSameClock, fun t => (h.task t).trans (h'.task t)⟩

theorem SameClock.mild (h : SameClock e e') (ht : e'.tasks = e.tasks) : Mild e e' := by
  refine ⟨h, fun t x hx halive => ⟨x, ?_, halive, rfl, rfl⟩⟩
  rw [task?, ht]
  exact hx

theorem Mild.refl (e : Engine V) : Mild e e := (SameClock.refl e).mild rfl

theorem mild_updateTask {g : Task → Task} (hs : ∀ x, (g x).status = x.status)
    (hg : ∀ x, (g x).generation = x.generation) (hc : ∀ x, (g x).carrier = x.carrier)
    (ht : ∀ x, (g x).timeout = x.timeout) : Mild e (e.updateTask t g) := by
  refine ⟨sameClock_updateTask ht, fun u x hx halive => ?_⟩
  rw [task?_updateTask, hx]
  split
  · exact ⟨g x, rfl, (hs x).trans halive, hg x, hc x⟩
  · exact ⟨x, rfl, halive, rfl, rfl⟩

theorem mild_setParker (e : Engine V) (t : TaskId) (a : Axis) (p : Task → Parker) :
    Mild e (e.updateTask t fun x => x.setParker a (p x)) := by
  cases a with
  | user => exact mild_updateTask (fun _ => rfl) (fun _ => rfl) (fun _ => rfl) fun _ => rfl
  | internal => exact mild_updateTask (fun _ => rfl) (fun _ => rfl) (fun _ => rfl) fun _ => rfl

theorem mild_updateCarrier {g : Carrier → Carrier} (h : ∀ x, (g x).clock = x.clock) :
    Mild e (e.updateCarrier c g) := (sameClock_updateCarrier h).mild rfl

theorem Aloof.mild (h : Aloof e e') : Mild e e' := by
  refine ⟨h.toSameTimers.sameClock h.reckoning, fun t x hx halive => ?_⟩
  obtain ⟨y, hy, hcore⟩ := exists_of_map_eq h.tasks.symm hx
  obtain ⟨z, hz, hgeneration⟩ := exists_of_map_eq h.generations.symm hx
  obtain rfl : y = z := Option.some.inj (hy.symm.trans hz)
  have hstatus : x.core.status = y.core.status := by rw [hcore]
  have hcarrier : x.core.carrier = y.core.carrier := by rw [hcore]
  exact ⟨y, hy, hstatus ▸ halive, hgeneration.symm, hcarrier.symm⟩

theorem Taken.mild {r : Runnable} (h : e.Taken c r e') : Mild e e' := by
  have hown : ∀ i, e.dequeue? i = some (r, e') → Mild e e' := by
    intro i hi
    obtain ⟨x, rest, -, -, rfl⟩ := dequeue?_spec hi
    exact mild_updateCarrier fun _ => rfl
  cases h with
  | own hi => exact hown c hi
  | stolen pulls runs hi => exact hown _ hi
  | shared pulls hs =>
      obtain ⟨rest, -, rfl⟩ := dequeueShared?_spec hs
      exact SameClock.mild ⟨fun _ => rfl, fun _ => rfl, fun _ => rfl, rfl⟩ rfl

theorem Popped.mild (h : e.Popped t e') : Mild e e' := by
  refine SameClock.mild (h.drawn.timers.sameClock ?_) h.drawn.tasks
  cases h with
  | own hi =>
      obtain ⟨x, rest, -, -, rfl⟩ := popPooled?_spec hi
      rfl
  | shared hi => rfl

theorem mild_makeTask (e : Engine V) : Mild e e.makeTask.1 := by
  have hnone : e.task? e.makeTask.2 = none := Array.getElem?_eq_none (Nat.le_refl _)
  refine ⟨⟨fun _ => rfl, fun _ => rfl, fun u => ?_, rfl⟩, fun u x hx halive => ?_⟩
  · rw [slot, task?_makeTask, slot]
    split
    · next hu => rw [hu, hnone]; rfl
    · rfl
  · rw [task?_makeTask, if_neg]
    · exact ⟨x, hx, halive, rfl, rfl⟩
    · rintro rfl
      rw [hnone] at hx
      cases hx

/-- Only a task whose work is over is given new work. -/
theorem mild_assign {s : Submission} (hx : e.task? t = some x) (hended : x.Ended)
    (hnone : x.timeout = none) : Mild e (e.assign c t s) := by
  have hidle : ∀ a, (x.parker a).isWaiting = false := by
    intro a
    cases a with
    | user => exact hended.user
    | internal => exact hended.internal
  rw [assign_eq hx hended.cached hidle]
  refine ⟨⟨fun _ => rfl, fun _ => rfl, fun u => ?_, rfl⟩, fun u y hy halive => ?_⟩
  · have hslot := slot_updateTask e t u (Floor.assigned c s)
    refine hslot.trans ?_
    split
    · next hu => rw [hu, slot, hx, Option.bind_some, Option.bind_some, hnone]; rfl
    · rfl
  · have htask := task?_updateTask e t u (Floor.assigned c s)
    rw [if_neg] at htask
    · exact ⟨y, htask.trans hy, halive, rfl, rfl⟩
    · rintro rfl
      rw [hx] at hy
      cases hy
      rw [hended.cached] at halive
      cases halive

theorem mild_wake (e : Engine V) (now : Nanos) (t : TaskId) : Mild e (e.wake now t) := by
  unfold Engine.wake
  split
  · exact .refl e
  · split
    · exact .refl e
    · split
      · refine Mild.trans (mild_updateTask ?_ ?_ ?_ ?_) (mild_updateCarrier ?_)
        all_goals exact fun _ => rfl
      · exact .refl e

theorem mild_switchIn (e : Engine V) (now : Nanos) (c : Nat) (t : TaskId) :
    Mild e (e.switchIn now c t) := by
  refine Mild.trans (mild_updateTask ?_ ?_ ?_ ?_) (mild_updateCarrier ?_)
  all_goals exact fun _ => rfl

theorem mild_release (hx : e.task? t = some x) (a : Axis) :
    Mild e (e.updateTask t fun _ => (x.release a).1) := by
  have hset : e.updateTask t (fun _ => (x.release a).1) =
      e.updateTask t fun x => x.setParker a (x.parker a).release.1 := updateTask_congr hx rfl
  rw [hset]
  exact mild_setParker e t a _

theorem mild_discard (hx : e.task? t = some x) (hcached : x.status = .cached) :
    Mild e (e.updateTask t Task.discard) := by
  refine ⟨sameClock_updateTask fun _ => rfl, fun u y hy halive => ?_⟩
  rw [task?_updateTask, if_neg]
  · exact ⟨y, hy, halive, rfl, rfl⟩
  · rintro rfl
    rw [hx] at hy
    cases hy
    rw [hcached] at halive
    cases halive

end Engine

namespace Watch

variable {V : Type} {w w' : Watch V} {t : TaskId} {c d : Nat} {p p' : Phase} {e : Engine V}
  {f : Floor V} {fs : List TaskId}

/-! ## What is spared -/

theorem getElem?_modify_self {ps : Array Phase} (hp : ps[c]? = some p) (p' : Phase) :
    (ps.modify c fun _ => p')[c]? = some p' := by
  rw [Array.getElem?_modify, if_pos rfl, hp, Option.map_some]

theorem getElem?_modify_of_ne {ps : Array Phase} (hd : c ≠ d) (p' : Phase) :
    (ps.modify c fun _ => p')[d]? = ps[d]? := by
  rw [Array.getElem?_modify, if_neg hd]

/-- A task is at work on no carrier on which it was not, and carriers that it keeps busy stay so. -/
structure Undisturbed (w : Watch V) (ps : Array Phase) (t : TaskId) : Prop where
  seats : ∀ (c : Nat) p', ps[c]? = some p' → p'.engaged = some t →
    ∃ p, w.floor.phases[c]? = some p ∧ p.engaged = some t
  stays : ∀ (c : Nat) p, w.floor.phases[c]? = some p →
    p.engaged = some t ∧ (w.stance t).Pins ∨ p = .resuming t ∧ w.withheld t = true →
      ps[c]? = some p

theorem Undisturbed.refl (w : Watch V) (t : TaskId) : Undisturbed w w.floor.phases t :=
  ⟨fun _ p hp he => ⟨p, hp, he⟩, fun _ _ hp _ => hp⟩

theorem Undisturbed.modify (hp : w.floor.phases[c]? = some p)
    (hbefore : p.engaged = some t → ¬ (w.stance t).Pins)
    (hafter : p'.engaged = some t → p.engaged = some t)
    (hkept : p = .resuming t → w.withheld t = false) :
    Undisturbed w (w.floor.phases.modify c fun _ => p') t := by
  refine ⟨fun d q hq he => ?_, fun d q hq hbusy => ?_⟩
  · by_cases hd : c = d
    · subst hd
      cases (getElem?_modify_self hp p').symm.trans hq
      exact ⟨p, hp, hafter he⟩
    · exact ⟨q, (getElem?_modify_of_ne hd p').symm.trans hq, he⟩
  · by_cases hd : c = d
    · subst hd
      obtain rfl : p = q := Option.some.inj (hp.symm.trans hq)
      rcases hbusy with ⟨he, hpins⟩ | ⟨hr, hheld⟩
      · exact absurd hpins (hbefore he)
      · rw [hkept hr] at hheld
        cases hheld
    · exact (getElem?_modify_of_ne hd p').trans hq

theorem Spared.of_retains (hstance : w'.stance t = w.stance t)
    (hwithheld : w'.withheld t = w.withheld t)
    (hslot : w'.floor.engine.slot t = w.floor.engine.slot t)
    (hread : ∀ r, w.floor.engine.slot t = some r →
      w'.floor.engine.timeout? r = w.floor.engine.timeout? r ∧ w'.purpose r = w.purpose r)
    (htask : w.floor.engine.Retains w'.floor.engine t)
    (h : Undisturbed w w'.floor.phases t) : Spared w w' t where
  stance := hstance
  withheld := hwithheld
  slot := hslot
  read := hread
  task := fun x hx halive => by
    obtain ⟨x', hx', halive', hg, hc⟩ := htask x hx halive
    exact ⟨x', hx', halive', hg, .inl hc⟩
  seats := fun c p' hp' he => .inl (h.seats c p' hp' he)
  stays := h.stays

theorem Spared.of_clock (hclock : w.floor.engine.SameClock f.engine)
    (htask : w.floor.engine.Retains f.engine t) (h : Undisturbed w f.phases t) :
    Spared w { w with floor := f } t :=
  .of_retains rfl rfl (hclock.slot t) (fun r _ => ⟨hclock.timeout? r, rfl⟩) htask h

theorem spared_stay (hm : w.floor.engine.Mild f.engine) (hphases : f.phases = w.floor.phases)
    (t : TaskId) : Spared w { w with floor := f } t :=
  .of_clock hm.toSameClock (hm.task t) (hphases ▸ .refl w t)

/-- A carrier gets on that the task need not keep busy. -/
theorem spared_pass (hclock : w.floor.engine.SameClock e) (htask : w.floor.engine.Retains e t)
    (hp : w.floor.phases[c]? = some p) (hbefore : p.engaged = some t → ¬ (w.stance t).Pins)
    (hafter : p'.engaged = some t → p.engaged = some t)
    (hkept : p = .resuming t → w.withheld t = false)
    (hf : f = { w.floor.move c p' e with freed := fs }) :
    Spared w { w with floor := f } t := by
  subst hf
  exact .of_clock hclock htask (.modify hp hbefore hafter hkept)

/-- A carrier that no task keeps busy gets on, and none keeps it busy thereafter. -/
theorem spared_move (hm : w.floor.engine.Mild e) (hp : w.floor.phases[c]? = some p)
    (hbefore : p.engaged = none) (hafter : p'.engaged = none)
    (hkept : p = .resuming t → w.withheld t = false)
    (hf : f = { w.floor.move c p' e with freed := fs }) :
    Spared w { w with floor := f } t :=
  spared_pass hm.toSameClock (hm.task t) hp (by rw [hbefore]; exact nofun)
    (by rw [hafter]; exact nofun) hkept hf

/-- A task at work is current on its carrier. -/
theorem seat_of_engaged (h : p.engaged = some t) : p.seat = some t := by
  cases p with
  | working u => exact h
  | blocked u a => exact h
  | leaving u axis =>
      cases axis with
      | none => cases h
      | some a => exact h
  | _ => cases h

theorem not_engaged {f : Floor V} {x : Task} (h : f.Sound) (hx : f.engine.task? t = some x)
    (hfree : x.locked = false) (c : Nat) (p : Phase) (hp : f.phases[c]? = some p) :
    p.engaged ≠ some t := by
  intro he
  have hseat := Floor.phased_pos hp (seat_of_engaged he)
  have hlocked := h.locked t
  rw [h.phased_seat, hlocked, Engine.flag_eq_zero hx hfree] at hseat
  omega

theorem spared_steal {x : Task} (h : Sound w) (hkept : w.withheld t = false)
    (hx : w.floor.engine.task? t = some x) (hs : w.floor.engine.steal? c x = some e) (u : TaskId) :
    Spared w { w with floor := { w.floor with engine := e } } u := by
  have hfree : x.locked = false := by
    unfold Engine.steal? at hs
    split at hs
    · cases hs
    · next hnot =>
        rw [not_or] at hnot
        exact Bool.eq_false_iff.mpr hnot.2
  have hid := h.floor.sound.roster.id t x hx
  have hclock : w.floor.engine.SameClock e := by
    rw [Floor.steal?_eq hs]
    exact Engine.sameClock_updateTask fun _ => rfl
  refine ⟨rfl, rfl, hclock.slot u, fun r _ => ⟨hclock.timeout? r, rfl⟩, ?_,
    fun d p hp he => .inl ⟨p, hp, he⟩, fun d p hp _ => hp⟩
  intro y hy halive
  have htask := Engine.task?_updateTask w.floor.engine x.id u fun y =>
    ({ y with carrier := some c } : Task).recordStolen
  rw [← Floor.steal?_eq hs, hid] at htask
  by_cases hu : u = t
  · subst hu
    rw [if_pos rfl, hy] at htask
    exact ⟨_, htask, halive, rfl, .inr ⟨hkept, not_engaged h.floor.sound hx hfree⟩⟩
  · rw [if_neg hu] at htask
    exact ⟨y, htask.trans hy, halive, rfl, .inl rfl⟩

theorem spared_switchIn {x : Task} {now : Nanos} (h : Sound w)
    (hp : w.floor.phases[c]? = some (.resuming t)) (hkept : w.withheld t = false)
    (hx : w.floor.engine.task? t = some x) (hown : x.carrier = some c) (hfree : x.locked = false)
    (u : TaskId) :
    Spared w { w with
      floor := w.floor.move c (.working t) (w.floor.engine.switchIn now c t) } u := by
  have hm := Engine.mild_switchIn w.floor.engine now c t
  by_cases hu : u = t
  · subst hu
    obtain ⟨y, hy, halive⟩ := h.floor.sound.alive hp rfl
    obtain rfl : x = y := Option.some.inj (hx.symm.trans hy)
    have hnot := not_engaged h.floor.sound hx hfree
    refine ⟨rfl, rfl, hm.slot u, fun r _ => ⟨hm.timeout? r, rfl⟩, fun z hz hl => ?_, ?_, ?_⟩
    · obtain ⟨z', hz', hl', hg, hc⟩ := hm.task u z hz hl
      exact ⟨z', hz', hl', hg, .inl hc⟩
    · intro d q hq he
      by_cases hd : c = d
      · subst hd
        obtain ⟨x', hx', halive', -, hc⟩ := hm.task u x hx halive
        exact .inr ⟨⟨x', hx', halive', hc.trans hown⟩, fun r z => h.not_resume hp rfl⟩
      · exact .inl ⟨q, (getElem?_modify_of_ne hd _).symm.trans hq, he⟩
    · intro d q hq hbusy
      rcases hbusy with ⟨he, -⟩ | ⟨-, hheld⟩
      · exact absurd he (hnot d q hq)
      · rw [hkept] at hheld
        cases hheld
  · have hafter : (Phase.working t).engaged = some u → (Phase.resuming t).engaged = some u :=
      fun he => absurd (Option.some.inj he).symm hu
    refine spared_pass hm.toSameClock (hm.task u) hp nofun hafter ?_ rfl
    rintro ⟨⟩
    exact hkept

/-- A task in a pool has no work. -/
theorem cached_of_popped {f : Floor V} (h : f.Sound) (ht : f.engine.Popped t e) :
    ∃ x, f.engine.task? t = some x ∧ x.status = .cached := by
  have hspare := h.spare t
  have hpooled := ht.drawn.pooled t
  rw [tally_self] at hpooled
  have hpos : 0 < f.engine.flag t (·.status == .cached) := by omega
  obtain ⟨x, hx, hcached⟩ := Engine.exists_of_flag_pos hpos
  exact ⟨x, hx, by simpa using hcached⟩

/-! ## Every plain step -/

theorem Sound.of_clock (h : Sound w) (hreached : f.Reached)
    (hclock : w.floor.engine.SameClock f.engine) (hdue : f.due = w.floor.due)
    (hspared : ∀ t, Spared w { w with floor := f } t) : Sound { w with floor := f } := by
  refine ⟨hreached, ?_, fun t => (hspared t).steady (h.steady t)⟩
  have hkept := h.kept.same hclock
  rw [← hdue] at hkept
  exact hkept

theorem Sound.plain (h : Sound w) (hp : w.floor.Plain w.withheld f) :
    Sound { w with floor := f } := by
  have hs := h.floor.sound
  have hreached := h.floor.step hp.step
  have hmild : w.floor.engine.Mild f.engine → f.due = w.floor.due →
      (∀ t, Spared w { w with floor := f } t) → Sound { w with floor := f } :=
    fun hm hdue hspared => h.of_clock hreached hm.toSameClock hdue hspared
  cases hp with
  | other ha => exact hmild ha.mild rfl (spared_stay ha.mild rfl)
  | take hp ht =>
      exact hmild ht.mild rfl fun t => spared_move ht.mild hp rfl rfl nofun rfl
  | abandon hp => exact hmild (.refl _) rfl fun t => spared_move (.refl _) hp rfl rfl nofun rfl
  | obtainPooled hp ht =>
      exact hmild ht.mild rfl fun t => spared_move ht.mild hp rfl rfl nofun rfl
  | obtainFresh hp =>
      have hm := Engine.mild_makeTask w.floor.engine
      exact hmild hm rfl fun t => spared_move hm hp rfl rfl nofun rfl
  | @assign c s t hp =>
      obtain ⟨x, hx, hended⟩ := hs.ended hp
      have hnone := (h.steady t).rest x hx (by rw [hended.cached]; exact nofun)
      have hm := Engine.mild_assign (c := c) (s := s) hx hended hnone
      exact hmild hm rfl fun t => spared_move hm hp rfl rfl nofun rfl
  | @unmark c t hp =>
      have hm : w.floor.engine.Mild (w.floor.engine.updateTask t ({ · with enqueued := false })) :=
        Engine.mild_updateTask (fun _ => rfl) (fun _ => rfl) (fun _ => rfl) fun _ => rfl
      exact hmild hm rfl fun t => spared_move hm hp rfl rfl nofun rfl
  | refuse hp hx hover =>
      obtain ⟨y, hy, halive⟩ := hs.alive hp rfl
      rw [hx] at hy
      cases hy
      exact absurd halive hover
  | steal hp hkept hx hforeign hsteal =>
      refine h.of_clock hreached ?_ rfl (spared_steal h hkept hx hsteal)
      rw [Floor.steal?_eq hsteal]
      exact Engine.sameClock_updateTask fun _ => rfl
  | giveUp hp hkept =>
      refine hmild (.refl _) rfl fun u => spared_move (.refl _) hp rfl rfl ?_ rfl
      rintro ⟨⟩
      exact hkept
  | @switchIn c t x now hp hkept hx hown hfree =>
      refine h.of_clock hreached ?_ rfl (spared_switchIn h hp hkept hx hown hfree)
      exact (Engine.mild_switchIn w.floor.engine now c t).toSameClock
  | @permit c t x a native q hp hx hq =>
      have hm := Engine.mild_setParker w.floor.engine t a fun _ => q
      exact hmild hm rfl (spared_stay hm rfl)
  | refusePark hp hx hq => exact absurd hq (hs.begin_ne_error hp hx)
  | @undefer c t x hp hx hd =>
      have hm : w.floor.engine.Mild (w.floor.engine.updateCarrier c ({ · with deferred := none })) :=
        Engine.mild_updateCarrier fun _ => rfl
      exact hmild hm rfl (spared_stay hm rfl)
  | settle hp hx hr hw =>
      exact hmild (.refl _) rfl fun t => spared_move (.refl _) hp rfl rfl nofun rfl
  | release a hx =>
      have hm := Engine.mild_release hx a
      exact hmild hm rfl (spared_stay hm rfl)
  | @wake t now ht =>
      have hm := Engine.mild_wake w.floor.engine now t
      exact hmild hm rfl (spared_stay hm rfl)
  | @scrap t e ht =>
      obtain ⟨x, hx, hcached⟩ := cached_of_popped hs ht
      have hxe : e.task? t = some x := by
        rw [Engine.task?, ht.drawn.tasks]
        exact hx
      have hm := ht.mild.trans (Engine.mild_discard hxe hcached)
      exact hmild hm rfl (spared_stay hm rfl)

end Watch

end GreenThreads

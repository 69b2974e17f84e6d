import GreenThreads.Proofs.Watch.Plain

/-!
# Steps of parks and timers

A step of a park or of the timers concerns one task, and what is said of the others stays true.
-/

namespace GreenThreads

namespace Engine

variable {V : Type} {e : Engine V} {t : TaskId}

theorem sameRecords_withdraw (e : Engine V) (t : TaskId) (due : List TimeoutRef) :
    SameRecords e (e.withdraw t due) := by
  have hforget : SameRecords e (e.updateTask t fun x => x.takeTimeout.1) :=
    sameRecords_updateTask fun _ => ⟨rfl, fun _ h => h⟩
  rcases withdraw_cases e t due with heq | heq | ⟨x, r, byOwner, -, -, heq⟩
  · rw [heq]
    exact .refl e
  · rw [heq]
    exact hforget
  · rw [heq]
    exact (hforget.trans (sameRecords_updateTimers _ _ _)).trans (sameRecords_count _ rfl)

end Engine

namespace Watch

variable {V : Type} {w w' : Watch V} {t u : TaskId} {c d : Nat} {p p' : Phase} {e : Engine V}
  {f : Floor V} {r : TimeoutRef} {x : Task} {y : Timeout} {n : Stance}

/-! ## The task of a step -/

theorem Lives.retains {f' : Floor V} (h : Lives f t c) (hr : f.engine.Retains f'.engine t) :
    Lives f' t c := by
  obtain ⟨x, hx, halive, hc⟩ := h
  obtain ⟨x', hx', halive', -, hc'⟩ := hr x hx halive
  exact ⟨x', hx', halive', hc'.trans hc⟩

theorem Current.retains {f' : Floor V} {k : Park} (h : Current f t k)
    (hr : f.engine.Retains f'.engine t) : Current f' t k := by
  obtain ⟨htask, x, hx, halive, hg⟩ := h
  obtain ⟨x', hx', halive', hg', -⟩ := hr x hx halive
  exact ⟨htask, x', hx', halive', hg'.trans hg⟩

theorem Suits.retains {f' : Floor V} (h : Suits f t n) (hr : f.engine.Retains f'.engine t)
    (hphases : f'.phases = f.phases) : Suits f' t n := by
  cases n with
  | idle => trivial
  | arming k => exact ⟨h.1.retains hr, hphases ▸ h.2⟩
  | parked k timed => exact Current.retains h hr
  | ended k => exact ⟨h.1.retains hr, hphases ▸ h.2⟩
  | finished =>
      obtain ⟨c, hp⟩ := h
      exact ⟨c, hphases ▸ hp⟩

theorem Lives.eq (h : Lives f t c) (h' : Lives f t d) : c = d := by
  obtain ⟨x, hx, -, hc⟩ := h
  obtain ⟨x', hx', -, hd⟩ := h'
  rw [hx] at hx'
  cases hx'
  rw [hc] at hd
  exact Option.some.inj hd

/-- A task is at work on one carrier at most. -/
theorem Sound.eq_of_engaged (h : Sound w) (hp : w.floor.phases[c]? = some p)
    (he : p.engaged = some t) (hp' : w.floor.phases[d]? = some p') (he' : p'.engaged = some t) :
    c = d :=
  ((h.steady t).home c p hp he).eq ((h.steady t).home d p' hp' he')

theorem Sound.not_withheld (h : Sound w) (hp : w.floor.phases[c]? = some p)
    (he : p.engaged = some t) : w.withheld t ≠ true := by
  intro hheld
  obtain ⟨-, d, hd, hl⟩ := (h.steady t).withheld hheld
  obtain rfl := ((h.steady t).home c p hp he).eq hl
  rw [hp] at hd
  cases hd
  cases he

theorem rest_of_alive {f : Floor V} (hx : f.engine.task? t = some x) (halive : x.status = .alive)
    (x' : Task) (hx' : f.engine.task? t = some x') (hover : x'.status ≠ .alive) :
    x'.timeout = none := by
  cases hx.symm.trans hx'
  exact absurd halive hover

theorem Steady.of_slot_none (hslot : w.floor.engine.slot t = none)
    (home : ∀ (c : Nat) p, w.floor.phases[c]? = some p → p.engaged = some t → Lives w.floor t c)
    (stance : Suits w.floor t (w.stance t))
    (withheld : w.withheld t = true → ∃ c : Nat, w.floor.phases[c]? = some (.resuming t) ∧
      Lives w.floor t c) : Steady w t where
  rest := fun x hx _ => by
    rw [Engine.slot, hx, Option.bind_some] at hslot
    exact hslot
  home := home
  awake := fun c p r y _ _ hr => by rw [hslot] at hr; cases hr
  purpose := fun r y hr => by rw [hslot] at hr; cases hr
  stance := stance
  withheld := fun hheld => ⟨hslot, withheld hheld⟩

theorem Steady.turn (h : Steady w t) (hf : w'.floor = w.floor)
    (hwithheld : w'.withheld t = w.withheld t) (hpurpose : w'.purpose = w.purpose)
    (hsuits : Suits w.floor t (w'.stance t))
    (hkeep : ∀ k, w.stance t = .parked k true ∨ w.stance t = .ended k →
      w'.stance t = .parked k true ∨ w'.stance t = .ended k) : Steady w' t where
  rest := hf ▸ h.rest
  home := hf ▸ h.home
  awake := hf ▸ h.awake
  purpose := by
    rw [hf, hpurpose]
    intro r y hr hy ha
    obtain ⟨k, hk, hfrees, hstance⟩ := h.purpose r y hr hy ha
    exact ⟨k, hk, hfrees, hkeep k hstance⟩
  stance := hf ▸ hsuits
  withheld := by
    rw [hf, hwithheld]
    exact h.withheld

theorem Sound.of_spared (h : Sound w) (floor : w'.floor.Reached)
    (kept : w'.floor.engine.Kept w'.floor.due w'.fired) (others : ∀ u ≠ t, Spared w w' u)
    (self : Steady w' t) : Sound w' := by
  refine ⟨floor, kept, fun u => ?_⟩
  by_cases hu : u = t
  · exact hu ▸ self
  · exact (others u hu).steady (h.steady u)

/-- A task that keeps its work is at work on its own carrier if it was. -/
theorem Undisturbed.home (hu : Undisturbed w w'.floor.phases t) (hs : Steady w t)
    (hr : w.floor.engine.Retains w'.floor.engine t) (c : Nat) (p' : Phase)
    (hp' : w'.floor.phases[c]? = some p') (he : p'.engaged = some t) : Lives w'.floor t c := by
  obtain ⟨p, hp, he⟩ := hu.seats c p' hp' he
  exact (hs.home c p hp he).retains hr

/-! ## Parks -/

theorem Sound.turn (h : Sound w) (hreached : f.Reached)
    (hclock : w.floor.engine.SameClock f.engine) (hdue : f.due = w.floor.due)
    (hspared : ∀ u, Spared w { w with floor := f } u) (hf : w'.floor = f)
    (hstance : w'.stance = Function.update w.stance t n) (hwithheld : w'.withheld = w.withheld)
    (hpurpose : w'.purpose = w.purpose) (hfired : w'.fired = w.fired)
    (hsuits : Suits f t (w.stance t) → Suits f t n)
    (hkeep : ∀ k, w.stance t = .parked k true ∨ w.stance t = .ended k →
      n = .parked k true ∨ n = .ended k) : Sound w' := by
  subst hf
  have hself := (hspared t).steady (h.steady t)
  refine h.of_spared hreached ?_ ?_ (hself.turn rfl ?_ hpurpose ?_ ?_)
  · rw [hdue, hfired]
    exact h.kept.same hclock
  · intro u hu
    refine (hspared u).of_floor ?_ (by rw [hwithheld]) fun r _ => by rw [hpurpose]
    rw [hstance, Function.update_of_ne hu]
  · rw [hwithheld]
  · rw [hstance, Function.update_self]
    exact hsuits hself.stance
  · rw [hstance, Function.update_self]
    exact hkeep

theorem Sound.enter {a : Axis} {q : Parker} {timed : Bool} (h : Sound w) (hreached : f.Reached)
    (hp : w.floor.phases[c]? = some (.working t)) (hready : w.stance t = .idle)
    (hx : w.floor.engine.task? t = some x) (hphase : p' = .leaving t (some a) ∨ p' = .blocked t a)
    (hf : f = w.floor.move c p' (w.floor.engine.updateTask t (·.setParker a q))) :
    Sound (w.enter ⟨t, x.generation, a, w.parks⟩ timed f) := by
  have hm := Engine.mild_setParker w.floor.engine t a fun _ => q
  obtain ⟨y, hy, halive⟩ := h.floor.sound.alive hp rfl
  obtain rfl : x = y := Option.some.inj (hx.symm.trans hy)
  have hengaged : p'.engaged = some t := by
    rcases hphase with rfl | rfl <;> rfl
  subst hf
  have hcurrent : Current (w.floor.move c p' (w.floor.engine.updateTask t (·.setParker a q))) t
      ⟨t, x.generation, a, w.parks⟩ := Current.retains ⟨rfl, x, hx, halive, rfl⟩ (hm.task t)
  refine h.turn (t := t) hreached hm.toSameClock rfl (fun u => ?_) rfl rfl rfl rfl rfl ?_ ?_
  · refine spared_pass hm.toSameClock (hm.task u) hp ?_ ?_ nofun rfl
    · rintro ⟨⟩
      rw [hready]
      exact id
    · rw [hengaged]
      exact id
  · intro _
    cases timed with
    | true =>
        refine ⟨hcurrent, c, hphase.imp ?_ ?_⟩
        all_goals
          rintro rfl
          exact getElem?_modify_self hp _
    | false => exact hcurrent
  · rw [hready]
    rintro k (hk | hk) <;> cases hk

theorem Sound.endPark {k : Park} {timed : Bool} (h : Sound w)
    (hp : w.floor.phases[c]? = some (.working t)) (hready : w.stance t = .parked k timed) :
    Sound (w.turn t (if timed then .ended k else .idle) { w.floor with
      engine := w.floor.engine.updateTask t fun x =>
        x.setParker k.axis (x.parker k.axis).finish }) := by
  have hm := Engine.mild_setParker w.floor.engine t k.axis fun x => (x.parker k.axis).finish
  refine h.turn (h.floor.step (.endPark k.axis hp)) hm.toSameClock rfl (spared_stay hm rfl) rfl rfl rfl
    rfl rfl ?_ ?_
  · rw [hready]
    intro hcurrent
    cases timed with
    | true => exact ⟨hcurrent, c, hp⟩
    | false => trivial
  · rw [hready]
    rintro j (hj | hj)
    · cases hj
      exact .inr rfl
    · cases hj

theorem Sound.unblock {k : Park} (h : Sound w)
    (hp : w.floor.phases[c]? = some (.blocked t k.axis)) (hready : w.stance t = .parked k false) :
    Sound (w.turn t .idle (w.floor.move c (.working t) (w.floor.engine.updateTask t fun x =>
      x.setParker k.axis (x.parker k.axis).finish))) := by
  have hm := Engine.mild_setParker w.floor.engine t k.axis fun x => (x.parker k.axis).finish
  refine h.turn (h.floor.step (.unblock hp)) hm.toSameClock rfl (fun u => ?_) rfl rfl rfl rfl rfl
    (fun _ => trivial) ?_
  · have hafter : (Phase.working t).engaged = some u → (Phase.blocked t k.axis).engaged = some u :=
      id
    refine spared_pass hm.toSameClock (hm.task u) hp ?_ hafter nofun rfl
    rintro ⟨⟩
    rw [hready]
    exact id
  · rw [hready]
    rintro j (hj | hj) <;> cases hj

theorem Sound.yield (h : Sound w) (hp : w.floor.phases[c]? = some (.working t))
    (hready : w.stance t = .idle) :
    Sound { w with
      floor := w.floor.move c (.leaving t none) (w.floor.engine.updateCarrier c (·.deferWake t)) } := by
  have hm : w.floor.engine.Mild (w.floor.engine.updateCarrier c (·.deferWake t)) :=
    Engine.mild_updateCarrier fun _ => rfl
  refine h.of_clock (h.floor.step (.yield hp)) hm.toSameClock rfl fun u => ?_
  refine spared_pass hm.toSameClock (hm.task u) hp ?_ (by rintro ⟨⟩) nofun rfl
  rintro ⟨⟩
  rw [hready]
  exact id

/-- A task gives its carrier away only after it has armed the timeout of its park. -/
theorem Sound.leave {axis : Option Axis} (h : Sound w)
    (hp : w.floor.phases[c]? = some (.leaving t axis)) (hready : ∀ k, w.stance t ≠ .arming k) :
    Sound { w with floor := w.floor.move c .settling (w.floor.engine.vacate c t) } := by
  have hm : w.floor.engine.Mild (w.floor.engine.vacate c t) := by
    refine Engine.Mild.trans (Engine.mild_updateCarrier ?_) (Engine.mild_updateTask ?_ ?_ ?_ ?_)
    all_goals exact fun _ => rfl
  have hnot : (Phase.leaving t axis).engaged = some t → ¬ (w.stance t).Pins := by
    intro he hpins
    have hsuits := (h.steady t).stance
    -- Whoever has more to do is at work elsewhere, which is not possible.
    have hwork : ∀ d : Nat, w.floor.phases[d]? ≠ some (.working t) := by
      intro d hd
      obtain rfl := h.eq_of_engaged hp he hd rfl
      rw [hp] at hd
      cases hd
    cases hstance : w.stance t with
    | idle => rw [hstance] at hpins; exact hpins
    | arming k => exact hready k hstance
    | parked k timed => rw [hstance] at hpins; exact hpins
    | ended k =>
        rw [hstance] at hsuits
        obtain ⟨-, d, hd⟩ := hsuits
        exact hwork d hd
    | finished =>
        rw [hstance] at hsuits
        obtain ⟨d, hd⟩ := hsuits
        exact hwork d hd
  refine h.of_clock (h.floor.step (.leave hp)) hm.toSameClock rfl fun u => ?_
  refine spared_pass hm.toSameClock (hm.task u) hp (fun he => ?_) (by rintro ⟨⟩) nofun rfl
  obtain rfl : t = u := by
    cases axis with
    | none => cases he
    | some a => exact Option.some.inj he
  exact hnot he

/-! ## A task forgets its timeout -/

theorem Sound.slot_ne (h : Sound w) (hu : u ≠ t) (hr : w.floor.engine.slot u = some r) :
    w.floor.engine.slot t ≠ some r := by
  intro ht
  obtain ⟨y, hy, -, -, rfl⟩ := exists_of_slot h hr
  obtain ⟨z, hz, -, -, rfl⟩ := exists_of_slot h ht
  rw [hy] at hz
  cases hz
  exact hu rfl

theorem Sound.cleared (h : Sound w) (hreached : w'.floor.Reached)
    (hkept : w'.floor.engine.Kept w'.floor.due w'.fired)
    (hrecords : Engine.SameRecords w.floor.engine w'.floor.engine)
    (hphases : w'.floor.phases = w.floor.phases)
    (hslot : ∀ u, w'.floor.engine.slot u = if u = t then none else w.floor.engine.slot u)
    (hread : ∀ r, w.floor.engine.slot t ≠ some r →
      w'.floor.engine.timeout? r = w.floor.engine.timeout? r)
    (hpurpose : w'.purpose = w.purpose) (hstance : ∀ u ≠ t, w'.stance u = w.stance u)
    (hwithheld : ∀ u ≠ t, w'.withheld u = w.withheld u) (hsuits : Suits w.floor t (w'.stance t))
    (hheld : w'.withheld t = true →
      ∃ c : Nat, w.floor.phases[c]? = some (.resuming t) ∧ Lives w.floor t c) : Sound w' := by
  have hundisturbed : ∀ u, Undisturbed w w'.floor.phases u := fun u => hphases ▸ .refl w u
  refine h.of_spared (t := t) hreached hkept (fun u hu => ?_) ?_
  · refine .of_retains (hstance u hu) (hwithheld u hu) ?_ (fun r hr => ?_) (hrecords.retains u)
      (hundisturbed u)
    · rw [hslot, if_neg hu]
    · exact ⟨hread r (h.slot_ne hu hr), by rw [hpurpose]⟩
  · refine .of_slot_none ?_ ((hundisturbed t).home (h.steady t) (hrecords.retains t))
      (hsuits.retains (hrecords.retains t) hphases) fun hw => ?_
    · rw [hslot, if_pos rfl]
    · obtain ⟨d, hd, hl⟩ := hheld hw
      exact ⟨d, by rw [hphases]; exact hd, hl.retains (hrecords.retains t)⟩

theorem Sound.disarm (h : Sound w) (hp : w.floor.phases[c]? = some p)
    (hbusy : p = .resuming t ∨ p = .working t ∨ ∃ a, p = .blocked t a)
    (hf : w'.floor = { w.floor with engine := w.floor.engine.withdraw t w.floor.due })
    (hpurpose : w'.purpose = w.purpose) (hfired : w'.fired = w.fired)
    (hstance : ∀ u ≠ t, w'.stance u = w.stance u)
    (hwithheld : ∀ u ≠ t, w'.withheld u = w.withheld u) (hsuits : Suits w.floor t (w'.stance t))
    (hheld : w'.withheld t = true →
      ∃ c : Nat, w.floor.phases[c]? = some (.resuming t) ∧ Lives w.floor t c) : Sound w' := by
  have hreached := h.floor.step (.disarm hp hbusy)
  obtain ⟨hkept, hslot, hread⟩ := h.kept.withdraw h.floor.sound.timing t
  have hrecords := Engine.sameRecords_withdraw w.floor.engine t w.floor.due
  refine h.cleared (t := t) ?_ ?_ ?_ ?_ ?_ ?_ hpurpose hstance hwithheld hsuits hheld
  · rw [hf]; exact hreached
  · rw [hf, hfired]; exact hkept
  · rw [hf]; exact hrecords
  · rw [hf]
  · rw [hf]; exact hslot
  · rw [hf]; exact hread

theorem Sound.disarm_engaged (h : Sound w) (hp : w.floor.phases[c]? = some p)
    (hbusy : p = .working t ∨ ∃ a, p = .blocked t a) (hsuits : Suits w.floor t n) :
    Sound (w.turn t n { w.floor with engine := w.floor.engine.withdraw t w.floor.due }) := by
  have he : p.engaged = some t := by
    rcases hbusy with rfl | ⟨a, rfl⟩ <;> rfl
  refine h.disarm hp (.inr hbusy) rfl rfl rfl (fun u hu => Function.update_of_ne hu _ _)
    (fun _ _ => rfl) ?_ fun hheld => absurd hheld (h.not_withheld hp he)
  have hstance : Suits w.floor t (Function.update w.stance t n t) := by
    rwa [Function.update_self]
  exact hstance

theorem Sound.withhold (h : Sound w) (hp : w.floor.phases[c]? = some (.resuming t))
    (hx : w.floor.engine.task? t = some x) (hown : x.carrier = some c) :
    Sound { w with
      floor := { w.floor with engine := w.floor.engine.withdraw t w.floor.due }
      withheld := Function.update w.withheld t true } := by
  obtain ⟨y, hy, halive⟩ := h.floor.sound.alive hp rfl
  obtain rfl : x = y := Option.some.inj (hx.symm.trans hy)
  exact h.disarm hp (.inl rfl) rfl rfl rfl (fun _ _ => rfl)
    (fun u hu => Function.update_of_ne hu _ _) (h.steady t).stance
    fun _ => ⟨c, hp, x, hx, halive, hown⟩

/-- A timeout in somebody's hand fires. -/
theorem Sound.fire (h : Sound w) (hdue : r ∈ w.floor.due)
    (hy : w.floor.engine.timeout? r = some y) (hvalid : y.cancelled = false) (now : Nanos) :
    Sound { w with
      floor := { w.floor with engine := w.floor.engine.fire now r, due := w.floor.due.erase r }
      fired := r :: w.fired } := by
  obtain ⟨hkept, hread, hslot⟩ := h.kept.discharge hdue hy hvalid now
  have hrecords := Engine.sameRecords_fire w.floor.engine now r
  refine h.cleared (t := y.task) (h.floor.fire_of_mem hdue hy hvalid now) hkept hrecords rfl
    hslot (fun s _ => hread s) rfl (fun _ _ => rfl) (fun _ _ => rfl) (h.steady y.task).stance
    fun hheld => ?_
  obtain ⟨-, hseat⟩ := (h.steady y.task).withheld hheld
  exact hseat

/-! ## A task is given a timeout -/

theorem spared_armed {z : Timeout} (h : Sound w) (hu : u ≠ t) (hnew : w.floor.engine.timeout? r = none)
    (hread : ∀ s, w'.floor.engine.timeout? s = if s = r then some z else w.floor.engine.timeout? s)
    (hslot : ∀ u, w'.floor.engine.slot u = if u = t then some r else w.floor.engine.slot u)
    (hrecords : Engine.SameRecords w.floor.engine w'.floor.engine)
    (hpurpose : ∀ s ≠ r, w'.purpose s = w.purpose s) (hstance : w'.stance u = w.stance u)
    (hwithheld : w'.withheld u = w.withheld u) (hundisturbed : Undisturbed w w'.floor.phases u) :
    Spared w w' u := by
  refine .of_retains hstance hwithheld ?_ (fun s hs => ?_) (hrecords.retains u) hundisturbed
  · rw [hslot, if_neg hu]
  · have hne : s ≠ r := by
      rintro rfl
      obtain ⟨y, hy, -⟩ := exists_of_slot h hs
      rw [hnew] at hy
      cases hy
    exact ⟨by rw [hread, if_neg hne], hpurpose s hne⟩

/-- A task that is about to arm a timeout knows none, and then knows the new one. -/
theorem Sound.arm_spec {k : Park} (h : Sound w) (hp : w.floor.phases[c]? = some p)
    (he : p.engaged = some k.task) (hready : w.stance k.task = .arming k) (now deadline : Nanos)
    (a : TimeoutAction) (byTask : Bool) :
    let e' := w.floor.engine.arm now c k.task deadline a byTask
    Current w.floor k.task k ∧ ∃ r y, e'.Kept w.floor.due w.fired ∧ y.action = a ∧
      (∀ s, e'.timeout? s = if s = r then some y else w.floor.engine.timeout? s) ∧
      w.floor.engine.timeout? r = none ∧
      ∀ u, e'.slot u = if u = k.task then some r else w.floor.engine.slot u := by
  have hsuits := (h.steady k.task).stance
  rw [hready] at hsuits
  obtain ⟨hcurrent, -⟩ := hsuits
  obtain ⟨-, x, hx, -, -⟩ := id hcurrent
  have hnone := h.slot_eq_none hp he (by rw [hready]; exact nofun) (by rw [hready]; exact nofun)
  obtain ⟨r, y, hkept, -, haction, hread, hnew, hslot⟩ := h.kept.arm h.floor.sound.timing
    (h.floor.sound.lt_size hp) hx hnone now deadline a byTask
  exact ⟨hcurrent, r, y, hkept, haction, hread, hnew, hslot⟩

theorem Sound.arm {k : Park} {a : TimeoutAction} {byTask : Bool} (h : Sound w) (now deadline : Nanos)
    (hp : w.floor.phases[c]? = some p) (he : p.engaged = some k.task)
    (hready : w.stance k.task = .arming k) (ha : a.Frees k.axis)
    (hreached : Floor.Reached { w.floor with
      engine := w.floor.engine.arm now c k.task deadline a byTask }) :
    Sound (w.armed k { w.floor with
      engine := w.floor.engine.arm now c k.task deadline a byTask }) := by
  have hself := h.steady k.task
  obtain ⟨hcurrent, r, y, hkept, haction, hread, hnew, hslot⟩ :=
    h.arm_spec hp he hready now deadline a byTask
  obtain ⟨-, x, hx, halive, -⟩ := id hcurrent
  have hrecords := Engine.sameRecords_arm w.floor.engine now c k.task deadline a byTask
  have hknown : (w.floor.engine.arm now c k.task deadline a byTask).slot k.task = some r := by
    rw [hslot, if_pos rfl]
  have hy : (w.floor.engine.arm now c k.task deadline a byTask).timeout? r = some y := by
    rw [hread, if_pos rfl]
  have hnot : y.action ≠ .resume := by
    rw [haction]
    rintro rfl
    exact ha
  have hstance : Function.update w.stance k.task (.parked k true) k.task = .parked k true :=
    Function.update_self ..
  refine h.of_spared (t := k.task) hreached hkept (fun u hu => ?_) ?_
  · refine spared_armed h hu hnew hread hslot hrecords (fun s hs => ?_)
      (Function.update_of_ne hu _ _) rfl (.refl w u)
    refine if_neg fun heq => hs ?_
    rw [hknown] at heq
    exact (Option.some.inj heq).symm
  · refine ⟨?_, ?_, ?_, ?_, ?_, ?_⟩
    · obtain ⟨z, hz, halive', -⟩ := hrecords.retains k.task x hx halive
      exact rest_of_alive hz halive'
    · intro d q hq hqe
      exact (hself.home d q hq hqe).retains (hrecords.retains k.task)
    · intro d q s z _ _ hs hz
      cases hknown.symm.trans hs
      cases hy.symm.trans hz
      exact hnot
    · intro s z hs hz _
      cases hknown.symm.trans hs
      cases hy.symm.trans hz
      exact ⟨k, if_pos hknown, haction ▸ ha, .inl hstance⟩
    · have hsuits : Suits { w.floor with
          engine := w.floor.engine.arm now c k.task deadline a byTask } k.task
          (Function.update w.stance k.task (.parked k true) k.task) := by
        rw [hstance]
        exact hcurrent.retains (hrecords.retains k.task)
      exact hsuits
    · exact fun hheld => absurd hheld (h.not_withheld hp he)

/-- A task that is held back gets a timeout that resumes it. -/
theorem Sound.throttle (h : Sound w) (now deadline : Nanos)
    (hp : w.floor.phases[c]? = some (.resuming t)) (hheld : w.withheld t = true) :
    Sound { w with
      floor := w.floor.move c .looking (w.floor.engine.arm now c t deadline .resume false)
      withheld := Function.update w.withheld t false } := by
  have hself := h.steady t
  obtain ⟨hnone, d, hd, hlives⟩ := hself.withheld hheld
  obtain rfl := h.floor.sound.eq_of_right hp hd rfl rfl
  -- The task belongs to this carrier, which has yet to switch to it.
  have hidle : ∀ (d : Nat) q, w.floor.phases[d]? = some q → q.engaged ≠ some t := by
    intro d q hq he
    obtain rfl := (hself.home d q hq he).eq hlives
    rw [hp] at hq
    cases hq
    cases he
  obtain ⟨x, hx, halive, -⟩ := hlives
  obtain ⟨r, y, hkept, -, haction, hread, hnew, hslot⟩ := h.kept.arm h.floor.sound.timing
    (h.floor.sound.lt_size hp) hx hnone now deadline .resume false
  have hrecords := Engine.sameRecords_arm w.floor.engine now c t deadline .resume false
  have hknown : (w.floor.engine.arm now c t deadline .resume false).slot t = some r := by
    rw [hslot, if_pos rfl]
  have hy : (w.floor.engine.arm now c t deadline .resume false).timeout? r = some y := by
    rw [hread, if_pos rfl]
  have hstays : ∀ (d : Nat) q, (w.floor.phases.modify c fun _ => Phase.looking)[d]? = some q →
      q.engaged ≠ some t := by
    intro d q hq he
    by_cases hc : c = d
    · subst hc
      cases (getElem?_modify_self hp .looking).symm.trans hq
      cases he
    · exact hidle d q ((getElem?_modify_of_ne hc .looking).symm.trans hq) he
  refine h.of_spared (t := t) (h.floor.step (.throttle now deadline hp)) hkept (fun u hu => ?_) ?_
  · refine spared_armed h hu hnew hread hslot hrecords (fun _ _ => rfl) rfl
      (Function.update_of_ne hu _ _) (.modify hp nofun (by rintro ⟨⟩) ?_)
    rintro ⟨⟩
    exact absurd rfl hu
  · refine ⟨?_, fun d q hq he => absurd he (hstays d q hq),
      fun d q _ _ hq he => absurd he (hstays d q hq), ?_, ?_, ?_⟩
    · obtain ⟨z, hz, halive', -⟩ := hrecords.retains t x hx halive
      exact rest_of_alive hz halive'
    · intro s z hs hz hnot
      cases hknown.symm.trans hs
      cases hy.symm.trans hz
      exact absurd haction hnot
    · have hsuits := hself.stance
      revert hsuits
      cases hstance : w.stance t with
      | idle => exact fun _ => trivial
      | arming k =>
          rintro ⟨-, d, hq | hq⟩
          · exact absurd rfl (hidle d _ hq)
          · exact absurd rfl (hidle d _ hq)
      | parked k timed => exact fun hcurrent => Current.retains hcurrent (hrecords.retains t)
      | ended k =>
          rintro ⟨-, d, hq⟩
          exact absurd rfl (hidle d _ hq)
      | finished =>
          rintro ⟨d, hq⟩
          exact absurd rfl (hidle d _ hq)
    · intro hagain
      have hnow : Function.update w.withheld t false t = true := hagain
      rw [Function.update_self] at hnow
      cases hnow

end Watch

end GreenThreads

import GreenThreads.Proofs.Watch.Steps

/-!
# What a task has to do with its timeout

Between any two steps a task knows a timeout only as long as it is in the park that the timeout was
armed for, has yet to disarm after that park, or is held back. What is said of one task is left
alone by whatever happens to others.
-/

namespace GreenThreads

/-- The task that runs, blocks its carrier, or is about to give it away after it began to wait. -/
def Phase.engaged : Phase → Option TaskId
  | working t | blocked t _ | leaving t (some _) => some t
  | looking | holding _ | readying _ _ | resuming _ | leaving _ none | settling => none

/-- The task has something to do before it can leave its carrier. -/
def Stance.Pins : Stance → Prop
  | arming _ | ended _ | finished => True
  | idle | parked _ _ => False

/-- The timeout frees who waits on the axis. -/
def TimeoutAction.Frees (a : Axis) : TimeoutAction → Prop
  | resume => False
  | wakeCooperative b | wakeNative b => b = a

namespace Watch

variable {V : Type} {w w' : Watch V} {t : TaskId} {c : Nat} {p : Phase} {r : TimeoutRef}
  {y : Timeout} {x : Task}

/-- The task has work, and its incarnation is that of the park. -/
def Current (f : Floor V) (t : TaskId) (k : Park) : Prop :=
  k.task = t ∧ ∃ x, f.engine.task? t = some x ∧ x.status = .alive ∧ x.generation = k.generation

/-- The stance of a task agrees with what its carrier does. -/
def Suits (f : Floor V) (t : TaskId) : Stance → Prop
  | .idle => True
  | .arming k => Current f t k ∧ ∃ c : Nat,
      f.phases[c]? = some (.leaving t (some k.axis)) ∨ f.phases[c]? = some (.blocked t k.axis)
  | .parked k _ => Current f t k
  | .ended k => Current f t k ∧ ∃ c : Nat, f.phases[c]? = some (.working t)
  | .finished => ∃ c : Nat, f.phases[c]? = some (.working t)

/-- The task has work and belongs to carrier `c`. -/
def Lives (f : Floor V) (t : TaskId) (c : Nat) : Prop :=
  ∃ x, f.engine.task? t = some x ∧ x.status = .alive ∧ x.carrier = some c

/-- What is said of one task. -/
structure Steady (w : Watch V) (t : TaskId) : Prop where
  rest : ∀ x, w.floor.engine.task? t = some x → x.status ≠ .alive → x.timeout = none
  home : ∀ (c : Nat) p, w.floor.phases[c]? = some p → p.engaged = some t → Lives w.floor t c
  /-- No timeout will resume a task that is at work. -/
  awake : ∀ (c : Nat) p r y, w.floor.phases[c]? = some p → p.engaged = some t →
    w.floor.engine.slot t = some r → w.floor.engine.timeout? r = some y → y.action ≠ .resume
  /-- Any other timeout is that of the park which the task is in or has just ended. -/
  purpose : ∀ r y, w.floor.engine.slot t = some r → w.floor.engine.timeout? r = some y →
    y.action ≠ .resume → ∃ k, w.purpose r = some k ∧ y.action.Frees k.axis ∧
      (w.stance t = .parked k true ∨ w.stance t = .ended k)
  stance : Suits w.floor t (w.stance t)
  withheld : w.withheld t = true → w.floor.engine.slot t = none ∧
    ∃ c : Nat, w.floor.phases[c]? = some (.resuming t) ∧ Lives w.floor t c

/-- What holds between any two steps. -/
structure Sound (w : Watch V) : Prop where
  floor : w.floor.Reached
  kept : w.floor.engine.Kept w.floor.due w.fired
  steady : ∀ t, Steady w t

/-! ## What a sound watch says -/

theorem exists_of_slot (h : Sound w) (hr : w.floor.engine.slot t = some r) :
    ∃ y, w.floor.engine.timeout? r = some y ∧ y.cancelled = false ∧ r ∉ w.fired ∧ y.task = t := by
  obtain ⟨⟨y, hy, hc, hf⟩, z, hz, ht⟩ := (h.kept.slot t r).mp hr
  rw [hy] at hz
  cases hz
  exact ⟨y, hy, hc, hf, ht⟩

theorem Sound.slot_eq_none (h : Sound w) (hp : w.floor.phases[c]? = some p)
    (he : p.engaged = some t) (hparked : ∀ k, w.stance t ≠ .parked k true)
    (hended : ∀ k, w.stance t ≠ .ended k) : w.floor.engine.slot t = none := by
  cases hr : w.floor.engine.slot t with
  | none => rfl
  | some r =>
      obtain ⟨y, hy, -⟩ := exists_of_slot h hr
      have hpark := (h.steady t).awake c p r y hp he hr hy
      obtain ⟨k, -, -, hstance⟩ := (h.steady t).purpose r y hr hy hpark
      rcases hstance with hstance | hstance
      · exact absurd hstance (hparked k)
      · exact absurd hstance (hended k)

end Watch

namespace Engine

variable {V : Type} {e : Engine V} {due fired : List TimeoutRef} {r : TimeoutRef} {y : Timeout}

/-- A live timeout that resumes its task is a way for the task to go on. -/
theorem Kept.alarms_pos (h : Kept e due fired) (ht : e.Timing due) (hr : e.timeout? r = some y)
    (hc : y.cancelled = false) (hf : r ∉ fired) (ha : y.action = .resume) :
    0 < e.alarms due y.task := by
  obtain ⟨q, hq, hb⟩ := Option.bind_eq_some_iff.mp hr
  have hresumes : q.resumes y.task r.number = true := by
    simp only [TimerQueue.resumes, hb, Option.any_some, hc, ha, Bool.not_false, decide_true,
      Bool.and_self]
  have hplace := h.place r y hr hc
  have hback : e.keptBack r = 0 := by
    refine keptBack_eq_zero ht ?_
    rintro ⟨z, hz, hnot⟩
    rw [hr] at hz
    cases hz
    exact hnot ha
  rw [List.count_eq_zero.mpr hf, places, hback] at hplace
  unfold alarms
  by_cases hdue : due.count r = 0
  · have hheap : 0 < q.heap.toList.count r.number := by
      rw [heaped_of_timersOf hq] at hplace
      omega
    have hpos : 0 < q.armed y.task :=
      List.countP_pos_iff.mpr ⟨r.number, List.count_pos_iff.mp hheap, hresumes⟩
    have hle := armed_le hq y.task
    omega
  · have hpos : 0 < due.countP (e.resumes y.task) := by
      refine List.countP_pos_iff.mpr ⟨r, List.count_pos_iff.mp (by omega), ?_⟩
      rw [resumes_of_timersOf hq]
      exact hresumes
    omega

end Engine

namespace Watch

variable {V : Type} {w w' : Watch V} {t : TaskId} {c : Nat} {p : Phase} {r : TimeoutRef}
  {y : Timeout} {x : Task}

theorem Sound.not_resume (h : Sound w) (hp : w.floor.phases[c]? = some p)
    (hr : p.right = some t) (hslot : w.floor.engine.slot t = some r)
    (hy : w.floor.engine.timeout? r = some y) : y.action ≠ .resume := by
  intro ha
  obtain ⟨z, hz, hc, hf, rfl⟩ := exists_of_slot h hslot
  rw [hy] at hz
  cases hz
  have hpos := h.kept.alarms_pos h.floor.sound.timing hy hc hf ha
  have hzero := h.floor.sound.alarms_eq_zero hp hr
  omega

/-! ## Tasks that have no part in a step -/

/-- A task that has no part in a step. -/
structure Spared (w w' : Watch V) (t : TaskId) : Prop where
  stance : w'.stance t = w.stance t
  withheld : w'.withheld t = w.withheld t
  slot : w'.floor.engine.slot t = w.floor.engine.slot t
  read : ∀ r, w.floor.engine.slot t = some r →
    w'.floor.engine.timeout? r = w.floor.engine.timeout? r ∧ w'.purpose r = w.purpose r
  /-- It keeps its work and its incarnation, and is only moved if no carrier has to do with it. -/
  task : ∀ x, w.floor.engine.task? t = some x → x.status = .alive →
    ∃ x', w'.floor.engine.task? t = some x' ∧ x'.status = .alive ∧ x'.generation = x.generation ∧
      (x'.carrier = x.carrier ∨ w.withheld t = false ∧
        ∀ (c : Nat) p, w.floor.phases[c]? = some p → p.engaged ≠ some t)
  /-- If it is at work it was before, or it was switched to just now. -/
  seats : ∀ (c : Nat) p', w'.floor.phases[c]? = some p' → p'.engaged = some t →
    (∃ p, w.floor.phases[c]? = some p ∧ p.engaged = some t) ∨ Lives w'.floor t c ∧
      ∀ r y, w.floor.engine.slot t = some r → w.floor.engine.timeout? r = some y →
        y.action ≠ .resume
  stays : ∀ (c : Nat) p, w.floor.phases[c]? = some p →
    p.engaged = some t ∧ (w.stance t).Pins ∨ p = .resuming t ∧ w.withheld t = true →
      w'.floor.phases[c]? = some p

theorem Spared.of_floor (h : Spared w { w with floor := w'.floor } t)
    (hstance : w'.stance t = w.stance t) (hwithheld : w'.withheld t = w.withheld t)
    (hpurpose : ∀ r, w.floor.engine.slot t = some r → w'.purpose r = w.purpose r) : Spared w w' t :=
  ⟨hstance, hwithheld, h.slot, fun r hr => ⟨(h.read r hr).1, hpurpose r hr⟩, h.task, h.seats,
    h.stays⟩

theorem Spared.lives (h : Spared w w' t) (hl : Lives w.floor t c)
    (hbound : w.withheld t = true ∨ ∃ (d : Nat) (p : Phase), w.floor.phases[d]? = some p ∧
      p.engaged = some t) : Lives w'.floor t c := by
  obtain ⟨x, hx, halive, hc⟩ := hl
  obtain ⟨x', hx', halive', -, hcarrier⟩ := h.task x hx halive
  refine ⟨x', hx', halive', ?_⟩
  rcases hcarrier with hsame | ⟨hkept, hfree⟩
  · rw [hsame, hc]
  · rcases hbound with hheld | ⟨d, p, hp, he⟩
    · rw [hheld] at hkept
      cases hkept
    · exact absurd he (hfree d p hp)

theorem Spared.current {k : Park} (h : Spared w w' t) (hk : Current w.floor t k) :
    Current w'.floor t k := by
  obtain ⟨htask, x, hx, halive, hg⟩ := hk
  obtain ⟨x', hx', halive', hg', -⟩ := h.task x hx halive
  exact ⟨htask, x', hx', halive', hg'.trans hg⟩

theorem Spared.suits (h : Spared w w' t) (hn : Suits w.floor t (w.stance t)) :
    Suits w'.floor t (w.stance t) := by
  have hstays : (w.stance t).Pins → ∀ (c : Nat) p, w.floor.phases[c]? = some p →
      p.engaged = some t → w'.floor.phases[c]? = some p :=
    fun hpins c p hp he => h.stays c p hp (.inl ⟨he, hpins⟩)
  revert hn hstays
  cases w.stance t with
  | idle => exact fun _ _ => trivial
  | arming k =>
      rintro ⟨hk, c, hp⟩ hstays
      exact ⟨h.current hk, c, hp.imp (fun hp => hstays trivial c _ hp rfl)
        fun hp => hstays trivial c _ hp rfl⟩
  | parked k timed => exact fun hk _ => h.current hk
  | ended k =>
      rintro ⟨hk, c, hp⟩ hstays
      exact ⟨h.current hk, c, hstays trivial c _ hp rfl⟩
  | finished =>
      rintro ⟨c, hp⟩ hstays
      exact ⟨c, hstays trivial c _ hp rfl⟩

theorem Spared.steady (h : Spared w w' t) (hs : Steady w t) : Steady w' t where
  rest := by
    intro x' hx' hover
    have hnone : w.floor.engine.slot t = none := by
      cases hx : w.floor.engine.task? t with
      | none => rw [Engine.slot, hx]; rfl
      | some x =>
          rw [Engine.slot, hx, Option.bind_some]
          refine hs.rest x hx fun halive => ?_
          obtain ⟨z, hz, halive', -⟩ := h.task x hx halive
          rw [hx'] at hz
          cases hz
          exact hover halive'
    have hslot := h.slot
    rw [hnone, Engine.slot, hx', Option.bind_some] at hslot
    exact hslot
  home := by
    intro c p' hp' he
    rcases h.seats c p' hp' he with ⟨p, hp, he⟩ | ⟨hlives, -⟩
    · exact h.lives (hs.home c p hp he) (.inr ⟨c, p, hp, he⟩)
    · exact hlives
  awake := by
    intro c p' r y hp' he hr hy
    rw [h.slot] at hr
    rw [(h.read r hr).1] at hy
    rcases h.seats c p' hp' he with ⟨p, hp, he⟩ | ⟨-, hnot⟩
    · exact hs.awake c p r y hp he hr hy
    · exact hnot r y hr hy
  purpose := by
    intro r y hr hy ha
    rw [h.slot] at hr
    rw [(h.read r hr).1] at hy
    rw [(h.read r hr).2, h.stance]
    exact hs.purpose r y hr hy ha
  stance := by
    rw [h.stance]
    exact h.suits hs.stance
  withheld := by
    intro hheld
    rw [h.withheld] at hheld
    obtain ⟨hslot, c, hp, hl⟩ := hs.withheld hheld
    exact ⟨h.slot.trans hslot, c, h.stays c _ hp (.inr ⟨rfl, hheld⟩), h.lives hl (.inl hheld)⟩

end Watch

end GreenThreads

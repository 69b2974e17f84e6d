import GreenThreads.Proofs.Floor.Steps

/-!
# The timers of a floor

A task knows a timeout of its own, or none, and a timeout that is kept back until its task has
switched out never resumes the task in any case. So whoever disarms a timeout takes a way to go on
from nobody.
-/

namespace GreenThreads.Engine

variable {V : Type} {e e' : Engine V} {t u : TaskId} {c owner : Nat} {q : TimerQueue}
  {r : TimeoutRef} {due due' : List TimeoutRef} {f : TimerQueue → TimerQueue}
  {p p' : TaskId → TimeoutAction → Prop}

/-- The timeout `r` exists, and its task and its action have a property. -/
def Has (e : Engine V) (r : TimeoutRef) (p : TaskId → TimeoutAction → Prop) : Prop :=
  ∃ y, e.timeout? r = some y ∧ p y.task y.action

/-- All timeouts of `e` are still those of `e'`, though some may be cancelled. -/
def Later (e e' : Engine V) : Prop := ∀ r p, e.Has r p → e'.Has r p

/-- The timers are in order; `due` has been taken out of them to be fired. -/
structure Timing (e : Engine V) (due : List TimeoutRef) : Prop where
  queues : ∀ o q, e.timersOf o = some q → q.owner = o ∧ q.Tidy
  slots : ∀ t x r, e.task? t = some x → x.timeout = some r → e.Has r fun u _ => u = t
  due : ∀ r ∈ due, e.Has r fun _ _ => True
  pending : ∀ (c : Nat) (x : Carrier), e.carriers[c]? = some x → ∀ k ∈ x.pendingPrecise,
    e.Has ⟨preciseOwner, k⟩ fun _ a => a ≠ .resume

/-- How many timeouts will resume a task, those among them that somebody is about to fire. -/
def alarms (e : Engine V) (due : List TimeoutRef) (t : TaskId) : Nat :=
  e.armed t + due.countP (e.resumes t)

theorem Later.refl (e : Engine V) : Later e e := fun _ _ h => h

theorem Later.of_timersOf (h : ∀ o, e'.timersOf o = e.timersOf o) : Later e e' := by
  rintro r p ⟨y, hy, hp⟩
  refine ⟨y, ?_, hp⟩
  rw [timeout?, h]
  exact hy

namespace Timing

theorem later (h : Timing e due) (hl : Later e e')
    (hq : ∀ o q, e'.timersOf o = some q → q.owner = o ∧ q.Tidy)
    (hs : ∀ t x r, e'.task? t = some x → x.timeout = some r →
      ∃ x, e.task? t = some x ∧ x.timeout = some r)
    (hp : ∀ (c : Nat) (x : Carrier) (k : Nat), e'.carriers[c]? = some x → k ∈ x.pendingPrecise →
      ∃ x, e.carriers[c]? = some x ∧ k ∈ x.pendingPrecise) : Timing e' due := by
  refine ⟨hq, ?_, ?_, ?_⟩
  · intro t x' r hx' hr
    obtain ⟨x, hx, hr⟩ := hs t x' r hx' hr
    exact hl _ _ (h.slots t x r hx hr)
  · intro r hr
    exact hl _ _ (h.due r hr)
  · intro c x' hx' k hk
    obtain ⟨x, hx, hk⟩ := hp c x' k hx' hk
    exact hl _ _ (h.pending c x hx k hk)

theorem sameTimers (h : Timing e due) (hsame : SameTimers e e') : Timing e' due := by
  have htimers := hsame.timersOf
  refine h.later (.of_timersOf htimers) ?_ ?_ ?_
  · intro o q ho
    rw [htimers] at ho
    exact h.queues o q ho
  · intro t x' r hx' hr
    obtain ⟨x, hx, heq⟩ := exists_of_map_eq hsame.slots hx'
    exact ⟨x, hx, heq ▸ hr⟩
  · intro c x' k hx' hk
    obtain ⟨x, hx, heq⟩ := exists_of_map_eq hsame.clocks hx'
    have hpending : x'.pendingPrecise = x.pendingPrecise := congrArg Prod.snd heq
    exact ⟨x, hx, hpending ▸ hk⟩

theorem sublist (h : Timing e due) (hd : ∀ r ∈ due', r ∈ due) : Timing e due' :=
  ⟨h.queues, h.slots, fun r hr => h.due r (hd r hr), h.pending⟩

theorem append (h : Timing e due) (hd : ∀ r ∈ due', e.Has r fun _ _ => True) :
    Timing e (due' ++ due) := by
  refine ⟨h.queues, h.slots, ?_, h.pending⟩
  intro r hr
  rcases List.mem_append.mp hr with hr | hr
  · exact hd r hr
  · exact h.due r hr

theorem forget {g : Task → Task} (h : Timing e due)
    (hg : ∀ x r, (g x).timeout = some r → x.timeout = some r) :
    Timing (e.updateTask t g) due := by
  refine h.later (.of_timersOf fun _ => rfl) h.queues ?_ fun _ x _ hx hk => ⟨x, hx, hk⟩
  intro u x' r hx' hr
  rw [task?_updateTask] at hx'
  split at hx'
  · obtain ⟨x, hx, rfl⟩ := Option.map_eq_some_iff.mp hx'
    exact ⟨x, hx, hg x r hr⟩
  · exact ⟨x', hx', hr⟩

theorem setSlot (h : Timing e due) (hr : e.Has r fun u _ => u = t) :
    Timing (e.updateTask t ({ · with timeout := some r })) due := by
  refine ⟨h.queues, ?_, h.due, h.pending⟩
  intro u x' s hx' hs
  rw [task?_updateTask] at hx'
  split at hx'
  · next hu =>
      obtain ⟨x, hx, rfl⟩ := Option.map_eq_some_iff.mp hx'
      cases hs
      exact hu ▸ hr
  · exact h.slots u x' s hx' hs

theorem setPending {g : Carrier → Carrier} (h : Timing e due)
    (hg : ∀ x, (g x).timers = x.timers)
    (hk : ∀ x, e.carriers[c]? = some x → ∀ k ∈ (g x).pendingPrecise,
      e.Has ⟨preciseOwner, k⟩ fun _ a => a ≠ .resume) :
    Timing (e.updateCarrier c g) due := by
  have htimers := timersOf_updateCarrier (e := e) (c := c) hg
  have hl : Later e (e.updateCarrier c g) := .of_timersOf htimers
  refine ⟨?_, ?_, ?_, ?_⟩
  · intro o q ho
    rw [htimers] at ho
    exact h.queues o q ho
  · intro t x r hx hr
    exact hl _ _ (h.slots t x r hx hr)
  · intro r hr
    exact hl _ _ (h.due r hr)
  · intro d x' hx' k hkx
    rw [getElem?_updateCarrier] at hx'
    split at hx'
    · next hd =>
        subst hd
        obtain ⟨x, hx, rfl⟩ := Option.map_eq_some_iff.mp hx'
        exact hl _ _ (hk x hx k hkx)
    · exact hl _ _ (h.pending d x' hx' k hkx)

end Timing

/-! ## One timer queue -/

theorem timeout?_updateTimers (h : e.timersOf owner = some q) (r : TimeoutRef) :
    (e.updateTimers owner f).timeout? r =
      if r.owner = owner then (f q).bare[r.number]? else e.timeout? r := by
  unfold timeout?
  rw [timersOf_updateTimers]
  split
  · next ho => rw [ho, h]; rfl
  · rfl

theorem resumes_updateTimers (h : e.timersOf owner = some q) (t : TaskId) (r : TimeoutRef) :
    (e.updateTimers owner f).resumes t r =
      if r.owner = owner then (f q).resumes t r.number else e.resumes t r := by
  unfold resumes
  rw [timersOf_updateTimers]
  split
  · next ho => rw [ho, h]; rfl
  · rfl

theorem resumes_of_timersOf (h : e.timersOf r.owner = some q) (t : TaskId) :
    e.resumes t r = q.resumes t r.number := by
  rw [resumes, h, Option.any_some]

theorem has_of_timersOf (h : e.timersOf r.owner = some q) :
    e.Has r p ↔ ∃ y, q.bare[r.number]? = some y ∧ p y.task y.action := by
  simp only [Has, timeout?, h, Option.bind_some]

theorem lt_size_of_has (h : e.timersOf r.owner = some q) (hr : e.Has r p) :
    r.number < q.timeouts.size := by
  obtain ⟨y, hy, -⟩ := (has_of_timersOf h).mp hr
  rw [← TimerQueue.size_bare]
  exact (Array.getElem?_eq_some_iff.mp hy).1

theorem Later.updateTimers (h : e.timersOf owner = some q)
    (hb : ∀ (k : Nat) (y : Timeout), q.bare[k]? = some y →
      ∃ y', (f q).bare[k]? = some y' ∧ y'.task = y.task ∧ y'.action = y.action) :
    Later e (e.updateTimers owner f) := by
  rintro r p ⟨y, hy, hp⟩
  unfold Has
  rw [timeout?_updateTimers h]
  split
  · next ho =>
      rw [timeout?, ho, h, Option.bind_some] at hy
      obtain ⟨y', hy', htask, haction⟩ := hb r.number y hy
      exact ⟨y', hy', by rw [htask, haction]; exact hp⟩
  · exact ⟨y, hy, hp⟩

theorem pending_updateTimers (e : Engine V) (owner : Nat) (f : TimerQueue → TimerQueue) :
    (e.updateTimers owner f).carriers.map (·.pendingPrecise) =
      e.carriers.map (·.pendingPrecise) := by
  unfold Engine.updateTimers
  split
  · rfl
  · exact map_updateCarrier fun _ => rfl

theorem Timing.updateTimers (h : Timing e due) (hq : e.timersOf owner = some q)
    (ho : (f q).owner = q.owner) (ht : (f q).Tidy)
    (hb : ∀ (k : Nat) (y : Timeout), q.bare[k]? = some y →
      ∃ y', (f q).bare[k]? = some y' ∧ y'.task = y.task ∧ y'.action = y.action) :
    Timing (e.updateTimers owner f) due := by
  refine h.later (.updateTimers hq hb) ?_ ?_ ?_
  · intro o q' hq'
    rw [timersOf_updateTimers] at hq'
    split at hq'
    · next heq =>
        subst heq
        rw [hq, Option.map_some] at hq'
        cases hq'
        exact ⟨ho.trans (h.queues o q hq).1, ht⟩
    · exact h.queues o q' hq'
  · intro t x r hx hr
    rw [task?, tasks_updateTimers] at hx
    exact ⟨x, hx, hr⟩
  · intro c x' k hx' hk
    obtain ⟨x, hx, heq⟩ := exists_of_map_eq (pending_updateTimers e owner f) hx'
    exact ⟨x, hx, heq ▸ hk⟩

/-! ## Alarms -/

theorem alarms_of_eq (harmed : e'.armed t = e.armed t)
    (hdue : ∀ r ∈ due, e'.resumes t r = e.resumes t r) : e'.alarms due t = e.alarms due t := by
  have hcount : due.countP (e'.resumes t) = due.countP (e.resumes t) := by
    apply List.countP_congr
    intro r hr
    rw [hdue r hr]
  rw [alarms, alarms, harmed, hcount]

theorem SameTimers.alarms (h : SameTimers e e') (due : List TimeoutRef) (t : TaskId) :
    e'.alarms due t = e.alarms due t :=
  alarms_of_eq (h.armed t) fun r _ => by rw [h.resumes]

theorem alarms_updateCarrier {g : Carrier → Carrier} (h : ∀ x, (g x).timers = x.timers)
    (due : List TimeoutRef) (t : TaskId) :
    (e.updateCarrier c g).alarms due t = e.alarms due t := by
  refine alarms_of_eq (armed_updateCarrier fun x => by rw [h]) ?_
  intro r _
  unfold resumes
  rw [timersOf_updateCarrier h]

theorem armed_le (h : e.timersOf owner = some q) (t : TaskId) : q.armed t ≤ e.armed t := by
  unfold armed
  by_cases howner : owner = preciseOwner
  · subst howner
    rw [timersOf_precise] at h
    cases h
    exact Nat.le_add_right _ _
  · rw [timersOf_carrier howner] at h
    obtain ⟨x, hx, rfl⟩ := Option.map_eq_some_iff.mp h
    have hle := le_total (f := fun c : Carrier => c.timers.armed t) hx
    exact Nat.le_trans hle (Nat.le_add_left _ _)

theorem alarms_erase (h : r ∈ due) (t : TaskId) :
    e.alarms (due.erase r) t + (e.resumes t r).toNat = e.alarms due t := by
  have hcount : (due.erase r).countP (e.resumes t) + (e.resumes t r).toNat =
      due.countP (e.resumes t) := by
    rw [(List.perm_cons_erase h).countP_eq, List.countP_cons]
    cases e.resumes t r <;> simp
  unfold alarms
  omega

theorem not_resumes_of_alarms (h0 : e.alarms due t = 0) (hr : r ∈ due) :
    e.resumes t r = false := by
  have hzero : due.countP (e.resumes t) = 0 := by
    unfold alarms at h0
    omega
  simpa using List.countP_eq_zero.mp hzero r hr

/-! ## Registration -/

theorem bare_register (q : TimerQueue) (k : Nat) :
    ((q.insert k).toOption.getD q).bare = q.bare := by
  rcases TimerQueue.insert_cases q k with h | h
  · rw [h]
  · rw [h.bare]; rfl

theorem owner_register (q : TimerQueue) (k : Nat) :
    ((q.insert k).toOption.getD q).owner = q.owner := by
  rcases TimerQueue.insert_cases q k with h | h
  · rw [h]
  · rw [h.owner]

theorem Timing.register (h : Timing e due) (hq : e.timersOf r.owner = some q) (hr : e.Has r p) :
    Timing (e.register r) due := by
  refine h.updateTimers hq (owner_register q r.number) ?_ ?_
  · exact (h.queues _ _ hq).2.register (lt_size_of_has hq hr)
  · intro k y hy
    exact ⟨y, by rw [bare_register]; exact hy, rfl, rfl⟩

theorem resumes_register (hq : e.timersOf r.owner = some q) (t : TaskId) :
    (e.register r).resumes t = e.resumes t := by
  funext s
  rw [Engine.register, resumes_updateTimers hq]
  split
  · next ho =>
      rw [← ho] at hq
      rw [resumes_of_timersOf hq, TimerQueue.resumes_of_bare (bare_register q r.number)]
  · rfl

theorem alarms_register_of_not (hq : e.timersOf r.owner = some q)
    (hr : e.Has r fun _ a => a ≠ .resume) (t : TaskId) :
    (e.register r).alarms due t = e.alarms due t := by
  obtain ⟨y, hy, haction⟩ := (has_of_timersOf hq).mp hr
  have hnot : q.resumes t r.number = false := by
    simp only [TimerQueue.resumes, hy, Option.any_some, haction, decide_false, Bool.and_false,
      Bool.false_and]
  have hsum := armed_updateTimers hq (fun q => (q.insert r.number).toOption.getD q) t
  rw [TimerQueue.armed_register_of_not hnot] at hsum
  refine alarms_of_eq ?_ fun s _ => by rw [resumes_register hq]
  unfold Engine.register
  omega

theorem alarms_register (hq : e.timersOf r.owner = some q) {y : Timeout}
    (hy : q.bare[r.number]? = some y) (ho : y.owner = q.owner) (t : TaskId) :
    (e.register r).alarms due t = e.alarms due t + (q.resumes t r.number).toNat := by
  have hsum := armed_updateTimers hq (fun q => (q.insert r.number).toOption.getD q) t
  have hadd := TimerQueue.armed_register_of_owner (t := t) hy ho
  have hdue : due.countP ((e.register r).resumes t) = due.countP (e.resumes t) := by
    rw [resumes_register hq]
  unfold alarms
  rw [hdue]
  unfold Engine.register
  omega

/-! ## Disarming -/

theorem Timing.cancel (h : Timing e due) (hq : e.timersOf r.owner = some q) (hr : e.Has r p)
    (byOwner : Bool) : Timing (e.updateTimers r.owner (·.cancel r.number byOwner)) due := by
  refine h.updateTimers hq (TimerQueue.owner_cancel q r.number byOwner) ?_ ?_
  · exact (h.queues _ _ hq).2.cancel r.number (lt_size_of_has hq hr) byOwner
  · intro k y hy
    rw [TimerQueue.bare_cancel, TimerQueue.getElem?_bare_mark]
    split
    · exact ⟨{ y with cancelled := true }, by rw [hy]; rfl, rfl, rfl⟩
    · exact ⟨y, hy, rfl, rfl⟩

/-- Whoever cancels a timeout of a task that no timeout will resume takes a way to go on from
nobody. -/
theorem alarms_cancel (hq : e.timersOf r.owner = some q) (hr : e.Has r fun u _ => u = t)
    (h0 : e.alarms due t = 0) (byOwner : Bool) (u : TaskId) :
    (e.updateTimers r.owner (·.cancel r.number byOwner)).alarms due u = e.alarms due u := by
  obtain ⟨y, hy, rfl⟩ := (has_of_timersOf hq).mp hr
  have hnone : q.armed y.task = 0 := by
    have hle := armed_le hq y.task
    unfold alarms at h0
    omega
  have hsum := armed_updateTimers hq (·.cancel r.number byOwner) u
  have hsame := TimerQueue.armed_cancel hy hnone byOwner u
  refine alarms_of_eq (by omega) ?_
  intro s hs
  rw [resumes_updateTimers hq]
  split
  · next ho =>
      rw [TimerQueue.resumes_cancel]
      rw [← ho] at hq
      rw [resumes_of_timersOf hq]
      by_cases hk : r.number = s.number
      · have hfalse : q.resumes u s.number = false := by
          by_cases hu : y.task = u
          · subst hu
            rw [← resumes_of_timersOf hq]
            exact not_resumes_of_alarms h0 hs
          · exact TimerQueue.not_resumes (hk ▸ hy) hu
        rw [hfalse, Bool.false_and]
      · simp only [hk, decide_false, Bool.not_false, Bool.and_true]
  · rfl

theorem sameTimers_count (e : Engine V) (n : Counter) : SameTimers e (e.count n) :=
  (frame_count e n).toSameTimers

theorem alarms_updateTask (e : Engine V) (t : TaskId) (g : Task → Task) (due : List TimeoutRef)
    (u : TaskId) : (e.updateTask t g).alarms due u = e.alarms due u := rfl

/-- What is left to do by whoever disarms the timeout of a task. -/
theorem withdraw_cases (e : Engine V) (t : TaskId) (due : List TimeoutRef) :
    e.withdraw t due = e ∨
      e.withdraw t due = e.updateTask t (fun x => x.takeTimeout.1) ∨
      ∃ x r byOwner, e.task? t = some x ∧ x.timeout = some r ∧
        e.withdraw t due = ((e.updateTask t fun x => x.takeTimeout.1).updateTimers r.owner
          (·.cancel r.number byOwner)).count .timersCancelled := by
  unfold withdraw
  split
  · exact .inl rfl
  · next x hx =>
      split
      · exact .inl rfl
      · next r hr =>
          simp only
          split
          · exact .inr (.inr ⟨x, r, _, hx, hr, rfl⟩)
          · exact .inr (.inl rfl)

theorem withdraw_spec (h : Timing e due) (h0 : e.alarms due t = 0) :
    Timing (e.withdraw t due) due ∧
      ∀ u, (e.withdraw t due).alarms due u = e.alarms due u := by
  have hforget : Timing (e.updateTask t fun x => x.takeTimeout.1) due :=
    h.forget fun x r hr => by cases hr
  rcases withdraw_cases e t due with heq | heq | ⟨x, r, byOwner, hx, hr, heq⟩
  · rw [heq]
    exact ⟨h, fun _ => rfl⟩
  · rw [heq]
    exact ⟨hforget, fun _ => rfl⟩
  · have hhas : e.Has r fun u _ => u = t := h.slots t x r hx hr
    obtain ⟨y, hy, -⟩ := id hhas
    obtain ⟨q, hq, -⟩ := Option.bind_eq_some_iff.mp hy
    have hcount := sameTimers_count ((e.updateTask t fun x => x.takeTimeout.1).updateTimers r.owner
      (·.cancel r.number byOwner)) .timersCancelled
    have hhas' : (e.updateTask t fun x => x.takeTimeout.1).Has r fun u _ => u = t := hhas
    rw [heq]
    refine ⟨(hforget.cancel hq hhas' byOwner).sameTimers hcount, ?_⟩
    intro u
    rw [hcount.alarms]
    exact alarms_cancel (e := e.updateTask t fun x => x.takeTimeout.1) hq hhas' h0 byOwner u

theorem timekeeping_withdraw (e : Engine V) (t : TaskId) (due : List TimeoutRef) :
    Timekeeping e (e.withdraw t due) := by
  have hforget : Timekeeping e (e.updateTask t fun x => x.takeTimeout.1) :=
    timekeeping_updateTask fun _ => rfl
  rcases withdraw_cases e t due with heq | heq | ⟨x, r, byOwner, -, -, heq⟩
  · rw [heq]
    exact .refl e
  · rw [heq]
    exact hforget
  · rw [heq]
    exact (hforget.trans (timekeeping_updateTimers _ _ _)).trans (frame_count _ _).toTimekeeping

/-! ## Polling -/

/-- A poll hands over the timeouts that it takes out. -/
theorem poll_spec (h : Timing e due) (hq : e.timersOf owner = some q) (now : Nanos) :
    let due' := ((q.poll now).2.map fun number => ({ owner, number } : TimeoutRef)) ++ due
    Timing (e.updateTimers owner fun _ => (q.poll now).1) due' ∧
      ∀ u, (e.updateTimers owner fun _ => (q.poll now).1).alarms due' u = e.alarms due u := by
  obtain ⟨-, -, -, -, howner, hbare, -⟩ := TimerQueue.poll_spec q now
  have htidy := (h.queues _ _ hq).2
  obtain ⟨htidy', hlt⟩ := htidy.poll now
  have hresumes : ∀ u, (e.updateTimers owner fun _ => (q.poll now).1).resumes u = e.resumes u := by
    intro u
    funext s
    rw [resumes_updateTimers hq]
    split
    · next ho =>
        rw [← ho] at hq
        rw [resumes_of_timersOf hq, TimerQueue.resumes_of_bare hbare]
    · rfl
  have hTiming : Timing (e.updateTimers owner fun _ => (q.poll now).1) due :=
    h.updateTimers hq howner htidy' fun k y hy => ⟨y, by rw [hbare]; exact hy, rfl, rfl⟩
  refine ⟨hTiming.append ?_, ?_⟩
  · intro r hr
    obtain ⟨k, hk, rfl⟩ := List.mem_map.mp hr
    have hlt := hlt k hk
    rw [← TimerQueue.size_bare, ← hbare] at hlt
    refine ⟨(q.poll now).1.bare[k], ?_, trivial⟩
    rw [timeout?_updateTimers hq, if_pos rfl, Array.getElem?_eq_getElem hlt]
  · intro u
    have hsum := armed_updateTimers hq (fun _ => (q.poll now).1) u
    have hpoll := TimerQueue.armed_poll htidy now u
    have hcount : ((q.poll now).2.map fun number => (⟨owner, number⟩ : TimeoutRef)).countP
        (e.resumes u) = (q.poll now).2.countP (q.resumes u) := by
      rw [List.countP_map]
      apply List.countP_congr
      intro k _
      have hk : e.resumes u ⟨owner, k⟩ = q.resumes u k := resumes_of_timersOf hq u
      simp only [Function.comp_apply, hk]
    unfold alarms
    rw [hresumes, List.countP_append, hcount]
    omega

/-! ## Arming -/

/-- A timeout is made in the queue `q` of `owner`, and its task knows it from now on. -/
def provide (e : Engine V) (owner : Nat) (q : TimerQueue) (y : Timeout) : Engine V :=
  ((e.count .timersArmed).updateTimers owner fun _ => (q.create y).1).updateTask y.task
    ({ · with timeout := some { owner, number := (q.create y).2 } })

theorem config_updateTimers (e : Engine V) (owner : Nat) (f : TimerQueue → TimerQueue) :
    (e.updateTimers owner f).config = e.config := by
  unfold Engine.updateTimers; split <;> rfl

theorem arm_eq {now deadline : Nanos} {a : TimeoutAction} {byTask : Bool}
    (ho : owner = if e.config.preciseTimer then preciseOwner else c)
    (hq : e.timersOf owner = some q) :
    e.arm now c t deadline a byTask =
      let y := Timeout.make t now deadline a owner
      if e.config.preciseTimer && isHeldBack a byTask then
        (e.provide owner q y).updateCarrier c fun x =>
          { x with pendingPrecise := x.pendingPrecise ++ [(q.create y).2] }
      else (e.provide owner q y).register { owner, number := (q.create y).2 } := by
  subst ho
  unfold arm provide
  simp only [hq]
  have hconfig := config_updateTimers (e.count .timersArmed)
    (if e.config.preciseTimer = true then preciseOwner else c) fun _ =>
      (q.create (Timeout.make t now deadline a
        (if e.config.preciseTimer = true then preciseOwner else c))).1
  have hcount : (e.count .timersArmed).config = e.config := rfl
  simp only [updateTask, hconfig, hcount]
  rfl

theorem timekeeping_provide (e : Engine V) (owner : Nat) (q : TimerQueue) (y : Timeout) :
    Timekeeping e (e.provide owner q y) :=
  ((frame_count _ _).toTimekeeping.trans (timekeeping_updateTimers _ _ _)).trans
    (timekeeping_updateTask fun _ => rfl)

theorem timersOf_provide (hq : e.timersOf owner = some q) (y : Timeout) :
    (e.provide owner q y).timersOf owner = some (q.create y).1 := by
  have h := timersOf_updateTimers (e.count .timersArmed) owner owner fun _ => (q.create y).1
  have hcount : (e.count .timersArmed).timersOf owner = some q := hq
  rw [if_pos rfl, hcount] at h
  exact h

theorem has_provide (hq : e.timersOf owner = some q) (y : Timeout) :
    (e.provide owner q y).Has { owner, number := (q.create y).2 } fun u a =>
      u = y.task ∧ a = y.action := by
  refine (has_of_timersOf (timersOf_provide hq y)).mpr ⟨{ y with slot := none }, ?_, rfl, rfl⟩
  exact TimerQueue.getElem?_bare_create_new q y

/-- A new timeout takes nothing from the others, and resumes nobody before it is registered. -/
theorem provide_spec (h : Timing e due) (hq : e.timersOf owner = some q) (y : Timeout) :
    Timing (e.provide owner q y) due ∧
      ∀ u, (e.provide owner q y).alarms due u = e.alarms due u := by
  have hcount := sameTimers_count e .timersArmed
  have hqc : (e.count .timersArmed).timersOf owner = some q := hq
  have htidy := (h.queues _ _ hq).2
  have hnew := has_provide hq y
  have hTiming : Timing ((e.count .timersArmed).updateTimers owner fun _ => (q.create y).1) due := by
    refine (h.sameTimers hcount).updateTimers hqc rfl (htidy.create y) ?_
    intro k z hz
    have hk : k < q.timeouts.size := by
      rw [← TimerQueue.size_bare]
      exact (Array.getElem?_eq_some_iff.mp hz).1
    exact ⟨z, by rw [TimerQueue.getElem?_bare_create y hk]; exact hz, rfl, rfl⟩
  refine ⟨hTiming.setSlot ?_, ?_⟩
  · obtain ⟨z, hz, hprop⟩ := hnew
    exact ⟨z, hz, hprop.1⟩
  · intro u
    have hsum := armed_updateTimers hqc (fun _ => (q.create y).1) u
    have hsame := TimerQueue.armed_create htidy y u
    have harmed : (e.count .timersArmed).armed u = e.armed u := hcount.armed u
    refine alarms_of_eq ?_ ?_
    · have hprovide : (e.provide owner q y).armed u =
          ((e.count .timersArmed).updateTimers owner fun _ => (q.create y).1).armed u := rfl
      omega
    · intro r hr
      have hres : (e.provide owner q y).resumes u r =
          ((e.count .timersArmed).updateTimers owner fun _ => (q.create y).1).resumes u r := rfl
      rw [hres, resumes_updateTimers hqc]
      split
      · next ho =>
          rw [← ho] at hq
          rw [TimerQueue.resumes_create y u (lt_size_of_has hq (h.due r hr)),
            resumes_of_timersOf hq]
      · rfl

theorem exists_timersOf (hc : c < e.carriers.size) :
    ∃ q, e.timersOf (if e.config.preciseTimer then preciseOwner else c) = some q := by
  split
  · exact ⟨e.precise, timersOf_precise e⟩
  · by_cases hp : c = preciseOwner
    · subst hp
      exact ⟨e.precise, timersOf_precise e⟩
    · rw [timersOf_carrier hp, Array.getElem?_eq_getElem hc]
      exact ⟨_, rfl⟩

section

variable {now deadline : Nanos} {a : TimeoutAction} {byTask : Bool}

theorem timekeeping_arm (hc : c < e.carriers.size) :
    Timekeeping e (e.arm now c t deadline a byTask) := by
  obtain ⟨q, hq⟩ := exists_timersOf (e := e) hc
  rw [arm_eq rfl hq]
  simp only
  split
  · exact (timekeeping_provide _ _ _ _).trans (timekeeping_updateCarrier fun _ => rfl)
  · exact (timekeeping_provide _ _ _ _).trans (timekeeping_updateTimers _ _ _)

/-- A timeout that acts on a parker is no way for its task to go on. -/
theorem arm_spec_of_not_resume (h : Timing e due) (hc : c < e.carriers.size) (ha : a ≠ .resume)
    (t : TaskId) (now deadline : Nanos) (byTask : Bool) :
    Timing (e.arm now c t deadline a byTask) due ∧
      ∀ u, (e.arm now c t deadline a byTask).alarms due u = e.alarms due u := by
  obtain ⟨q, hq⟩ := exists_timersOf (e := e) hc
  rw [arm_eq rfl hq]
  simp only
  generalize howner : (if e.config.preciseTimer = true then preciseOwner else c) = owner at hq ⊢
  obtain ⟨hTiming, halarms⟩ := provide_spec h hq (Timeout.make t now deadline a owner)
  have hq' := timersOf_provide hq (Timeout.make t now deadline a owner)
  have hnew := has_provide hq (Timeout.make t now deadline a owner)
  have hparker : (e.provide owner q (Timeout.make t now deadline a owner)).Has
      { owner, number := (q.create (Timeout.make t now deadline a owner)).2 }
      fun _ b => b ≠ .resume := by
    obtain ⟨z, hz, -, haction⟩ := hnew
    exact ⟨z, hz, by rw [haction]; exact ha⟩
  split
  · next hheld =>
      have hprecise : owner = preciseOwner := by
        rw [← howner, if_pos (Bool.and_eq_true_iff.mp hheld).1]
      subst hprecise
      refine ⟨hTiming.setPending (fun _ => rfl) ?_, ?_⟩
      · intro x hx k hk
        rcases List.mem_append.mp hk with hk | hk
        · exact hTiming.pending c x hx k hk
        · rw [List.mem_singleton.mp hk]
          exact hparker
      · intro u
        rw [← halarms u]
        apply alarms_updateCarrier
        intro x
        rfl
  · refine ⟨hTiming.register hq' hnew, ?_⟩
    intro u
    rw [alarms_register_of_not hq' hparker, halarms]

/-- A timeout that resumes its task is pending at once. -/
theorem arm_spec_of_resume (h : Timing e due) (hc : c < e.carriers.size) (t : TaskId)
    (now deadline : Nanos) :
    Timing (e.arm now c t deadline .resume false) due ∧
      ∀ u, (e.arm now c t deadline .resume false).alarms due u =
        e.alarms due u + tally (some t) u := by
  obtain ⟨q, hq⟩ := exists_timersOf (e := e) hc
  rw [arm_eq rfl hq]
  simp only [isHeldBack, Bool.false_and, Bool.and_false, Bool.false_eq_true, ↓reduceIte]
  generalize (if e.config.preciseTimer = true then preciseOwner else c) = owner at hq ⊢
  obtain ⟨hTiming, halarms⟩ := provide_spec h hq (Timeout.make t now deadline .resume owner)
  have hq' := timersOf_provide hq (Timeout.make t now deadline .resume owner)
  have hnew : (q.create (Timeout.make t now deadline .resume owner)).1.bare[
      (q.create (Timeout.make t now deadline .resume owner)).2]? =
        some (Timeout.make t now deadline .resume owner) :=
    TimerQueue.getElem?_bare_create_new q _
  refine ⟨hTiming.register hq' (has_provide hq _), ?_⟩
  intro u
  have hresumes : (q.create (Timeout.make t now deadline .resume owner)).1.resumes u
      (q.create (Timeout.make t now deadline .resume owner)).2 = decide (t = u) := by
    rw [TimerQueue.resumes, hnew]
    simp only [Option.any_some, Timeout.make, Bool.not_false, decide_true, Bool.true_and]
  have howner := (h.queues _ _ hq).1
  rw [alarms_register hq' hnew howner.symm, halarms, hresumes]
  simp only [tally, Option.some.injEq]

end

end GreenThreads.Engine

import GreenThreads.Proofs.Floor.Sound

/-!
# Steps that change the timers at most

Here are the steps that move a right between a timer and those who have it in hand, and the steps
that move none.
-/

namespace GreenThreads.Floor

variable {V : Type} {f : Floor V} {c : Nat} {t : TaskId} {p : Phase} {a : Axis}
  {e : Engine V} {now deadline : Nanos}

/-! ## Steps without timers -/

theorem Sound.other (h : Sound f) (hf : f.engine.Frame e) : Sound { f with engine := e } := by
  refine h.keep_phases hf.toTimekeeping rfl ?_ (h.timing.sameTimers hf.toSameTimers)
  intro u
  rw [hf.toSameTimers.alarms]

theorem Sound.abandon (h : Sound f) {s : Submission}
    (hp : f.phases[c]? = some (.holding (.start s))) : Sound (f.move c .looking f.engine) := by
  refine h.keep_move (.refl f.engine) hp rfl rfl rfl rfl (fun _ => rfl) ?_ (fun _ => rfl) h.timing
  intro x hx _
  exact (h.placed c _ x hp hx).2 rfl

theorem Sound.giveUp (h : Sound f) (hp : f.phases[c]? = some (.resuming t)) :
    Sound { f.move c .looking f.engine with freed := t :: f.freed } := by
  refine h.keep_move (.refl f.engine) hp rfl rfl rfl rfl (fun _ => rfl) ?_ ?_ h.timing
  · intro x hx _
    exact (h.placed c _ x hp hx).2 rfl
  · intro u
    simp only [count_task_cons, Phase.right, tally_none, move]
    omega

theorem Sound.settle (h : Sound f) {x : Carrier} (hp : f.phases[c]? = some .settling)
    (hx : f.engine.carriers[c]? = some x) (hdeferred : x.deferred = none) :
    Sound (f.move c .looking f.engine) := by
  refine h.keep_move (.refl f.engine) hp rfl rfl rfl rfl (fun _ => rfl) ?_ (fun _ => rfl) h.timing
  intro y hy _
  rw [hx] at hy
  cases hy
  exact hdeferred

theorem updateTask_eq_put {g : Task → Task} {x : Task} (hx : e.task? t = some x) :
    e.updateTask t g = e.updateTask t fun _ => g x := by
  have htasks : e.tasks.modify t.index g = e.tasks.modify t.index fun _ => g x := by
    apply Array.ext_getElem?
    intro i
    simp only [Array.getElem?_modify]
    split
    · next hi =>
        subst hi
        have hx : e.tasks[t.index]? = some x := hx
        simp only [hx, Option.map_some]
    · rfl
  simp only [Engine.updateTask, htasks]

theorem core_setParker {x : Task} {q : Parker} (hq : q.demand = (x.parker a).demand) :
    (x.setParker a q).core = x.core ∧ (x.setParker a q).timeout = x.timeout := by
  cases a with
  | user => exact ⟨by simp only [Task.setParker, Task.core, hq, Task.parker], rfl⟩
  | internal => exact ⟨by simp only [Task.setParker, Task.core, hq, Task.parker], rfl⟩

/-- Permits come and go without any consequence for the hand-over. -/
theorem frame_setParker {g : Task → Parker} {x : Task} (hx : e.task? t = some x)
    (hq : (g x).demand = (x.parker a).demand) :
    e.Frame (e.updateTask t fun x => x.setParker a (g x)) := by
  rw [updateTask_eq_put hx]
  obtain ⟨hcore, htimeout⟩ := core_setParker hq
  exact Engine.frame_put hx hcore htimeout

theorem Sound.permit (h : Sound f) {x : Task} {native : Bool} {q : Parker}
    (hx : f.engine.task? t = some x) (hq : (x.parker a).begin native = .ok (q, false)) :
    Sound { f with engine := f.engine.updateTask t (·.setParker a q) } := by
  refine h.other (frame_setParker (g := fun _ => q) hx ?_)
  cases hpark : x.parker a with
  | permitted => rw [hpark] at hq; cases hq; rfl
  | free => rw [hpark] at hq; cases hq
  | waiting => rw [hpark] at hq; cases hq
  | waitingNative => rw [hpark] at hq; cases hq

theorem Sound.endPark (h : Sound f) (hp : f.phases[c]? = some (.working t)) (a : Axis) :
    Sound { f with engine := f.engine.updateTask t fun x => x.setParker a (x.parker a).finish } := by
  obtain ⟨x, hx, -⟩ := h.alive hp rfl
  refine h.other (frame_setParker (g := fun x => (x.parker a).finish) hx ?_)
  have hwaiting := h.not_waiting hp rfl hx a
  have hnative := h.not_native hp rfl hx (a := a) rfl
  cases hpark : x.parker a with
  | free => rfl
  | permitted => rfl
  | waiting => exact absurd hpark hwaiting
  | waitingNative => exact absurd hpark hnative

/-! ## Arming and disarming -/

theorem Sound.throttle (h : Sound f) (hp : f.phases[c]? = some (.resuming t)) :
    Sound (f.move c .looking (f.engine.arm now c t deadline .resume false)) := by
  obtain ⟨htiming, halarms⟩ := Engine.arm_spec_of_resume h.timing (h.lt_size hp) t now deadline
  refine h.keep_move (Engine.timekeeping_arm (h.lt_size hp)) hp rfl rfl rfl rfl (fun _ => rfl) ?_
    ?_ htiming
  · intro x hx _
    exact (h.placed c _ x hp hx).2 rfl
  · intro u
    have hu := halarms u
    simp only [Phase.right, tally_none, move]
    omega

theorem Sound.arm (h : Sound f) (hp : f.phases[c]? = some p) {action : TimeoutAction}
    (ha : action ≠ .resume) {byTask : Bool} :
    Sound { f with engine := f.engine.arm now c t deadline action byTask } := by
  obtain ⟨htiming, halarms⟩ :=
    Engine.arm_spec_of_not_resume h.timing (h.lt_size hp) ha t now deadline byTask
  refine h.keep_phases (Engine.timekeeping_arm (h.lt_size hp)) rfl ?_ htiming
  intro u
  rw [halarms]

theorem Sound.disarm (h : Sound f) (hp : f.phases[c]? = some p) (hr : p.right = some t) :
    Sound { f with engine := f.engine.withdraw t f.due } := by
  obtain ⟨htiming, halarms⟩ := Engine.withdraw_spec h.timing (h.alarms_eq_zero hp hr)
  refine h.keep_phases (Engine.timekeeping_withdraw f.engine t f.due) rfl ?_ htiming
  intro u
  rw [halarms]

theorem Sound.register (h : Sound f) {k : Nat} {x : Carrier} {ks : List Nat}
    (hx : f.engine.carriers[c]? = some x) (hk : x.pendingPrecise = k :: ks) :
    Sound { f with
      engine := (f.engine.updateCarrier c ({ · with pendingPrecise := ks })).register
        ⟨Engine.preciseOwner, k⟩ } := by
  have hhas : f.engine.Has ⟨Engine.preciseOwner, k⟩ fun _ b => b ≠ .resume :=
    h.timing.pending c x hx k (by rw [hk]; exact List.mem_cons_self)
  have hpending : (f.engine.updateCarrier c ({ · with pendingPrecise := ks })).Timing f.due := by
    refine h.timing.setPending (fun _ => rfl) ?_
    intro y hy j hj
    rw [hx] at hy
    cases hy
    exact h.timing.pending c x hx j (by rw [hk]; exact List.mem_cons_of_mem k hj)
  have hhas' : (f.engine.updateCarrier c ({ · with pendingPrecise := ks })).Has
      ⟨Engine.preciseOwner, k⟩ fun _ b => b ≠ .resume := hhas
  have hq := Engine.timersOf_precise (f.engine.updateCarrier c ({ · with pendingPrecise := ks }))
  have hkept : f.engine.Timekeeping (f.engine.updateCarrier c ({ · with pendingPrecise := ks })) :=
    Engine.timekeeping_updateCarrier fun _ => rfl
  refine h.keep_phases (hkept.trans (Engine.timekeeping_updateTimers _ Engine.preciseOwner _)) rfl
    ?_ (hpending.register (r := ⟨Engine.preciseOwner, k⟩) hq hhas')
  · intro u
    have hsame : (f.engine.updateCarrier c ({ · with pendingPrecise := ks })).alarms f.due u =
        f.engine.alarms f.due u := by
      apply Engine.alarms_updateCarrier
      intro y
      rfl
    rw [Engine.alarms_register_of_not (r := ⟨Engine.preciseOwner, k⟩) hq hhas', hsame]

/-! ## Firing -/

theorem Sound.poll (h : Sound f) {owner : Nat} {q : TimerQueue}
    (hq : f.engine.timersOf owner = some q) :
    Sound { f with
      engine := f.engine.updateTimers owner fun _ => (q.poll now).1
      due := ((q.poll now).2.map fun number => { owner, number }) ++ f.due } := by
  obtain ⟨htiming, halarms⟩ := Engine.poll_spec h.timing hq now
  have hkept : f.engine.Timekeeping (f.engine.updateTimers owner fun _ => (q.poll now).1) :=
    Engine.timekeeping_updateTimers _ _ _
  refine h.keep_phases hkept rfl ?_ htiming
  intro u
  rw [halarms]

theorem resumes_eq {r : TimeoutRef} {y : Timeout} (hy : e.timeout? r = some y) (u : TaskId) :
    e.resumes u r = (!y.cancelled && decide (y.action = .resume) && decide (y.task = u)) := by
  obtain ⟨q, hq, hbare⟩ := Option.bind_eq_some_iff.mp hy
  rw [Engine.resumes_of_timersOf hq, TimerQueue.resumes, hbare, Option.any_some]

theorem Sound.lapse (h : Sound f) {r : TimeoutRef} {y : Timeout} (hr : r ∈ f.due)
    (hy : f.engine.timeout? r = some y) (hc : y.cancelled = true) :
    Sound { f with due := f.due.erase r } := by
  refine h.keep_phases (.refl f.engine) rfl ?_ (h.timing.sublist fun s => List.mem_of_mem_erase)
  intro u
  have hsum := Engine.alarms_erase (e := f.engine) hr u
  rw [resumes_eq hy, hc] at hsum
  simp only [Bool.not_true, Bool.false_and, Bool.toNat_false] at hsum
  dsimp only
  omega

/-- Whoever fires a timeout that resumes its task has to wake this task from now on. -/
theorem Sound.fire (h : Sound f) {r : TimeoutRef} {y : Timeout} (hr : r ∈ f.due)
    (hy : f.engine.timeout? r = some y) (hc : y.cancelled = false) :
    Sound { f with
      engine := (f.engine.count .timersFired).updateTask y.task (·.clearTimeoutIf r)
      freed := if y.action = .resume then y.task :: f.freed else f.freed
      due := f.due.erase r } := by
  have hclear : ∀ x : Task, (x.clearTimeoutIf r).core = x.core := by
    intro x
    unfold Task.clearTimeoutIf
    split <;> rfl
  have htimekeeping := (Engine.frame_count f.engine .timersFired).toTimekeeping
  have htiming := h.timing.sameTimers (Engine.sameTimers_count f.engine .timersFired)
  refine h.keep_phases (htimekeeping.trans (Engine.timekeeping_updateTask hclear)) rfl ?_ ?_
  · intro u
    have hsum := Engine.alarms_erase (e := f.engine) hr u
    have hsame : ((f.engine.count .timersFired).updateTask y.task (·.clearTimeoutIf r)).alarms
        (f.due.erase r) u = f.engine.alarms (f.due.erase r) u := rfl
    rw [resumes_eq hy, hc] at hsum
    simp only [hsame]
    split
    · next hresume =>
        simp only [hresume, Bool.not_false, decide_true, Bool.true_and] at hsum
        simp only [count_task_cons, tally, Option.some.injEq]
        omega
    · next hother =>
        simp only [hother, decide_false, Bool.and_false, Bool.false_and, Bool.toNat_false] at hsum
        omega
  · refine (htiming.sublist fun s => List.mem_of_mem_erase).forget ?_
    intro x s hs
    unfold Task.clearTimeoutIf at hs
    split at hs
    · cases hs
    · exact hs

end GreenThreads.Floor

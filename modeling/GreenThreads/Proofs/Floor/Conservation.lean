import GreenThreads.Proofs.Floor.Work

/-!
# No task is lost and none is run twice

Every step keeps the right of each task in exactly one place, and an engine that starts has no task.
So a task that has work is current on one carrier at most, and has exactly one way to go on if it is
current on none.
-/

namespace GreenThreads.Floor

variable {V : Type} {f f' : Floor V} {t : TaskId}

/-! ## The start -/

/-- An engine that starts has carriers and nothing else. -/
structure Fresh (e : Engine V) : Prop where
  tasks : e.tasks = #[]
  shared : e.shared = []
  pool : e.pool.items = []
  precise : e.precise = { owner := Engine.preciseOwner }
  faults : e.faults = []
  carriers : ∀ (i : Nat) (x : Carrier), e.carriers[i]? = some x → ∃ n, x = Carrier.make i n

theorem fresh_start {config : Config} {processors : Nat} {groups : List ControlGroup}
    {pump : EventPump} {e : Engine V} (h : Engine.start config processors groups pump = .ok e) :
    Fresh e := by
  unfold Engine.start at h
  cases hv : config.validate with
  | error err => rw [hv] at h; cases h
  | ok u =>
      rw [hv] at h
      cases h
      refine ⟨rfl, rfl, rfl, rfl, rfl, ?_⟩
      intro i x hx
      obtain ⟨hlt, heq⟩ := Array.getElem?_eq_some_iff.mp hx
      rw [Array.getElem_ofFn] at heq
      exact ⟨config.carrierCache, heq.symm⟩

theorem Fresh.total_eq_zero {e : Engine V} (h : Fresh e) {n : Carrier → Nat}
    (hn : ∀ i k, n (Carrier.make i k) = 0) : total n e.carriers = 0 := by
  apply GreenThreads.total_eq_zero
  intro x hx
  obtain ⟨i, hi⟩ := Array.mem_iff_getElem?.mp hx
  obtain ⟨k, rfl⟩ := h.carriers i x hi
  exact hn i k

theorem Fresh.timing {e : Engine V} (h : Fresh e) : e.Timing [] := by
  refine ⟨?_, ?_, fun r hr => absurd hr List.not_mem_nil, ?_⟩
  · intro o q hq
    have hempty : (({ owner := o } : TimerQueue)).Tidy :=
      ⟨fun k hk => by cases hk; contradiction, fun k hk => by cases hk⟩
    by_cases ho : o = Engine.preciseOwner
    · subst ho
      rw [Engine.timersOf_precise, h.precise] at hq
      cases hq
      exact ⟨rfl, hempty⟩
    · rw [Engine.timersOf_carrier ho] at hq
      obtain ⟨x, hx, rfl⟩ := Option.map_eq_some_iff.mp hq
      obtain ⟨k, rfl⟩ := h.carriers o x hx
      exact ⟨rfl, hempty⟩
  · intro t x r hx
    rw [Engine.task?, h.tasks] at hx
    cases hx
  · intro c x hx k hk
    obtain ⟨n, rfl⟩ := h.carriers c x hx
    cases hk

theorem Fresh.sound {e : Engine V} (h : Fresh e) : Sound (quiet e) := by
  have htask : ∀ u : TaskId, e.task? u = none := by
    intro u
    rw [Engine.task?, h.tasks]
    rfl
  have hflag : ∀ u p, e.flag u p = 0 := by
    intro u p
    rw [Engine.flag, htask]
    rfl
  have hphased : ∀ k : Phase → Option TaskId, k .looking = none →
      ∀ u, (quiet e).phased k u = 0 := by
    intro k hk u
    apply GreenThreads.total_eq_zero
    intro p hp
    rw [(Array.mem_replicate.mp hp).2, hk, tally_none]
  have hqueued : ∀ u, e.queued u = 0 := by
    intro u
    rw [Engine.queued, h.total_eq_zero fun _ _ => rfl, h.shared]
    rfl
  refine ⟨Array.size_replicate, ⟨?_, ?_, ?_⟩, ?_, ?_, ?_, ?_, ?_, ?_, h.timing, ?_⟩
  · intro u x hx
    rw [quiet, htask] at hx
    cases hx
  · intro u x hx
    rw [quiet, htask] at hx
    cases hx
  · intro u x hx
    rw [quiet, htask] at hx
    cases hx
  · intro c p x hp hx
    obtain rfl : p = .looking := (Array.mem_replicate.mp (Array.mem_of_getElem? hp)).2
    obtain ⟨n, rfl⟩ := h.carriers c x hx
    exact ⟨rfl, fun _ => rfl⟩
  · intro u
    have hdeferrals : e.deferrals u = 0 := h.total_eq_zero fun _ _ => rfl
    have harmed : e.armed u = 0 := by
      rw [Engine.armed, h.precise, h.total_eq_zero fun _ _ => rfl]
      rfl
    have hwaiting : e.waiting u = 0 := by rw [Engine.waiting, hflag, hflag]
    have hright := hphased Phase.right rfl u
    simp only [quiet] at hright
    simp only [lying, quiet, Engine.alarms, hqueued, hdeferrals, harmed, hwaiting, hflag, hright,
      List.countP_nil, List.count_nil]
  · intro u
    have hseated : e.seated u = 0 := h.total_eq_zero fun _ _ => rfl
    exact hseated.trans (hflag u _).symm
  · intro u
    rw [hphased Phase.popped rfl]
    exact (hqueued u).trans (hflag u _).symm
  · intro u
    have hpooled : e.pooled u = 0 := by
      rw [Engine.pooled, h.total_eq_zero fun _ _ => rfl, h.pool]
      rfl
    rw [hphased Phase.readied rfl]
    exact Nat.le_of_eq (hpooled.trans (hflag u _).symm)
  · intro u a
    have hzero : (quiet e).engine.flag u (·.parker a == .waitingNative) = 0 := hflag u _
    rw [hzero]
    exact Nat.zero_le _
  · intro x hx
    have hnone : (quiet e).engine.faults = [] := h.faults
    rw [hnone] at hx
    cases hx

/-! ## Every step -/

/-- The running task waits nowhere, so it may begin to wait. -/
theorem Sound.begin_ne_error (h : Sound f) {c : Nat} {x : Task} {a : Axis} {native : Bool}
    {y : Fault} (hp : f.phases[c]? = some (.working t)) (hx : f.engine.task? t = some x) :
    (x.parker a).begin native ≠ .error y := by
  have hwaiting := h.not_waiting hp rfl hx a
  have hnative := h.not_native hp rfl hx (a := a) rfl
  cases hpark : x.parker a with
  | free => intro hbegin; cases hbegin
  | permitted => intro hbegin; cases hbegin
  | waiting => exact absurd hpark hwaiting
  | waitingNative => exact absurd hpark hnative

theorem Sound.step (h : Sound f) (s : Step f f') : Sound f' := by
  cases s with
  | other hf => exact h.other hf
  | take hp ht => exact h.take hp ht
  | abandon hp => exact h.abandon hp
  | obtainPooled hp ht => exact h.obtainPooled hp ht
  | obtainFresh hp => exact h.obtainFresh hp
  | assign hp => exact h.assign hp
  | unmark hp => exact h.unmark hp
  | refuse hp hx hover =>
      obtain ⟨y, hy, halive⟩ := h.alive hp rfl
      rw [hx] at hy
      cases hy
      exact absurd halive hover
  | steal hp hx hforeign hs => exact h.steal hp hs
  | giveUp hp => exact h.giveUp hp
  | throttle now deadline hp => exact h.throttle hp
  | switchIn now hp hx hown hfree => exact h.switchIn hp hx hfree
  | park hp hx hq => exact h.park hp hx hq
  | block hp hx hq => exact h.block hp hx hq
  | permit hp hx hq => exact h.permit hx hq
  | refusePark hp hx hq => exact absurd hq (h.begin_ne_error hp hx)
  | endPark a hp => exact h.endPark hp a
  | unblock hp => exact h.unblock hp
  | arm now deadline hp => exact h.arm hp TimeoutAction.noConfusion
  | armBlocked now deadline hp => exact h.arm hp TimeoutAction.noConfusion
  | disarm hp hbusy =>
      rcases hbusy with rfl | rfl | ⟨a, rfl⟩
      · exact h.disarm hp rfl
      · exact h.disarm hp rfl
      · exact h.disarm hp rfl
  | yield hp => exact h.yield hp
  | retire hp => exact h.retire hp
  | leave hp => exact h.leave hp
  | register hp hx hk => exact h.register hx hk
  | undefer hp hx hd => exact h.undefer hp hx hd
  | settle hp hx hk hd => exact h.settle hp hx hd
  | release a hx => exact h.release hx a
  | wake now ht => exact h.wake ht
  | poll now hq => exact h.poll hq
  | lapse hr hy hc => exact h.lapse hr hy hc
  | fire hr hy hc => exact h.fire hr hy hc
  | scrap ht => exact h.scrap ht

theorem Reached.sound (h : Reached f) : Sound f := by
  induction h with
  | start h => exact (fresh_start h).sound
  | step h s ih => exact ih.step s

/-! ## Ways to go on -/

/-- How many ways there are for a task to go on that does not: entries of run queues, entries that a
carrier has taken, wakes that somebody has yet to do, slots of carriers, timeouts that resume it,
and axes on which it waits. -/
def ways (f : Floor V) (t : TaskId) : Nat :=
  f.engine.queued t + f.phased Phase.held t + f.freed.count t + f.engine.deferrals t +
    f.engine.alarms f.due t + f.engine.waiting t

theorem phased_right (f : Floor V) (t : TaskId) :
    f.phased Phase.right t = f.phased Phase.held t + f.phased Phase.works t := by
  unfold phased total
  induction f.phases.toList with
  | nil => rfl
  | cons p l ih =>
      have hp : tally (Phase.right p) t = tally (Phase.held p) t + tally (Phase.works p) t := by
        cases p <;> simp [Phase.right, Phase.held, Phase.works]
      simp only [List.map_cons, List.sum_cons]
      omega

theorem Sound.phased_seat (h : Sound f) (t : TaskId) :
    f.phased Phase.seat t = f.engine.seated t := by
  have hseat : f.phases.map Phase.seat = f.engine.carriers.map (·.current) := by
    apply Array.ext_getElem?
    intro c
    rw [Array.getElem?_map, Array.getElem?_map]
    by_cases hc : c < f.phases.size
    · have hc' : c < f.engine.carriers.size := h.size ▸ hc
      have hp := Array.getElem?_eq_getElem hc
      have hx := Array.getElem?_eq_getElem hc'
      rw [hp, hx, Option.map_some, Option.map_some, (h.placed c _ _ hp hx).1]
    · have hc' : ¬ c < f.engine.carriers.size := h.size ▸ hc
      rw [Array.getElem?_eq_none (Nat.not_lt.mp hc), Array.getElem?_eq_none (Nat.not_lt.mp hc')]
      rfl
  have hphases : f.phased Phase.seat t = total (fun o => tally o t) (f.phases.map Phase.seat) := by
    simp only [phased, total, Array.toList_map, List.map_map]
    rfl
  have hcarriers : f.engine.seated t =
      total (fun o => tally o t) (f.engine.carriers.map (·.current)) := by
    simp only [Engine.seated, total, Array.toList_map, List.map_map]
    rfl
  rw [hphases, hcarriers, hseat]

theorem Sound.works_le_seated (h : Sound f) (t : TaskId) :
    f.phased Phase.works t ≤ f.engine.seated t := by
  rw [← h.phased_seat]
  refine total_le_total ?_ f.phases
  intro p
  cases p <;> simp [Phase.works, Phase.seat]

/-- An engine is reached by any steps of any number of carriers and of others, in any order. Then a
task that has work is current on one carrier at most; if it is current on none, there is exactly one
way for it to go on, and else there is one at most. Every entry that lets a task go on names a task
that has work, and no fault was met that concerns the hand-over of tasks; so no carrier was told to
resume a task without work. -/
theorem Reached.task_kept (h : Reached f) :
    (∀ t x, f.engine.task? t = some x → x.status = .alive →
      f.engine.seated t ≤ 1 ∧ (f.engine.seated t = 0 → f.ways t = 1) ∧
        (f.engine.seated t = 1 → f.ways t ≤ 1)) ∧
    (∀ t, 0 < f.engine.queued t + f.phased Phase.held t →
      ∃ x, f.engine.task? t = some x ∧ x.status = .alive) ∧
    (∀ x ∈ f.engine.faults, x = .negateOverflow ∨ x = .unbalancedCritical) ∧
    ∀ t, .resumeNotAlive t ∉ f.engine.faults := by
  have hs := h.sound
  have hlaw : ∀ t, f.ways t + f.phased Phase.works t = f.engine.flag t (·.status == .alive) := by
    intro t
    have hlaw := hs.law t
    rw [lying, phased_right] at hlaw
    unfold ways
    omega
  refine ⟨?_, ?_, ?_, ?_⟩
  · intro t x hx halive
    have hone := hlaw t
    rw [Engine.flag_eq_one hx (by rw [halive]; rfl)] at hone
    have hlocked := hs.locked t
    have hle := f.engine.flag_le_one t (·.locked)
    have hworks := hs.works_le_seated t
    refine ⟨by omega, ?_, ?_⟩
    · intro hseated
      omega
    · intro hseated
      omega
  · intro t hpos
    have hone := hlaw t
    unfold ways at hone
    have halive : 0 < f.engine.flag t (·.status == .alive) := by omega
    obtain ⟨x, hx, hstatus⟩ := Engine.exists_of_flag_pos halive
    exact ⟨x, hx, by simpa using hstatus⟩
  · exact fun x hx => Fault.eq_of_isLocal (hs.faults x hx)
  · intro t ht
    have hlocal := hs.faults _ ht
    cases hlocal

/-- The task is still current on the carrier that it is about to give away, while another carrier,
which took its entry, is about to switch to it. -/
theorem task_kept_while_leaving : ∃ f : Floor Unit, Reached f ∧
    f.phases[0]? = some (.leaving ⟨0⟩ (some .user)) ∧ f.phases[1]? = some (.resuming ⟨0⟩) ∧
    f.engine.seated ⟨0⟩ = 1 ∧ f.ways ⟨0⟩ = 1 := by
  have h0 := Reached.start (V := Unit)
    (show Engine.start { workers := 2 } 1 [] .absent = .ok _ from rfl)
  have h1 := h0.step (.other (Engine.frame_updateCarrier (c := 0)
    (g := (·.enqueue (.start ⟨0, "", none⟩)))
    (fun x => by simp [Carrier.core, Carrier.enqueue, Runnable.isResume]) fun _ => rfl))
  have h2 := h1.step (.take (c := 0) rfl (.own rfl))
  have h3 := h2.step (.obtainFresh (c := 0) (s := ⟨0, "", none⟩) rfl)
  have h4 := h3.step (.assign (c := 0) rfl)
  have h5 := h4.step (.switchIn 5 (c := 0) rfl rfl rfl rfl)
  have h6 := h5.step (.park (c := 0) (a := .user) rfl rfl rfl)
  have h7 := h6.step (.release (t := ⟨0⟩) .user rfl)
  have h8 := h7.step (.wake 6 (t := ⟨0⟩) (by decide))
  have h9 := h8.step (.take (c := 1) rfl (.stolen (i := 0) rfl rfl rfl))
  have h10 := h9.step (.unmark (c := 1) (t := ⟨0⟩) rfl)
  obtain ⟨hkept, -, -, -⟩ := h10.task_kept
  obtain ⟨-, -, hways⟩ := hkept ⟨0⟩ _ rfl rfl
  exact ⟨_, h10, rfl, rfl, rfl, Nat.le_antisymm (hways rfl) (by decide)⟩

end GreenThreads.Floor

import GreenThreads.Proofs.Floor.Anytime
import GreenThreads.Proofs.Watch.Timeouts

/-!
# What becomes of timeouts

Each operation on the timers of an engine keeps the accounts of its timeouts: a timeout that was
kept back becomes pending, a poll takes out what is due, and a timeout is armed, cancelled or fired.
-/

namespace GreenThreads.Engine

variable {V : Type} {e : Engine V} {t u : TaskId} {c k owner : Nat} {q : TimerQueue}
  {r s : TimeoutRef} {y : Timeout} {due fired : List TimeoutRef} {x : Carrier} {ks : List Nat}

/-! ## Pending timeouts -/

theorem timeout?_of_has {p : TaskId → TimeoutAction → Prop} (h : e.Has r p) :
    ∃ q y, e.timersOf r.owner = some q ∧ q.bare[r.number]? = some y ∧ e.timeout? r = some y := by
  obtain ⟨y, hy, -⟩ := h
  obtain ⟨q, hq, hb⟩ := Option.bind_eq_some_iff.mp hy
  exact ⟨q, y, hq, hb, hy⟩

theorem timeout?_register (hq : e.timersOf r.owner = some q) (s : TimeoutRef) :
    (e.register r).timeout? s = e.timeout? s := by
  rw [Engine.register, timeout?_updateTimers hq, bare_register]
  split
  · next ho => rw [timeout?, ho, hq, Option.bind_some]
  · rfl

theorem slot_register (e : Engine V) (r : TimeoutRef) (t : TaskId) :
    (e.register r).slot t = e.slot t := slot_updateTimers _ _ _ t

theorem reckoning_register (e : Engine V) (r : TimeoutRef) :
    (e.register r).reckoning = e.reckoning := by
  unfold reckoning Engine.register
  rw [stats_updateTimers]

theorem Kept.register (h : Kept e due fired) (ht : e.Timing due) (hx : e.carriers[c]? = some x)
    (hk : x.pendingPrecise = k :: ks) :
    let e' := (e.updateCarrier c ({ · with pendingPrecise := ks })).register ⟨preciseOwner, k⟩
    Kept e' due fired ∧ (∀ r, e'.timeout? r = e.timeout? r) ∧ ∀ t, e'.slot t = e.slot t := by
  have hhas := ht.pending c x hx k (by rw [hk]; exact List.mem_cons_self)
  obtain ⟨q, y, hq, hb, hy⟩ := timeout?_of_has hhas
  have ho : y.owner = q.owner := by rw [h.owner _ _ hy, (ht.queues _ _ hq).1]
  have htimers : ∀ o, (e.updateCarrier c ({ · with pendingPrecise := ks })).timersOf o =
      e.timersOf o := timersOf_updateCarrier fun _ => rfl
  have hlater := (htimers preciseOwner).trans hq
  have hread : ∀ r, ((e.updateCarrier c ({ · with pendingPrecise := ks })).register
      ⟨preciseOwner, k⟩).timeout? r = e.timeout? r := by
    intro r
    rw [timeout?_register (r := ⟨preciseOwner, k⟩) hlater, timeout?, htimers, ← timeout?]
  have hslot : ∀ t, ((e.updateCarrier c ({ · with pendingPrecise := ks })).register
      ⟨preciseOwner, k⟩).slot t = e.slot t := fun t => slot_register _ _ t
  refine ⟨h.keep hread hslot (reckoning_register _ _) ?_, hread, hslot⟩
  intro s _ _ _
  have hregister := places_register (r := ⟨preciseOwner, k⟩) hlater hb ho due s
  have hback := keptBack_updateCarrier (g := ({ · with pendingPrecise := ks })) hx s
  have hcount := count_here preciseOwner k ks s
  have hheaped : (e.updateCarrier c ({ · with pendingPrecise := ks })).heaped s = e.heaped s := by
    rw [heaped, htimers, ← heaped]
  rw [hk] at hback
  rw [hregister]
  simp only [places, hheaped] at hback ⊢
  omega

theorem Kept.poll (h : Kept e due fired) (ht : e.Timing due) (hq : e.timersOf owner = some q)
    (now : Nanos) :
    let e' := e.updateTimers owner fun _ => (q.poll now).1
    Kept e' (((q.poll now).2.map fun number => ({ owner, number } : TimeoutRef)) ++ due) fired ∧
      (∀ r, e'.timeout? r = e.timeout? r) ∧ ∀ t, e'.slot t = e.slot t := by
  obtain ⟨ls, ks, hsub, hperm, -, hbare, -, hfilter, -⟩ := TimerQueue.poll_spec q now
  have hread : ∀ r, (e.updateTimers owner fun _ => (q.poll now).1).timeout? r = e.timeout? r := by
    intro r
    rw [timeout?_updateTimers hq, hbare]
    split
    · next ho => rw [timeout?, ho, hq, Option.bind_some]
    · rfl
  have hslot := slot_updateTimers e owner fun _ => (q.poll now).1
  have hstats : (e.updateTimers owner fun _ => (q.poll now).1).reckoning = e.reckoning := by
    unfold reckoning
    rw [stats_updateTimers]
  refine ⟨h.keep hread hslot hstats ?_, hread, hslot⟩
  intro s y hs hy
  rw [places, places, keptBack_updateTimers, heaped_updateTimers hq, List.count_append]
  by_cases ho : s.owner = owner
  · subst ho
    rw [timeout?, hq, Option.bind_some] at hs
    have hvalid : q.isCancelled s.number = false := by
      rw [TimerQueue.isCancelled, hs, Option.map_some, Option.getD_some, hy]
    have hls : ls.count s.number = 0 := by
      rw [List.count_eq_zero]
      intro hmem
      rw [((ht.queues _ _ hq).2.removals _ (hsub _ hmem)).2] at hvalid
      cases hvalid
    have hks : ((q.poll now).2.map fun number => ({ owner := s.owner, number } : TimeoutRef)).count
        s = ks.count s.number := by
      have hinj : Function.Injective fun number => ({ owner := s.owner, number } : TimeoutRef) :=
        fun _ _ heq => congrArg TimeoutRef.number heq
      rw [hfilter, ← List.count_filter (l := ks) (p := fun k => !q.isCancelled k) (by simp [hvalid]),
        ← List.count_map_of_injective _ _ hinj]
    rw [if_pos rfl, hks, heaped_of_timersOf hq, hperm.count_eq, List.count_append,
      List.count_append, hls]
    omega
  · have hnone : ((q.poll now).2.map fun number => ({ owner, number } : TimeoutRef)).count s = 0 := by
      rw [List.count_eq_zero]
      intro hmem
      obtain ⟨k, -, rfl⟩ := List.mem_map.mp hmem
      exact ho rfl
    rw [if_neg ho, hnone]
    omega

theorem Kept.lapse (h : Kept e due fired) (hr : e.timeout? r = some y) (hy : y.cancelled = true) :
    Kept e (due.erase r) fired := by
  refine h.keep (fun _ => rfl) (fun _ => rfl) rfl ?_
  intro s z hs hz
  have hne : s ≠ r := by
    rintro rfl
    rw [hr] at hs
    cases hs
    rw [hy] at hz
    cases hz
  rw [places, places, List.count_erase_of_ne hne]

/-! ## Cancelling -/

/-- A timeout that its task knows can be reached, also when it is about to be fired. -/
theorem Kept.reachable (h : Kept e due fired) (hr : e.slot t = some r) :
    (e.holdsTimeout r || due.contains r) = true := by
  obtain ⟨⟨y, hy, hc, hf⟩, -⟩ := (h.slot t r).mp hr
  have hone := h.place r y hy hc
  rw [List.count_eq_zero.mpr hf, places] at hone
  rw [Bool.or_eq_true]
  by_cases hdue : due.count r = 0
  · refine .inl ?_
    rw [holdsTimeout, Bool.or_eq_true]
    by_cases hheap : e.heaped r = 0
    · refine .inr ?_
      have hback : 0 < e.keptBack r := by omega
      unfold keptBack at hback
      split at hback
      · next ho =>
          obtain ⟨i, x, hx, hpos⟩ := exists_of_total_pos hback
          rw [Bool.and_eq_true, Array.any_eq_true']
          refine ⟨beq_iff_eq.mpr ho, x, Array.mem_of_getElem? hx, ?_⟩
          rw [List.contains_iff_mem]
          exact List.count_pos_iff.mp hpos
      · omega
    · refine .inl ?_
      obtain ⟨q, hq, -⟩ := Option.bind_eq_some_iff.mp hy
      rw [heaped_of_timersOf hq, List.count_eq_zero, not_not] at hheap
      simp only [hq, TimerQueue.holds, Bool.or_eq_true]
      exact .inl (by simpa using hheap)
  · refine .inr ?_
    rw [List.contains_iff_mem]
    exact List.count_pos_iff.mp (by omega)

/-- Disarming a task cancels the timeout that it knows, and does nothing if it knows none. -/
theorem Kept.withdraw (h : Kept e due fired) (ht : e.Timing due) (t : TaskId) :
    Kept (e.withdraw t due) due fired ∧
      (∀ u, (e.withdraw t due).slot u = if u = t then none else e.slot u) ∧
      ∀ r, e.slot t ≠ some r → (e.withdraw t due).timeout? r = e.timeout? r := by
  cases hr : e.slot t with
  | none =>
      have hsame : e.withdraw t due = e := by
        unfold Engine.slot at hr
        unfold Engine.withdraw
        split
        · rfl
        · next x hx =>
            rw [hx, Option.bind_some] at hr
            rw [hr]
      rw [hsame]
      refine ⟨h, ?_, fun _ _ => rfl⟩
      intro u
      split
      · next hu => rw [hu, hr]
      · rfl
  | some r =>
      have hreach := h.reachable hr
      obtain ⟨x, hx, hxr⟩ := Option.bind_eq_some_iff.mp hr
      obtain ⟨q, y, hq, hb, hy⟩ := timeout?_of_has (ht.slots t x r hx hxr)
      have hq' : (e.updateTask t fun x => x.takeTimeout.1).timersOf r.owner = some q := hq
      have hwithdraw : e.withdraw t due = ((e.updateTask t fun x => x.takeTimeout.1).updateTimers
          r.owner (·.cancel r.number (r.owner != preciseOwner && x.carrier == some r.owner))).count
            .timersCancelled := by
        simp only [Engine.withdraw, hx, hxr, hreach, ↓reduceIte]
      generalize (r.owner != preciseOwner && x.carrier == some r.owner) = byOwner at hwithdraw
      have hread : ∀ s, (e.withdraw t due).timeout? s =
          if s = r then (e.timeout? s).map ({ · with cancelled := true }) else e.timeout? s := by
        intro s
        have hupdate := timeout?_updateTimers (f := (·.cancel r.number byOwner)) hq' s
        rw [hwithdraw]
        refine hupdate.trans ?_
        rw [TimerQueue.bare_cancel, TimerQueue.getElem?_bare_mark]
        by_cases hs : s = r
        · subst hs
          rw [if_pos rfl, if_pos rfl, if_pos rfl, hb, hy]
        · rw [if_neg hs]
          split
          · next ho =>
              have hk : r.number ≠ s.number := fun hk => hs (by
                cases r; cases s; simp only at ho hk; rw [ho, hk])
              rw [if_neg hk, timeout?, ho, hq, Option.bind_some]
          · rfl
      have hslot : ∀ u, (e.withdraw t due).slot u = if u = t then none else e.slot u := by
        intro u
        have htimers := slot_updateTimers (e.updateTask t fun x => x.takeTimeout.1) r.owner
          (·.cancel r.number byOwner) u
        rw [hwithdraw]
        exact htimers.trans (slot_takeTimeout e t u)
      have hstats : (e.withdraw t due).reckoning =
          (e.stats.timersArmed, e.stats.timersFired, e.stats.timersCancelled + 1) := by
        have hsame := stats_updateTimers (e.updateTask t fun x => x.takeTimeout.1) r.owner
          (·.cancel r.number byOwner)
        rw [hwithdraw]
        simp only [reckoning, Engine.count, hsame]
        rfl
      have hplace : ∀ s ≠ r, (e.withdraw t due).places due s = e.places due s := by
        intro s hs
        obtain ⟨ks, hshort, hks, -⟩ := TimerQueue.cancel_cases q r.number byOwner
        have hheaped := heaped_updateTimers (f := (·.cancel r.number byOwner)) hq' s
        have hback := keptBack_updateTimers (e.updateTask t fun x => x.takeTimeout.1) r.owner
          (·.cancel r.number byOwner) s
        have hheap : (e.withdraw t due).heaped s = e.heaped s := by
          rw [hwithdraw]
          refine hheaped.trans ?_
          split
          · next ho =>
              have hk : ks.count s.number = 0 := by
                rw [List.count_eq_zero]
                intro hmem
                have hnumber := hks _ hmem
                exact hs (by cases r; cases s; simp only at ho hnumber; rw [ho, hnumber])
              have hcount := hshort.heap.count_eq s.number
              rw [List.count_append, hk, Nat.zero_add] at hcount
              rw [heaped_of_timersOf (ho ▸ hq)]
              exact hcount.symm
          · rfl
        have hkept : (e.withdraw t due).keptBack s = e.keptBack s := by
          rw [hwithdraw]
          exact hback
        rw [places, places, hheap, hkept]
      refine ⟨h.cancelled hr hread hslot hstats hplace, hslot, ?_⟩
      intro s hs
      rw [hread, if_neg fun heq => hs (by rw [heq])]

/-! ## Arming -/

theorem timeout?_provide (hq : e.timersOf owner = some q) (y : Timeout) (s : TimeoutRef) :
    (e.provide owner q y).timeout? s =
      if s = { owner, number := (q.create y).2 } then some { y with slot := none }
      else e.timeout? s := by
  have hupdate := timeout?_updateTimers (e := e.count .timersArmed) (f := fun _ => (q.create y).1)
    hq s
  refine Eq.trans hupdate ?_
  by_cases ho : s.owner = owner
  · rw [if_pos ho, TimerQueue.bare_create, Array.getElem?_push, TimerQueue.size_bare]
    by_cases hk : s.number = q.timeouts.size
    · have hs : s = { owner, number := (q.create y).2 } := by
        cases s
        simp only at ho hk
        rw [ho, hk]
        rfl
      rw [if_pos hk, if_pos hs]
    · have hs : s ≠ { owner, number := (q.create y).2 } := fun heq => hk (by rw [heq]; rfl)
      rw [if_neg hk, if_neg hs, timeout?, ho, hq, Option.bind_some]
  · have hs : s ≠ { owner, number := (q.create y).2 } := fun heq => ho (by rw [heq])
    rw [if_neg ho, if_neg hs]
    rfl

theorem slot_provide {z : Task} (hz : e.task? y.task = some z) (owner : Nat) (q : TimerQueue)
    (u : TaskId) : (e.provide owner q y).slot u =
      if u = y.task then some { owner, number := (q.create y).2 } else e.slot u := by
  rw [provide, slot_updateTask]
  split
  · next hu =>
      have hfound : ((e.count .timersArmed).updateTimers owner fun _ => (q.create y).1).task? u =
          some z := by
        rw [task?, tasks_updateTimers, hu]
        exact hz
      rw [hfound, Option.bind_some]
  · exact slot_updateTimers _ _ _ u

theorem places_provide (hq : e.timersOf owner = some q) (y : Timeout) (due : List TimeoutRef)
    (s : TimeoutRef) : (e.provide owner q y).places due s = e.places due s := by
  have hheaped : (e.provide owner q y).heaped s = e.heaped s := by
    have hupdate := heaped_updateTimers (e := e.count .timersArmed) (f := fun _ => (q.create y).1)
      hq s
    refine Eq.trans hupdate ?_
    split
    · next ho => rw [heaped_of_timersOf (ho ▸ hq)]; rfl
    · rfl
  have hback : (e.provide owner q y).keptBack s = e.keptBack s :=
    keptBack_updateTimers (e.count .timersArmed) owner _ s
  rw [places, places, hheaped, hback]

theorem reckoning_provide (e : Engine V) (owner : Nat) (q : TimerQueue) (y : Timeout) :
    (e.provide owner q y).reckoning =
      (e.stats.timersArmed + 1, e.stats.timersFired, e.stats.timersCancelled) := by
  have hstats := stats_updateTimers (e.count .timersArmed) owner fun _ => (q.create y).1
  have hsame : (e.provide owner q y).stats = (e.count .timersArmed).stats := hstats
  rw [reckoning, hsame]
  rfl

theorem keptBack_eq_zero (ht : e.Timing due) (hnot : ¬ e.Has r fun _ a => a ≠ .resume) :
    e.keptBack r = 0 := by
  unfold keptBack
  split
  · next ho =>
      apply total_eq_zero
      intro x hx
      rw [List.count_eq_zero]
      intro hmem
      obtain ⟨i, hi⟩ := Array.mem_iff_getElem?.mp hx
      have hhas := ht.pending i x hi r.number hmem
      rw [← ho] at hhas
      exact hnot hhas
  · rfl

theorem Kept.places_new (ht : e.Timing due) (hnew : e.timeout? r = none)
    (hq : e.timersOf r.owner = some q) : e.places due r = 0 := by
  have hnone : ∀ {p : TaskId → TimeoutAction → Prop}, ¬ e.Has r p := by
    rintro p ⟨y, hy, -⟩
    rw [hnew] at hy
    cases hy
  have hheaped : e.heaped r = 0 := by
    rw [heaped_of_timersOf hq, List.count_eq_zero]
    intro hmem
    have hlt := (ht.queues _ _ hq).2.heap r.number (by simpa using hmem)
    rw [← TimerQueue.size_bare] at hlt
    rw [timeout?, hq, Option.bind_some, Array.getElem?_eq_getElem hlt] at hnew
    cases hnew
  have hback : e.keptBack r = 0 := keptBack_eq_zero ht hnone
  have hdue : due.count r = 0 := by
    rw [List.count_eq_zero]
    exact fun hmem => hnone (ht.due r hmem)
  rw [places, hheaped, hback, hdue]

theorem places_keepBack (hx : e.carriers[c]? = some x) (k : Nat) (due : List TimeoutRef)
    (s : TimeoutRef) :
    (e.updateCarrier c fun x => { x with pendingPrecise := x.pendingPrecise ++ [k] }).places due s =
      e.places due s + here ⟨preciseOwner, k⟩ s := by
  have hback := keptBack_updateCarrier
    (g := fun x => { x with pendingPrecise := x.pendingPrecise ++ [k] }) hx s
  have hcount := count_here preciseOwner k x.pendingPrecise s
  have hheaped : (e.updateCarrier c fun x =>
      { x with pendingPrecise := x.pendingPrecise ++ [k] }).heaped s = e.heaped s := by
    unfold heaped
    rw [timersOf_updateCarrier]
    exact fun _ => rfl
  simp only [(List.perm_append_singleton k x.pendingPrecise).count_eq] at hback
  rw [places, places, hheaped]
  omega

/-- A task that knows no timeout is given one. -/
theorem Kept.arm {z : Task} (h : Kept e due fired) (ht : e.Timing due) (hc : c < e.carriers.size)
    (hz : e.task? t = some z) (hnone : e.slot t = none) (now deadline : Nanos) (a : TimeoutAction)
    (byTask : Bool) :
    ∃ r y, Kept (e.arm now c t deadline a byTask) due fired ∧ y.task = t ∧ y.action = a ∧
      (∀ s, (e.arm now c t deadline a byTask).timeout? s =
        if s = r then some y else e.timeout? s) ∧
      e.timeout? r = none ∧
      ∀ u, (e.arm now c t deadline a byTask).slot u = if u = t then some r else e.slot u := by
  obtain ⟨q, hq⟩ := exists_timersOf (e := e) hc
  rw [arm_eq rfl hq]
  simp only
  generalize howner : (if e.config.preciseTimer = true then preciseOwner else c) = owner at hq ⊢
  let y := Timeout.make t now deadline a owner
  let r : TimeoutRef := { owner, number := (q.create y).2 }
  have hnew : e.timeout? r = none := by
    rw [timeout?, hq, Option.bind_some]
    exact Array.getElem?_eq_none (Nat.le_of_eq (TimerQueue.size_bare q))
  have hread := timeout?_provide hq y
  have hslot := slot_provide (y := y) hz owner q
  have hstats := reckoning_provide e owner q y
  have hzero := Kept.places_new ht hnew hq
  have hplace := places_provide hq y due
  have hq' := timersOf_provide hq y
  have hy := (hread r).trans (if_pos rfl)
  split
  · next hheld =>
      have hprecise : owner = preciseOwner := by
        rw [← howner, if_pos (Bool.and_eq_true_iff.mp hheld).1]
      have hsize : c < (e.provide owner q y).carriers.size := by
        rw [(timekeeping_provide e owner q y).size]
        exact hc
      have hback := places_keepBack (Array.getElem?_eq_getElem hsize) (q.create y).2 due
      have hlater : ∀ s, ((e.provide owner q y).updateCarrier c fun x =>
          { x with pendingPrecise := x.pendingPrecise ++ [(q.create y).2] }).timeout? s =
            (e.provide owner q y).timeout? s := by
        intro s
        unfold timeout?
        rw [timersOf_updateCarrier]
        exact fun _ => rfl
      refine ⟨r, y, ?_, rfl, rfl, fun s => (hlater s).trans (hread s), hnew, hslot⟩
      refine h.armed hnew hnone rfl rfl (fun s => (hlater s).trans (hread s)) hslot hstats hzero ?_
      intro s
      rw [hback, hplace, ← hprecise]
      rfl
  · have hb : (q.create y).1.bare[r.number]? = some y := TimerQueue.getElem?_bare_create_new q y
    have hregister := places_register (r := r) hq' hb (ht.queues _ _ hq).1.symm due
    have hlater := timeout?_register (r := r) hq'
    have hknown := slot_register (e.provide owner q y) r
    refine ⟨r, y, ?_, rfl, rfl, fun s => (hlater s).trans (hread s), hnew,
      fun u => (hknown u).trans (hslot u)⟩
    refine h.armed hnew hnone rfl rfl (fun s => (hlater s).trans (hread s))
      (fun u => (hknown u).trans (hslot u)) ((reckoning_register _ r).trans hstats) hzero ?_
    intro s
    rw [hregister, hplace]
    rfl

/-! ## Firing -/

theorem sameClock_updateTask {g : Task → Task} (h : ∀ x, (g x).timeout = x.timeout) :
    SameClock e (e.updateTask t g) := (sameTimers_updateTask h).sameClock rfl

theorem sameClock_updateCarrier {g : Carrier → Carrier} (h : ∀ x, (g x).clock = x.clock) :
    SameClock e (e.updateCarrier c g) := (sameTimers_updateCarrier h).sameClock rfl

theorem sameClock_wake (e : Engine V) (now : Nanos) (t : TaskId) : SameClock e (e.wake now t) := by
  unfold Engine.wake
  split
  · exact .refl e
  · split
    · exact .refl e
    · split
      · refine SameClock.trans (sameClock_updateTask ?_) (sameClock_updateCarrier ?_)
        · exact fun _ => rfl
        · exact fun _ => rfl
      · exact .refl e

theorem sameClock_wakeWaiting (e : Engine V) (now : Nanos) (t : TaskId) (a : Axis) :
    SameClock e (e.wakeWaiting now t a) := by
  unfold Engine.wakeWaiting
  split
  · exact .refl e
  · split
    · next p n hp =>
        have hset : SameClock e (e.updateTask t (·.setParker a p)) :=
          sameClock_updateTask fun x => by cases a <;> rfl
        cases n with
        | cooperative => exact hset.trans (sameClock_wake _ now t)
        | native => exact hset
        | permit => exact hset
    · exact .refl e

/-- A timeout in somebody's hand that was not cancelled is fired. -/
theorem Kept.discharge (h : Kept e due fired) (hdue : r ∈ due) (hr : e.timeout? r = some y)
    (hy : y.cancelled = false) (now : Nanos) :
    Kept (e.fire now r) (due.erase r) (r :: fired) ∧
      (∀ s, (e.fire now r).timeout? s = e.timeout? s) ∧
      ∀ u, (e.fire now r).slot u = if u = y.task then none else e.slot u := by
  have hsame : SameClock ((e.count .timersFired).updateTask y.task (·.clearTimeoutIf r))
      (e.fire now r) := by
    rw [fire_eq hr hy]
    simp only
    split
    · exact sameClock_wake _ now _
    · exact sameClock_wakeWaiting _ now _ _
    · exact sameClock_wakeWaiting _ now _ _
  have hknown := h.slot_of_live hr hy (h.not_spent hdue hr hy)
  have hslot : ∀ u, (e.fire now r).slot u = if u = y.task then none else e.slot u := by
    intro u
    rw [hsame.slot, slot_updateTask]
    split
    · next hu =>
        obtain ⟨x, hx, hxr⟩ := Option.bind_eq_some_iff.mp hknown
        have hfound : (e.count .timersFired).task? u = some x := hu ▸ hx
        rw [hfound, Option.bind_some, Task.clearTimeoutIf, if_pos hxr]
    · rfl
  have hstats : (e.fire now r).reckoning =
      (e.stats.timersArmed, e.stats.timersFired + 1, e.stats.timersCancelled) :=
    hsame.reckoning.trans rfl
  refine ⟨h.fire hdue hr hy hsame.timeout? hslot hstats fun s => hsame.places [] s, hsame.timeout?,
    hslot⟩

end GreenThreads.Engine

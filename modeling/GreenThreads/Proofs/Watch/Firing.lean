import GreenThreads.Proofs.Watch.Parks

/-!
# Every task has one timeout at most

Whatever happens, a task that has work knows the one timeout that was armed for it and neither fired
nor cancelled, and a task without work has none. A timeout of a park that fires frees its task from
that very park or frees nobody, and no permit is left.
-/

namespace GreenThreads

/-! ## What a timeout does to tasks -/

namespace Task

variable {x : Task} {now : Nanos} {a b : Axis} {r : TimeoutRef}

theorem parker_woken (x : Task) (now : Nanos) (a : Axis) : (x.woken now).parker a = x.parker a := by
  unfold woken
  split
  · cases a <;> rfl
  · rfl

theorem parker_wokenBy (x : Task) (now : Nanos) (n : Released) (a : Axis) :
    (x.wokenBy now n).parker a = x.parker a := by
  cases n with
  | cooperative => exact parker_woken x now a
  | native => rfl
  | permit => rfl

theorem parker_clearTimeoutIf (x : Task) (r : TimeoutRef) (a : Axis) :
    (x.clearTimeoutIf r).parker a = x.parker a := by
  unfold clearTimeoutIf
  split
  · cases a <;> rfl
  · rfl

theorem parker_wokenWaiting (x : Task) (now : Nanos) (a b : Axis) :
    (x.wokenWaiting now a).parker b = x.parker b ∨
      b = a ∧ (x.parker a).isWaiting = true ∧ (x.wokenWaiting now a).parker b = .free := by
  unfold wokenWaiting
  split
  · next p n hp =>
      by_cases hb : b = a
      · subst hb
        have hfree : (x.parker b).isWaiting = true ∧ p = .free := by
          cases hx : x.parker b <;> rw [hx] at hp <;> cases hp <;> exact ⟨rfl, rfl⟩
        refine .inr ⟨rfl, hfree.1, ?_⟩
        rw [parker_wokenBy, parker_setParker_self, hfree.2]
      · refine .inl ?_
        rw [parker_wokenBy, parker_setParker_of_ne hb]
  · exact .inl rfl

/-- A timeout that fires frees its task on the axis of its park, or leaves the parkers alone. -/
theorem parker_fired (x : Task) (now : Nanos) (r : TimeoutRef) (action : TimeoutAction) (a : Axis) :
    (x.fired now r action).parker a = x.parker a ∨
      action.Frees a ∧ (x.parker a).isWaiting = true ∧ (x.fired now r action).parker a = .free := by
  have hclear := parker_clearTimeoutIf x r a
  cases action with
  | resume => exact .inl ((parker_woken _ now a).trans hclear)
  | wakeCooperative b =>
      rcases parker_wokenWaiting (x.clearTimeoutIf r) now b a with hsame | ⟨rfl, hw, hf⟩
      · exact .inl (hsame.trans hclear)
      · exact .inr ⟨rfl, hclear ▸ hw, hf⟩
  | wakeNative b =>
      rcases parker_wokenWaiting (x.clearTimeoutIf r) now b a with hsame | ⟨rfl, hw, hf⟩
      · exact .inl (hsame.trans hclear)
      · exact .inr ⟨rfl, hclear ▸ hw, hf⟩

end Task

namespace Engine

variable {V : Type} {e : Engine V} {t u : TaskId} {r : TimeoutRef} {y : Timeout}

theorem task?_wakeWaiting (e : Engine V) (now : Nanos) (t u : TaskId) (a : Axis) :
    (e.wakeWaiting now t a).task? u =
      if u = t then (e.task? u).map (·.wokenWaiting now a) else e.task? u := by
  unfold wakeWaiting
  split
  · next h =>
      split
      · next hu => rw [hu, h]; rfl
      · rfl
  · next x h =>
      split
      · next p n hp =>
          rw [task?_wakeReleased, task?_updateTask]
          split
          · next hu => simp only [hu, h, Option.map_some, Task.wokenWaiting, hp]
          · rfl
      · next hp =>
          split
          · next hu => simp only [hu, h, Option.map_some, Task.wokenWaiting, hp]
          · rfl

theorem task?_fire (hr : e.timeout? r = some y) (hy : y.cancelled = false) (now : Nanos)
    (u : TaskId) : (e.fire now r).task? u =
      if u = y.task then (e.task? u).map (·.fired now r y.action) else e.task? u := by
  have hclear : ((e.count .timersFired).updateTask y.task (·.clearTimeoutIf r)).task? u =
      if u = y.task then (e.task? u).map (·.clearTimeoutIf r) else e.task? u :=
    task?_updateTask _ y.task u _
  have hmap : ∀ g : Task → Task, (if u = y.task then
      (if u = y.task then (e.task? u).map (·.clearTimeoutIf r) else e.task? u).map g
      else if u = y.task then (e.task? u).map (·.clearTimeoutIf r) else e.task? u) =
      if u = y.task then (e.task? u).map fun x => g (x.clearTimeoutIf r) else e.task? u := by
    intro g
    split
    · rw [Option.map_map]; rfl
    · rfl
  rw [fire_eq hr hy]
  cases haction : y.action with
  | resume => simp only [task?_wake, hclear, hmap]; rfl
  | wakeCooperative a => simp only [task?_wakeWaiting, hclear, hmap]; rfl
  | wakeNative a => simp only [task?_wakeWaiting, hclear, hmap]; rfl

theorem reckoning_recycle (e : Engine V) (c : Nat) (t : TaskId) :
    (e.recycle c t).reckoning = e.reckoning := by
  unfold recycle
  simp only
  split
  · rfl
  · split <;> rfl

theorem aloof_checkQuota (e : Engine V) (now : Nanos) (t : TaskId) :
    Aloof e (e.checkQuota now t).1 := by
  refine ⟨frame_checkQuota e now t, ?_, ?_⟩
  · unfold checkQuota
    split
    · rfl
    · next x hx =>
        split
        · rfl
        · next g group _ =>
            have hput := map_put (k := (·.generation)) (y := (group.checkMember x now true).2.1) hx
              (Task.generation_checkMember group true)
            dsimp only
            split
            · exact hput
            · exact hput
  · unfold checkQuota
    split
    · rfl
    · split
      · rfl
      · dsimp only
        split
        · rfl
        · rfl

end Engine

namespace Watch

variable {V : Type} {w w' : Watch V} {t : TaskId} {c k : Nat} {r : TimeoutRef} {y : Timeout}
  {x : Carrier} {ks : List Nat} {f : Floor V}

/-! ## The other steps -/

theorem Sound.retire (h : Sound w) (hp : w.floor.phases[c]? = some (.working t))
    (hready : w.stance t = .finished) :
    Sound (w.turn t .idle (w.floor.move c (.leaving t none) (w.floor.engine.recycle c t))) := by
  obtain ⟨n, hr⟩ := Engine.recycled_recycle w.floor.engine c t
  have hclock := hr.timers.sameClock (Engine.reckoning_recycle w.floor.engine c t)
  have hidle : ∀ k, w.stance t ≠ .parked k true ∧ w.stance t ≠ .ended k := by
    intro k
    rw [hready]
    exact ⟨Stance.noConfusion, Stance.noConfusion⟩
  have hnone := h.slot_eq_none hp rfl (fun k => (hidle k).1) fun k => (hidle k).2
  have hretains : ∀ u ≠ t, w.floor.engine.Retains (w.floor.engine.recycle c t) u := by
    intro u hu x hx halive
    refine ⟨x, ?_, halive, rfl, rfl⟩
    have htask := Engine.task?_updateTask w.floor.engine t u ({ · with status := n })
    rw [if_neg hu, Engine.task?, ← hr.tasks] at htask
    exact htask.trans hx
  have hwork : (Phase.working t).engaged = some t := rfl
  refine h.of_spared (t := t) (h.floor.step (.retire hp)) (h.kept.same hclock) (fun u hu => ?_) ?_
  · have hspared : Spared w { w with
        floor := w.floor.move c (.leaving t none) (w.floor.engine.recycle c t) } u :=
      spared_pass hclock (hretains u hu) hp (fun he => absurd (Option.some.inj he).symm hu)
        (by rintro ⟨⟩) (by rintro ⟨⟩) rfl
    exact hspared.of_floor (Function.update_of_ne hu _ _) rfl fun _ _ => rfl
  · refine .of_slot_none ((hclock.slot t).trans hnone) ?_ ?_ fun hheld => ?_
    · intro d q hq he
      by_cases hd : c = d
      · subst hd
        cases (getElem?_modify_self hp (.leaving t none)).symm.trans hq
        cases he
      · have hq := (getElem?_modify_of_ne hd (.leaving t none)).symm.trans hq
        exact absurd (h.eq_of_engaged hp hwork hq he) hd
    · have hsuits : Suits (w.floor.move c (.leaving t none) (w.floor.engine.recycle c t)) t
          (Function.update w.stance t .idle t) := by
        rw [Function.update_self]
        trivial
      exact hsuits
    · exact absurd hheld (h.not_withheld hp hwork)

theorem Sound.of_kept (h : Sound w) (hreached : f.Reached) (hkept : f.engine.Kept f.due w.fired)
    (hrecords : Engine.SameRecords w.floor.engine f.engine) (hphases : f.phases = w.floor.phases)
    (hread : ∀ r, f.engine.timeout? r = w.floor.engine.timeout? r)
    (hslot : ∀ t, f.engine.slot t = w.floor.engine.slot t) : Sound { w with floor := f } := by
  have hspared : ∀ t, Spared w { w with floor := f } t := fun t =>
    .of_retains rfl rfl (hslot t) (fun r _ => ⟨hread r, rfl⟩) (hrecords.retains t)
      (hphases ▸ .refl w t)
  exact ⟨hreached, hkept, fun t => (hspared t).steady (h.steady t)⟩

theorem Sound.register (h : Sound w) (hp : w.floor.phases[c]? = some .settling)
    (hx : w.floor.engine.carriers[c]? = some x) (hk : x.pendingPrecise = k :: ks) :
    Sound { w with floor := { w.floor with
      engine := (w.floor.engine.updateCarrier c ({ · with pendingPrecise := ks })).register
        ⟨Engine.preciseOwner, k⟩ } } := by
  obtain ⟨hkept, hread, hslot⟩ := h.kept.register h.floor.sound.timing hx hk
  have hpending : Engine.SameRecords w.floor.engine
      (w.floor.engine.updateCarrier c ({ · with pendingPrecise := ks })) :=
    Engine.sameRecords_updateCarrier fun _ _ => rfl
  have hrecords := hpending.trans (Engine.sameRecords_register _ ⟨Engine.preciseOwner, k⟩)
  exact h.of_kept (h.floor.step (.register hp hx hk)) hkept hrecords rfl hread hslot

theorem Sound.poll {owner : Nat} {q : TimerQueue} (h : Sound w) (now : Nanos)
    (hq : w.floor.engine.timersOf owner = some q) :
    Sound { w with floor := { w.floor with
      engine := w.floor.engine.updateTimers owner fun _ => (q.poll now).1
      due := ((q.poll now).2.map fun number => { owner, number }) ++ w.floor.due } } := by
  obtain ⟨hkept, hread, hslot⟩ := h.kept.poll h.floor.sound.timing hq now
  have hrecords := Engine.sameRecords_updateTimers w.floor.engine owner fun _ => (q.poll now).1
  exact h.of_kept (h.floor.step (.poll now hq)) hkept hrecords rfl hread hslot

theorem Sound.lapse (h : Sound w) (hdue : r ∈ w.floor.due)
    (hy : w.floor.engine.timeout? r = some y) (hcancelled : y.cancelled = true) :
    Sound { w with floor := { w.floor with due := w.floor.due.erase r } } :=
  h.of_kept (h.floor.step (.lapse hdue hy hcancelled)) (h.kept.lapse hy hcancelled) (.refl _) rfl
    (fun _ => rfl) fun _ => rfl

/-! ## Every run -/

theorem Sound.step (h : Sound w) (hs : Step w w') : Sound w' := by
  cases hs with
  | plain hp => exact h.plain hp
  | park timed hp hready hx hq =>
      exact h.enter (h.floor.step (.park hp hx hq)) hp hready hx (.inl rfl) rfl
  | block timed hp hready hx hq =>
      exact h.enter (h.floor.step (.block hp hx hq)) hp hready hx (.inr rfl) rfl
  | arm now deadline hp hready =>
      exact h.arm now deadline hp rfl hready rfl (h.floor.step (.arm now deadline hp))
  | armBlocked now deadline hp hready =>
      exact h.arm now deadline hp rfl hready rfl (h.floor.step (.armBlocked now deadline hp))
  | leave hp hready => exact h.leave hp hready
  | endPark hp hready => exact h.endPark hp hready
  | disarm hp hready => exact h.disarm_engaged hp (.inl rfl) trivial
  | @disarmBlocked c t p hp hready =>
      refine h.disarm_engaged hp (.inr ⟨p.axis, rfl⟩) ?_
      have hsuits := (h.steady t).stance
      rw [hready] at hsuits
      exact hsuits
  | unblock hp hready => exact h.unblock hp hready
  | yield hp hready => exact h.yield hp hready
  | @exit c t hp => exact h.disarm_engaged hp (.inl rfl) ⟨c, hp⟩
  | retire hp hready => exact h.retire hp hready
  | withhold hp hx hown => exact h.withhold hp hx hown
  | throttle now deadline hp hready => exact h.throttle now deadline hp hready
  | register hp hx hk => exact h.register hp hx hk
  | poll now hq => exact h.poll now hq
  | lapse hdue hy hcancelled => exact h.lapse hdue hy hcancelled
  | fire now hdue hy hvalid => exact h.fire hdue hy hvalid now

theorem sound_start {config : Config} {processors : Nat} {groups : List ControlGroup}
    {pump : EventPump} {e : Engine V} (h : Engine.start config processors groups pump = .ok e) :
    Sound { floor := Floor.quiet e } := by
  have hfresh := Floor.fresh_start h
  have htask : ∀ t, e.task? t = none := by
    intro t
    rw [Engine.task?, hfresh.tasks]
    exact Array.getElem?_empty
  have hslot : ∀ t, e.slot t = none := fun t => by rw [Engine.slot, htask]; rfl
  have hread : ∀ r, e.timeout? r = none := by
    intro r
    cases hr : e.timeout? r with
    | none => rfl
    | some y =>
        obtain ⟨q, hq, hb⟩ := Option.bind_eq_some_iff.mp hr
        have hempty : q.bare = #[] := by
          unfold Engine.timersOf at hq
          split at hq
          · rw [hfresh.precise] at hq
            cases hq
            exact Array.map_empty
          · obtain ⟨x, hx, rfl⟩ := Option.map_eq_some_iff.mp hq
            obtain ⟨n, rfl⟩ := hfresh.carriers _ x hx
            exact Array.map_empty
        rw [hempty] at hb
        cases hb
  have hnone : e.toCome [] = ∅ := by
    ext r
    rw [Engine.mem_toCome, hread]
    simp only [reduceCtorEq, false_and, exists_false, Set.mem_empty_iff_false]
  have hstats : e.stats = {} := by rw [Engine.start_eq h]
  have hphases : ∀ (c : Nat) p, (Floor.quiet e).phases[c]? = some p → p = .looking := by
    intro c p hp
    obtain ⟨hlt, heq⟩ := Array.getElem?_eq_some_iff.mp hp
    rw [← heq]
    exact Array.getElem_replicate ..
  refine ⟨.start h, ⟨?_, ?_, ?_, ?_, ?_, ?_⟩, fun t => ?_⟩
  · intro r y hr
    rw [show (Floor.quiet e).engine.timeout? r = none from hread r] at hr
    cases hr
  · intro r hr
    cases hr
  · intro r y hr
    rw [show (Floor.quiet e).engine.timeout? r = none from hread r] at hr
    cases hr
  · intro t r
    have hmem : r ∉ e.toCome [] := by rw [hnone]; exact id
    refine ⟨fun hs => ?_, fun hs => absurd hs.1 hmem⟩
    cases (hslot t).symm.trans hs
  · exact hnone ▸ Set.finite_empty
  · have hcount : (e.toCome []).ncard = 0 := by rw [hnone, Set.ncard_empty]
    have harmed : e.stats.timersArmed = e.stats.timersFired + e.stats.timersCancelled +
        UInt64.ofNat (e.toCome []).ncard := by
      rw [hcount, hstats]
      rfl
    exact harmed
  · refine .of_slot_none (hslot t) ?_ trivial fun hheld => by cases hheld
    intro c p hp he
    rw [hphases c p hp] at he
    cases he

theorem Reached.sound (h : Reached w) : Sound w := by
  induction h with
  | start h => exact sound_start h
  | step _ s ih => exact ih.step s

/-! ## Operations of an engine -/

/-- A carrier holds back a task that is out of quota. -/
theorem Reached.holdBack {z : Task} (h : Reached w) (now : Nanos) (hdue : w.floor.due = [])
    (hp : w.floor.phases[c]? = some (.resuming t)) (hz : w.floor.engine.task? t = some z)
    (hc : z.carrier = some c) (hdelay : 0 < (w.floor.engine.checkQuota now t).2) :
    Reached { w with
      floor := w.floor.move c .looking (w.floor.engine.resumeOwned now c t)
      withheld := Function.update w.withheld t false } := by
  have haloof := Engine.aloof_checkQuota w.floor.engine now t
  have hquota := h.step (.plain (.other haloof))
  have hcount := hquota.step (.plain (.other
    (e := (w.floor.engine.checkQuota now t).1.count .quotaThrottles)
    ⟨Engine.frame_count _ _, rfl, rfl⟩))
  obtain ⟨z', hz', hcore⟩ := Engine.exists_of_map_eq haloof.tasks.symm hz
  have hcarrier : z.core.carrier = z'.core.carrier := by rw [hcore]
  have hheld := hcount.step (.withhold hp hz' (hcarrier.symm.trans hc))
  have hback := hheld.step (.throttle now (now.satAdd (w.floor.engine.checkQuota now t).2) hp
    (Function.update_self ..))
  have hdisarm : ((w.floor.engine.checkQuota now t).1.count .quotaThrottles).withdraw t w.floor.due =
      ((w.floor.engine.checkQuota now t).1.count .quotaThrottles).disarm t := by
    rw [hdue, Engine.withdraw_nil]
  simp only [hdisarm, Function.update_idem] at hback
  simp only [Engine.resumeOwned, if_pos hdelay]
  exact hback

theorem Reached.fireFirst (h : Reached w) (now : Nanos) {due : List TimeoutRef}
    (hdue : w.floor.due = r :: due) : ∃ fired, Reached { w with
      floor := { w.floor with engine := w.floor.engine.fire now r, due }
      fired } := by
  have hmem : r ∈ w.floor.due := by rw [hdue]; exact List.mem_cons_self
  have herase : w.floor.due.erase r = due := by rw [hdue, List.erase_cons_head]
  obtain ⟨y, hy, -⟩ := h.sound.floor.sound.timing.due r hmem
  by_cases hc : y.cancelled = true
  · have hlapse := h.step (.lapse hmem hy hc)
    rw [herase] at hlapse
    exact ⟨w.fired, by rw [Engine.fire_of_cancelled hy hc]; exact hlapse⟩
  · have hfire := h.step (.fire now hmem hy (Bool.eq_false_iff.mpr hc))
    rw [herase] at hfire
    exact ⟨_, hfire⟩

theorem Reached.fireAll (h : Reached w) (now : Nanos) (owner : Nat) {due : List TimeoutRef}
    (ks : List Nat) (hdue : w.floor.due = (ks.map fun number => ⟨owner, number⟩) ++ due) :
    ∃ fired, Reached { w with
      floor := { w.floor with
        engine := ks.foldl (fun e number => e.fire now { owner, number }) w.floor.engine
        due }
      fired } := by
  induction ks generalizing w with
  | nil =>
      have hdue : w.floor.due = due := hdue
      exact ⟨w.fired, by rw [← hdue]; exact h⟩
  | cons k ks ih =>
      obtain ⟨fired, hfirst⟩ := h.fireFirst now hdue
      exact ih hfirst rfl

/-- The timeouts of an owner that are due are fired one after another. -/
theorem Reached.pollTimers (h : Reached w) (now : Nanos) (owner : Nat) : ∃ fired, Reached { w with
    floor := { w.floor with engine := w.floor.engine.pollTimers now owner }
    fired } := by
  dsimp only [Engine.pollTimers]
  split
  · exact ⟨w.fired, h⟩
  · next q hq => exact (h.step (.poll now hq)).fireAll now owner (q.poll now).2 rfl

/-! ## Numbers of parks -/

/-- Parks are numbered as they begin. -/
structure Numbered (w : Watch V) : Prop where
  stance : ∀ t k, (w.stance t).park? = some k → k.number < w.parks
  purpose : ∀ r k, w.purpose r = some k → k.number < w.parks

theorem Numbered.turn {n : Stance} (h : Numbered w)
    (hn : ∀ k, n.park? = some k → (w.stance t).park? = some k) : Numbered (w.turn t n f) := by
  refine ⟨fun u k hk => ?_, h.purpose⟩
  have hk : (Function.update w.stance t n u).park? = some k := hk
  by_cases hu : u = t
  · subst hu
    rw [Function.update_self] at hk
    exact h.stance u k (hn k hk)
  · rw [Function.update_of_ne hu] at hk
    exact h.stance u k hk

theorem Numbered.enter {k : Park} {timed : Bool} (h : Numbered w) (hk : k.number = w.parks) :
    Numbered (w.enter k timed f) := by
  refine ⟨fun u j hj => ?_, fun r j hj => Nat.lt_succ_of_lt (h.purpose r j hj)⟩
  have hj : (Function.update w.stance k.task (if timed then .arming k else .parked k false) u).park? =
      some j := hj
  by_cases hu : u = k.task
  · subst hu
    rw [Function.update_self] at hj
    have hjk : k = j := by
      cases timed <;> exact Option.some.inj hj
    exact hjk ▸ Nat.lt_succ_of_le (Nat.le_of_eq hk)
  · rw [Function.update_of_ne hu] at hj
    exact Nat.lt_succ_of_lt (h.stance u j hj)

theorem Numbered.armed {k : Park} (h : Numbered w) (hk : w.stance k.task = .arming k) :
    Numbered (w.armed k f) := by
  have hknown : (w.stance k.task).park? = some k := by rw [hk]; rfl
  have hturn : Numbered (w.turn k.task (.parked k true) f) := h.turn fun j hj => by
    cases hj
    exact hknown
  refine ⟨hturn.stance, fun r j hj => ?_⟩
  have hj : (if f.engine.slot k.task = some r then some k else w.purpose r) = some j := hj
  split at hj
  · cases hj
    exact h.stance k.task k hknown
  · exact h.purpose r j hj

theorem Numbered.step (h : Numbered w) (hs : Step w w') : Numbered w' := by
  have hnone : ∀ {t n f}, n.park? = none → Numbered (w.turn t n f) := by
    intro t n f hn
    refine h.turn fun k hk => ?_
    rw [hn] at hk
    cases hk
  cases hs with
  | park | block => exact h.enter rfl
  | arm now deadline hp hready => exact h.armed hready
  | armBlocked now deadline hp hready => exact h.armed hready
  | @endPark c t k timed hp hready =>
      refine h.turn fun j hj => ?_
      rw [hready]
      cases timed with
      | true => exact hj
      | false => cases hj
  | disarmBlocked hp hready =>
      refine h.turn fun j hj => ?_
      rw [hready]
      exact hj
  | disarm | unblock | exit | retire => exact hnone rfl
  | plain | leave | yield | withhold | throttle | register | poll | lapse | fire =>
      exact ⟨h.stance, h.purpose⟩

theorem Reached.numbered (h : Reached w) : Numbered w := by
  induction h with
  | start h => exact ⟨nofun, nofun⟩
  | step _ s ih => exact ih.step s

/-! ## One timeout -/

theorem Sound.purpose_eq (h : Sound w) (hs : Step w w') (hy : w.floor.engine.timeout? r = some y) :
    w'.purpose r = w.purpose r := by
  have harm : ∀ {c : Nat} {p : Phase} {k : Park} {a : TimeoutAction} {byTask : Bool}
      (now deadline : Nanos), w.floor.phases[c]? = some p → p.engaged = some k.task →
      w.stance k.task = .arming k →
      (w.armed k { w.floor with
        engine := w.floor.engine.arm now c k.task deadline a byTask }).purpose r = w.purpose r := by
    intro c p k a byTask now deadline hp he hready
    obtain ⟨-, s, z, -, -, -, hnew, hslot⟩ := h.arm_spec hp he hready now deadline a byTask
    refine if_neg fun hknown => ?_
    rw [hslot, if_pos rfl] at hknown
    cases hknown
    rw [hnew] at hy
    cases hy
  cases hs with
  | arm now deadline hp hready => exact harm now deadline hp rfl hready
  | armBlocked now deadline hp hready => exact harm now deadline hp rfl hready
  | _ => rfl

theorem mem_live (h : Sound w) : r ∈ w.live t ↔ w.floor.engine.slot t = some r :=
  (h.kept.slot t r).symm

/-- The timeout of a park that can fire was armed for the park of its task. -/
theorem Sound.purpose (h : Sound w) (hdue : r ∈ w.floor.due)
    (hy : w.floor.engine.timeout? r = some y) (hvalid : y.cancelled = false)
    (hpark : y.action ≠ .resume) : ∃ k, w.purpose r = some k ∧ Current w.floor y.task k ∧
      y.action.Frees k.axis ∧ (w.stance y.task = .parked k true ∨
        w.stance y.task = .ended k ∧ ∃ c : Nat, w.floor.phases[c]? = some (.working y.task)) := by
  have hknown := h.kept.slot_of_live hy hvalid (h.kept.not_spent hdue hy hvalid)
  obtain ⟨k, hk, hfrees, hstance⟩ := (h.steady y.task).purpose r y hknown hy hpark
  have hsuits := (h.steady y.task).stance
  rcases hstance with hstance | hstance
  · rw [hstance] at hsuits
    exact ⟨k, hk, hsuits, hfrees, .inl hstance⟩
  · rw [hstance] at hsuits
    exact ⟨k, hk, hsuits.1, hfrees, .inr ⟨hstance, hsuits.2⟩⟩

theorem not_waiting_of_working {f : Floor V} {x : Task} (h : f.Sound)
    (hp : f.phases[c]? = some (.working t)) (hx : f.engine.task? t = some x) (a : Axis) :
    (x.parker a).isWaiting = false := by
  have hwaiting := h.not_waiting hp rfl hx a
  have hnative := h.not_native (a := a) hp rfl hx rfl
  cases hpark : x.parker a with
  | waiting => exact absurd hpark hwaiting
  | waitingNative => exact absurd hpark hnative
  | free => rfl
  | permitted => rfl

/-- A timeout that fires frees its task from the park that it was armed for, or leaves the parkers
of all tasks alone. -/
theorem Sound.fires (h : Sound w) (hdue : r ∈ w.floor.due)
    (hy : w.floor.engine.timeout? r = some y) (hvalid : y.cancelled = false) (now : Nanos)
    {x : Task} (hx : w.floor.engine.task? t = some x) :
    ∃ x', (w.floor.engine.fire now r).task? t = some x' ∧ ∀ a, x'.parker a = x.parker a ∨
      (x.parker a).isWaiting = true ∧ x'.parker a = .free ∧
        ∃ k, w.purpose r = some k ∧ w.stance t = .parked k true ∧ k.task = t ∧ k.axis = a ∧
          k.generation = x.generation := by
  rw [Engine.task?_fire hy hvalid]
  by_cases ht : t = y.task
  · subst ht
    rw [if_pos rfl, hx]
    refine ⟨_, rfl, fun a => ?_⟩
    rcases Task.parker_fired x now r y.action a with hsame | ⟨hfrees, hwaiting, hfree⟩
    · exact .inl hsame
    · have hpark : y.action ≠ .resume := by
        intro ha
        rw [ha] at hfrees
        exact hfrees
      obtain ⟨k, hk, ⟨htask, z, hz, -, hg⟩, haxis, hstance⟩ := h.purpose hdue hy hvalid hpark
      obtain rfl : x = z := Option.some.inj (hx.symm.trans hz)
      have hsame : k.axis = a := by
        cases haction : y.action with
        | resume => exact absurd haction hpark
        | wakeCooperative b => rw [haction] at haxis hfrees; exact haxis.symm.trans hfrees
        | wakeNative b => rw [haction] at haxis hfrees; exact haxis.symm.trans hfrees
      rcases hstance with hstance | ⟨-, c, hp⟩
      · exact .inr ⟨hwaiting, hfree, k, hk, hstance, htask, hsame, hg.symm⟩
      · rw [not_waiting_of_working h.floor.sound hp hx a] at hwaiting
        cases hwaiting
  · rw [if_neg ht]
    exact ⟨x, hx, fun a => .inl rfl⟩

/-- An engine is reached by any steps of any number of carriers and of others, in any order:
bounded parks that give a carrier away or block it, tasks that are held back because they are out
of quota, wakes, polls, timeouts that fire or are cancelled, and ends of work. Then a task that
has work has at most one timeout that was armed and neither fired nor cancelled, and it knows
this one and no other; a task without work has none. What a timeout was armed for never changes.
A timeout of a park that fires was armed for one park, which began before; it frees the task of
this park if that still waits in it, on its axis and in its incarnation, and it leaves every
other parker as it is, so that no permit is kept. As many timeouts were armed as were fired, were
cancelled or are still to come. -/
theorem Reached.keeps_one_timeout (h : Reached w) :
    (∀ t x, w.floor.engine.task? t = some x → x.status = .alive →
      (w.live t).Subsingleton ∧ ∀ r, r ∈ w.live t ↔ x.timeout = some r) ∧
    (∀ t, (∀ x, w.floor.engine.task? t = some x → x.status ≠ .alive) →
      w.live t = ∅ ∧ ∀ x, w.floor.engine.task? t = some x → x.timeout = none) ∧
    (∀ w' r y, Step w w' → w.floor.engine.timeout? r = some y → w'.purpose r = w.purpose r) ∧
    (∀ now r y, r ∈ w.floor.due → w.floor.engine.timeout? r = some y → y.cancelled = false →
      (y.action ≠ .resume → ∃ k, w.purpose r = some k ∧ k.task = y.task ∧
        y.action.Frees k.axis ∧ k.number < w.parks) ∧
      ∀ t x, w.floor.engine.task? t = some x →
        ∃ x', (w.floor.engine.fire now r).task? t = some x' ∧ ∀ a, x'.parker a = x.parker a ∨
          (x.parker a).isWaiting = true ∧ x'.parker a = .free ∧
            ∃ k, w.purpose r = some k ∧ w.stance t = .parked k true ∧ k.task = t ∧ k.axis = a ∧
              k.generation = x.generation) ∧
    w.pending.Finite ∧ w.floor.engine.stats.timersArmed = w.floor.engine.stats.timersFired +
      w.floor.engine.stats.timersCancelled + UInt64.ofNat w.pending.ncard := by
  have hs := h.sound
  have hlive : ∀ t x, w.floor.engine.task? t = some x →
      ∀ r, r ∈ w.live t ↔ x.timeout = some r := by
    intro t x hx r
    rw [mem_live hs, Engine.slot, hx, Option.bind_some]
  refine ⟨?_, ?_, fun _ _ _ hstep hy => hs.purpose_eq hstep hy, ?_, hs.kept.finite,
    hs.kept.counted⟩
  · intro t x hx _
    refine ⟨fun r hr s hs => ?_, hlive t x hx⟩
    have hknown := (hlive t x hx r).mp hr
    rw [(hlive t x hx s).mp hs] at hknown
    exact (Option.some.inj hknown).symm
  · intro t hover
    have hnone : ∀ x, w.floor.engine.task? t = some x → x.timeout = none :=
      fun x hx => (hs.steady t).rest x hx (hover x hx)
    refine ⟨Set.eq_empty_of_forall_notMem fun r hr => ?_, hnone⟩
    obtain ⟨x, hx, hr⟩ := Option.bind_eq_some_iff.mp ((mem_live hs).mp hr)
    rw [hnone x hx] at hr
    cases hr
  · intro now r y hdue hy hvalid
    refine ⟨fun hpark => ?_, fun t x hx => hs.fires hdue hy hvalid now hx⟩
    obtain ⟨k, hk, hcurrent, hfrees, -⟩ := hs.purpose hdue hy hvalid hpark
    exact ⟨k, hk, hcurrent.1, hfrees, h.numbered.purpose r k hk⟩

/-- A task that gave its carrier away for a bounded time, while its timeout is about to fire. -/
theorem keeps_one_timeout_that_fires : ∃ w : Watch Unit, Reached w ∧ w.floor.due = [⟨0, 0⟩] ∧
    w.live ⟨0⟩ = {⟨0, 0⟩} ∧
    (∃ k, w.purpose ⟨0, 0⟩ = some k ∧ k.task = ⟨0⟩ ∧ k.axis = .user ∧ w.stance ⟨0⟩ = .parked k true) ∧
    (w.floor.engine.task? ⟨0⟩).map (·.parker .user) = some .waiting ∧
    ((w.floor.engine.fire 30 ⟨0, 0⟩).task? ⟨0⟩).map (·.parker .user) = some .free := by
  have h0 := Reached.start (V := Unit)
    (show Engine.start { workers := 1 } 1 [] .absent = .ok _ from rfl)
  have h1 := h0.step (.plain (.other ⟨Engine.frame_updateCarrier (c := 0)
    (g := (·.enqueue (.start ⟨0, "", none⟩)))
    (fun x => by simp [Carrier.core, Carrier.enqueue, Runnable.isResume]) fun _ => rfl, rfl, rfl⟩))
  have h2 := h1.step (.plain (.take (c := 0) rfl (.own rfl)))
  have h3 := h2.step (.plain (.obtainFresh (c := 0) (s := ⟨0, "", none⟩) rfl))
  have h4 := h3.step (.plain (.assign (c := 0) rfl))
  have h5 := h4.step (.plain (.switchIn 5 (c := 0) rfl rfl rfl rfl rfl))
  have h6 := h5.step (.park (c := 0) (a := .user) true rfl rfl rfl rfl)
  have h7 := h6.step (.arm (c := 0) (p := ⟨⟨0⟩, 1, .user, 0⟩) 6 20 rfl rfl)
  have h8 := h7.step (.leave (c := 0) rfl fun _ => Stance.noConfusion)
  have h9 := h8.step (@Step.poll Unit _ 0 _ 30 rfl)
  obtain ⟨hone, -, -, hfires, -⟩ := h9.keeps_one_timeout
  obtain ⟨hlive, hknown⟩ := hone ⟨0⟩ _ rfl rfl
  have hr := (hknown ⟨0, 0⟩).mpr rfl
  obtain ⟨k, hk, htask, hfrees, -⟩ := (hfires 30 ⟨0, 0⟩
    (Timeout.make ⟨0⟩ 6 20 (.wakeCooperative .user) 0) (by decide +kernel) (by decide +kernel) rfl).1
      TimeoutAction.noConfusion
  cases hk
  refine ⟨_, h9, by decide +kernel, hlive.eq_singleton_of_mem hr, ⟨_, rfl, rfl, rfl, rfl⟩, rfl, ?_⟩
  decide +kernel

end Watch

end GreenThreads

import GreenThreads.Proofs.Floor.Anytime

/-!
# Operations of a carrier

What a carrier does between two looks around it, and what the task does that it runs, is made of
steps. The operations are those of the engine as they stand, carried out from the beginning to the
end while nobody else has a timeout to fire.
-/

namespace GreenThreads

namespace Engine

variable {V : Type} {e e' : Engine V} {c : Nat} {t : TaskId} {x : Carrier}

/-- Makes precise timeouts pending. -/
def registerAll (e : Engine V) (l : List Nat) : Engine V :=
  l.foldl (fun e number => e.register { owner := preciseOwner, number }) e

theorem register_updateCarrier (e : Engine V) (c k : Nat) (g : Carrier → Carrier) :
    (e.updateCarrier c g).register ⟨preciseOwner, k⟩ =
      (e.register ⟨preciseOwner, k⟩).updateCarrier c g := by
  simp only [register, updateTimers, if_true]
  rfl

theorem registerAll_updateCarrier (e : Engine V) (c : Nat) (g : Carrier → Carrier)
    (l : List Nat) : (e.updateCarrier c g).registerAll l = (e.registerAll l).updateCarrier c g := by
  induction l generalizing e with
  | nil => rfl
  | cons k l ih =>
      have htail := ih (e.register ⟨preciseOwner, k⟩)
      rw [← register_updateCarrier] at htail
      exact htail

theorem carriers_register (e : Engine V) (k : Nat) :
    (e.register ⟨preciseOwner, k⟩).carriers = e.carriers := by
  simp only [register, updateTimers, if_true]

theorem carriers_registerAll (e : Engine V) (l : List Nat) :
    (e.registerAll l).carriers = e.carriers := by
  induction l generalizing e with
  | nil => rfl
  | cons k l ih => exact (ih _).trans (e.carriers_register k)

theorem registerAll_vacate (e : Engine V) (c : Nat) (t : TaskId) (l : List Nat) :
    ((((e.vacate c t).registerAll l).updateCarrier c ({ · with pendingPrecise := [] })).updateCarrier c
      ({ · with deferred := none })) =
    ((e.updateCarrier c
      ({ · with current := none, state := .idle, deferred := none, pendingPrecise := [] })).updateTask t
        Task.switchedOut).registerAll l := by
  rw [updateCarrier_updateCarrier, ← registerAll_updateCarrier]
  have hvacate : (e.vacate c t).updateCarrier c
      (fun x => { x with pendingPrecise := [], deferred := none }) =
      ((e.updateCarrier c ({ · with current := none, state := .idle })).updateCarrier c
        (fun x => { x with pendingPrecise := [], deferred := none })).updateTask t
          Task.switchedOut := rfl
  rw [hvacate, updateCarrier_updateCarrier]

theorem taken_of_next? {r : Runnable} (h : e.next? c = some (r, e')) : e.Taken c r e' := by
  unfold next? at h
  split at h
  · next hown =>
      cases h
      exact .own hown
  · cases h
  · next hpull =>
      split at h
      · next hshared =>
          cases h
          exact .shared hpull hshared
      · split at h
        · cases h
        · next hruns =>
            obtain ⟨i, -, hi⟩ := List.exists_of_findSome?_eq_some h
            exact .stolen hpull (Bool.eq_false_iff.mpr fun hd => hruns (.inl hd)) hi

theorem carrier_of_steal? {task : Task} (hx : e.task? t = some task) (hid : task.id = t)
    (h : e.steal? c task = some e') : ∃ y, e'.task? t = some y ∧ y.carrier = some c := by
  unfold steal? at h
  split at h
  · cases h
  · cases h
    rw [hid, task?_updateTask_self, hx]
    refine ⟨_, rfl, ?_⟩
    simp only [Task.moveCarrier, if_true, Task.recordStolen]

end Engine

namespace Floor

variable {V : Type} {f : Floor V} {e : Engine V} {c : Nat} {t : TaskId} {s : Submission}

theorem getElem?_move {p : Phase} (hp : f.phases[c]? = some p) (p' : Phase) (e : Engine V) :
    (f.move c p' e).phases[c]? = some p' := by
  simp only [move, Array.getElem?_modify, if_true, hp, Option.map_some]

theorem getElem?_move_of_ne {d : Nat} (hd : c ≠ d) {p : Phase} {e : Engine V} :
    (f.move c p e).phases[d]? = f.phases[d]? := by
  simp only [move, Array.getElem?_modify, hd, if_false]

/-- Of two phases in turn only the last one counts. -/
theorem Reached.moved (f : Floor V) (p : Phase) {p' : Phase} {e e' : Engine V}
    (h : Reached ((f.move c p e).move c p' e')) : Reached (f.move c p' e') := by
  simp only [move, modify_modify] at h
  exact h

theorem Reached.disarm {p : Phase} (h : Reached f) (hdue : f.due = []) (hp : f.phases[c]? = some p)
    (busy : p = .resuming t ∨ p = .working t ∨ ∃ a, p = .blocked t a) :
    Reached { f with engine := f.engine.disarm t } := by
  have hdisarm := h.step (.disarm hp busy)
  have hwithdraw : f.engine.withdraw t f.due = f.engine.disarm t := by
    rw [hdue, Engine.withdraw_nil]
  rw [hwithdraw] at hdisarm
  exact hdisarm

/-! ## Resumptions -/

theorem Reached.resumeOwned {x : Task} (now : Nanos) (h : Reached f) (hdue : f.due = [])
    (hp : f.phases[c]? = some (.resuming t)) (hx : f.engine.task? t = some x)
    (hc : x.carrier = some c) : ∃ p, (p = .looking ∨ p = .working t) ∧
      Reached (f.move c p (f.engine.resumeOwned now c t)) := by
  have hframe := Engine.frame_checkQuota f.engine now t
  have hquota := h.step (.other hframe)
  dsimp only [Engine.resumeOwned]
  split
  · refine ⟨.looking, .inl rfl, ?_⟩
    have hcount := hquota.step (.other (Engine.frame_count _ .quotaThrottles))
    exact (hcount.disarm hdue hp (.inl rfl)).step (.throttle now _ hp)
  · split
    · next hnone =>
        obtain ⟨y, hy, -⟩ := hquota.sound.alive hp rfl
        rw [hnone] at hy
        cases hy
    · next y hy =>
        split
        · refine ⟨.looking, .inl rfl, ?_⟩
          have hcount := hquota.step (.other (Engine.frame_count _ .switchFailures))
          exact (hcount.step (.giveUp hp)).wakeFreed (f := f.move c .looking _) now
        · next hfree =>
            refine ⟨.working t, .inr rfl, ?_⟩
            obtain ⟨z, hz, hcore⟩ := hframe.exists_task hy
            rw [hx] at hz
            cases hz
            have hown : y.carrier = some c := (congrArg Task.carrier hcore).trans hc
            exact hquota.step (.switchIn now hp hy hown (by simpa using hfree))

/-- A task of another carrier is moved first, or else woken again. -/
theorem Reached.resume (now : Nanos) (h : Reached f) (hdue : f.due = [])
    (hp : f.phases[c]? = some (.resuming t)) : ∃ p, (p = .looking ∨ p = .working t) ∧
      Reached (f.move c p (f.engine.resume now c t)) := by
  obtain ⟨x, hx, halive⟩ := h.sound.alive hp rfl
  simp only [Engine.resume, hx, halive, ne_eq, not_true_eq_false, if_false]
  split
  · next hown => exact h.resumeOwned now hdue hp hx hown
  · next hforeign =>
      split
      · next e hsteal =>
          have hstolen := h.step (.steal hp hx hforeign hsteal)
          have hcount := hstolen.step (.other (Engine.frame_count _ .stealSuccesses))
          obtain ⟨y, hy, hown⟩ := Engine.carrier_of_steal? hx (h.sound.roster.id t x hx) hsteal
          exact hcount.resumeOwned now hdue hp hy hown
      · refine ⟨.looking, .inl rfl, ?_⟩
        have hcount := h.step (.other (Engine.frame_count _ .stealFailures))
        exact (hcount.step (.giveUp hp)).wakeFreed (f := f.move c .looking _) now

/-! ## Dispatch -/

/-- A task for new work is taken from some pool, or made. -/
theorem Reached.obtain (h : Reached f) (hp : f.phases[c]? = some (.holding (.start s))) :
    Reached (f.move c (.readying (f.engine.obtain c).2 s) (f.engine.obtain c).1) := by
  unfold Engine.obtain
  split
  · next t e hpop =>
      exact (h.step (.obtainPooled hp (.own hpop))).step (.other (Engine.frame_count _ _))
  · split
    · next t pool hpop =>
        exact (h.step (.obtainPooled hp (.shared hpop))).step (.other (Engine.frame_count _ _))
    · split
      · next t e hpop =>
          split at hpop
          · cases hpop
          · obtain ⟨i, -, hi⟩ := List.exists_of_findSome?_eq_some hpop
            exact (h.step (.obtainPooled hp (.own hi))).step (.other (Engine.frame_count _ _))
      · exact h.step (.obtainFresh hp)

theorem Reached.enter (now : Nanos) (g : Option GroupId) (h : Reached f) (hdue : f.due = [])
    (hp : f.phases[c]? = some (.resuming t)) : ∃ p, (p = .looking ∨ p = .working t) ∧
      Reached (f.move c p ((match g with
        | some g => (f.engine.attach now t g).1
        | none => f.engine).resume now c t)) := by
  cases g with
  | none => exact h.resume now hdue hp
  | some g => exact (h.step (.other (Engine.frame_attach _ now t g))).resume now hdue hp

theorem Reached.begin (now : Nanos) (h : Reached f) (hdue : f.due = [])
    (hp : f.phases[c]? = some (.holding (.start s))) :
    ∃ p, (p = .looking ∨ ∃ t, p = .working t) ∧
      Reached (f.move c p (f.engine.begin now c s)) := by
  dsimp only [Engine.begin]
  split
  · refine ⟨.looking, .inl rfl, ?_⟩
    have hover := (anytime_abandonJob now s.job f h).step (.other (Engine.frame_finishOne _))
    exact hover.step (.abandon hp)
  · have hready := (h.obtain hp).step
      (.other (Engine.frame_ensureContext _ (f.engine.obtain c).2))
    have hassign := hready.step (.assign (getElem?_move hp _ _))
    obtain ⟨p, hp', henter⟩ := hassign.enter now s.group hdue
      (getElem?_move (getElem?_move hp _ _) _ _)
    refine ⟨p, hp'.imp_right fun hw => ⟨_, hw⟩, ?_⟩
    have hmoved := henter.moved (f.move c (.readying _ s) _) (.resuming _)
    exact hmoved.moved f (.readying _ s)

/-- A carrier that looks for something to do takes an entry and works it off. -/
theorem Reached.dispatch {r : Runnable} (now : Nanos) (h : Reached f) (hdue : f.due = [])
    (hp : f.phases[c]? = some .looking) (hn : f.engine.next? c = some (r, e)) :
    ∃ p, (p = .looking ∨ ∃ t, p = .working t) ∧ Reached (f.move c p (e.dispatch now c r)) := by
  have htake := h.step (.take hp (Engine.taken_of_next? hn))
  have hholds := getElem?_move hp (.holding r) e
  cases r with
  | start s =>
      obtain ⟨p, hp', hbegin⟩ := htake.begin now hdue hholds
      exact ⟨p, hp', hbegin.moved f (.holding (.start s))⟩
  | resume t =>
      have hunmark := htake.step (.unmark hholds)
      obtain ⟨p, hp', hresume⟩ := hunmark.resume now hdue (getElem?_move hholds _ _)
      refine ⟨p, hp'.imp_right fun hw => ⟨t, hw⟩, ?_⟩
      exact (hresume.moved (f.move c (.holding (.resume t)) e) (.resuming t)).moved f _

/-! ## Switching out -/

theorem Reached.registerAll {x : Carrier} {l : List Nat} (h : Reached f)
    (hp : f.phases[c]? = some .settling) (hx : f.engine.carriers[c]? = some x)
    (hl : x.pendingPrecise = l) :
    Reached { f with
      engine := (f.engine.registerAll l).updateCarrier c ({ · with pendingPrecise := [] }) } := by
  induction l generalizing f x with
  | nil =>
      have hsame : f.engine.updateCarrier c ({ · with pendingPrecise := [] }) = f.engine :=
        Engine.updateCarrier_eq_self hx (by rw [← hl])
      have hengine : f.engine.registerAll [] = f.engine := rfl
      rw [hengine, hsame]
      exact h
  | cons k l ih =>
      have hstep := h.step (.register hp hx hl)
      rw [Engine.register_updateCarrier] at hstep
      have hcarriers : ((f.engine.register ⟨Engine.preciseOwner, k⟩).updateCarrier c
          ({ · with pendingPrecise := l })).carriers[c]? =
          some { x with pendingPrecise := l } := by
        rw [Engine.getElem?_updateCarrier, if_pos rfl, Engine.carriers_register, hx,
          Option.map_some]
      have hall := ih hstep hp hcarriers rfl
      dsimp only at hall
      rw [Engine.registerAll_updateCarrier, Engine.updateCarrier_updateCarrier] at hall
      exact hall

theorem Reached.switchOut {parked : Option Axis} (now : Nanos) (h : Reached f)
    (hp : f.phases[c]? = some (.leaving t parked)) :
    Reached (f.move c .looking (f.engine.switchOut now c)) := by
  have hlt := h.sound.lt_size hp
  have hx := Array.getElem?_eq_getElem hlt
  obtain ⟨hcurrent, -⟩ := h.sound.placed c _ _ hp hx
  generalize f.engine.carriers[c] = x at hx hcurrent
  have hvacated : (f.engine.vacate c t).carriers[c]? =
      some { x with current := none, state := .idle } := by
    have hget := f.engine.getElem?_updateCarrier c c ({ · with current := none, state := .idle })
    rw [if_pos rfl, hx] at hget
    exact hget
  obtain ⟨e', he'⟩ : ∃ e', e' = ((f.engine.vacate c t).registerAll x.pendingPrecise).updateCarrier c
    ({ · with pendingPrecise := [] }) := ⟨_, rfl⟩
  have hregistered : e'.carriers[c]? =
      some { x with current := none, state := .idle, pendingPrecise := [] } := by
    rw [he', Engine.getElem?_updateCarrier, if_pos rfl, Engine.carriers_registerAll, hvacated,
      Option.map_some]
  have hleft : Reached (f.move c .settling e') := by
    rw [he']
    exact (h.step (.leave hp)).registerAll (getElem?_move hp _ _) hvacated rfl
  have hengine := f.engine.registerAll_vacate c t x.pendingPrecise
  rw [← he'] at hengine
  have hsettling := getElem?_move hp .settling e'
  simp only [Engine.switchOut, hx, hcurrent]
  cases hdeferred : x.deferred with
  | none =>
      have hsettle := (hleft.step (.settle hsettling hregistered rfl hdeferred)).moved f .settling
      rw [Engine.updateCarrier_eq_self hregistered (by rw [← hdeferred])] at hengine
      have hend : Reached (f.move c .looking e') := hsettle
      rw [hengine] at hend
      exact hend
  | some u =>
      have hundefer := hleft.step (.undefer hsettling hregistered hdeferred)
      have hnext : (e'.updateCarrier c ({ · with deferred := none })).carriers[c]? =
          some { x with current := none, state := .idle, pendingPrecise := [], deferred := none } := by
        rw [Engine.getElem?_updateCarrier, if_pos rfl, hregistered, Option.map_some]
      have hsettle := (hundefer.step (.settle hsettling hnext rfl rfl)).moved
        { f with freed := u :: f.freed } .settling
      have hend : Reached { f.move c .looking (e'.updateCarrier c ({ · with deferred := none })) with
          freed := u :: f.freed } := hsettle
      rw [hengine] at hend
      exact hend.wakeFreed (f := f.move c .looking e') now

theorem Reached.giveAway {parked : Option Axis} (now : Nanos) (h : Reached f)
    (hp : f.phases[c]? = some (.leaving t parked)) :
    Reached (f.move c .looking (f.engine.giveAway now c t)) :=
  (h.step (.other (Engine.frame_accountRun _ now t))).switchOut now hp

theorem Reached.retire (now : Nanos) (h : Reached f) (hp : f.phases[c]? = some (.working t)) :
    Reached (f.move c .looking ((f.engine.recycle c t).switchOut now c)) := by
  have hretire := h.step (.retire hp)
  have hout := hretire.switchOut now (getElem?_move hp _ _)
  exact hout.moved f (.leaving t none)

theorem Reached.exit (now : Nanos) (h : Reached f) (hdue : f.due = [])
    (hp : f.phases[c]? = some (.working t)) :
    Reached (f.move c .looking (f.engine.exit now c t)) := by
  have hchannel := h.step (.other (Engine.frame_unregisterChannel _ t))
  have hdisarm := hchannel.disarm hdue hp (.inr (.inl rfl))
  have haccount := hdisarm.step (.other (Engine.frame_accountRun _ now t))
  have hover : ∀ e : Engine V, Reached { f with engine := e } → Reached (f.move c .looking
      (({ e with live := e.live.filter (· != t) }.finishOne.recycle c t).switchOut now c)) := by
    intro e he
    have hclosed := he.step (.other (e := { e with live := e.live.filter (· != t) }.finishOne)
      (Engine.frame_of_eq rfl rfl rfl rfl rfl (fun _ h => .inl h) rfl))
    exact hclosed.retire now hp
  dsimp only [Engine.exit]
  split
  · next g _ => exact hover _ (haccount.step (.other (Engine.frame_detach _ now t g)))
  · exact hover _ haccount

end Floor

end GreenThreads

import GreenThreads.Proofs.Workshop.Sound

/-!
# Where the work comes from

A task on the bench was there before, with the same work, or a carrier had it ready for that work;
and a carrier has a task ready only for work that it found worth beginning.
-/

namespace GreenThreads

namespace Workshop

open Engine

variable {V : Type} {w w' : Workshop V} {e : Engine V} {s s' : Stint} {t : TaskId} {c d : Nat}
  {j : JobId} {x y : Task} {p : Stage} {q : Phase} {a : Submission}

/-! ## Carriers that have a task ready -/

theorem readying_move (at_ : (w.move d q e).floor.phases[c]? = some (.readying t a)) :
    q = .readying t a ∨ w.floor.phases[c]? = some (.readying t a) := by
  have hget : (w.floor.phases.modify d fun _ => q)[c]? = some (.readying t a) := at_
  rw [Array.getElem?_modify] at hget
  split at hget
  · obtain ⟨-, -, hq⟩ := Option.map_eq_some_iff.mp hget
    exact .inl hq
  · exact .inr hget

theorem Aside.readying (h : Aside w w') (at_ : w'.floor.phases[c]? = some (.readying t a)) :
    w.floor.phases[c]? = some (.readying t a) := by
  obtain ⟨p, hp, herrand⟩ := exists_of_map_eq h.errands at_
  rw [Phase.eq_of_errand_readying herrand.symm] at hp
  exact hp

theorem Work.readying (h : Work w w') (at_ : w'.floor.phases[c]? = some (.readying t a)) :
    w.floor.phases[c]? = some (.readying t a) ∨ w.engine.isMoot a = false := by
  cases h with
  | take => exact .inl ((readying_move at_).resolve_left Phase.noConfusion)
  | abandon => exact .inl ((readying_move at_).resolve_left Phase.noConfusion)
  | obtain _ sound _ =>
      rcases readying_move at_ with heq | hold
      · cases heq
        exact .inr sound
      · exact .inl hold
  | give => exact .inl ((readying_move at_).resolve_left Phase.noConfusion)
  | exit => exact .inl ((readying_move at_).resolve_left Phase.noConfusion)
  | bind | pass | knock | enroll | run | enter | detach | finish => exact .inl at_

/-! ## The bench -/

theorem mem_advance (hs' : s' ∈ (w.advance s p).bench) :
    s' = { s with stage := p } ∨ s' ∈ w.bench := by
  cases hs' with
  | head => exact .inl rfl
  | tail _ hs' => exact .inr (List.mem_of_mem_erase hs')

/-- Who has work had it before, or was ready for it and is in no group yet. A task is about to join
a group only if it was before or found the group open. -/
theorem Work.origin (h : Work w w') (hs' : s' ∈ w'.bench) :
    (∃ s ∈ w.bench, s.task = s'.task ∧ s.work = s'.work ∧ ∀ g begun, s'.stage = .joining g begun →
      s.stage = .joining g begun ∨ w.engine.isGone (some g) = false) ∨
    (s'.stage = .given ∧ ∀ y, w'.engine.task? s'.task = some y → y.group = none) ∧
      ∃ c : Nat, w.floor.phases[c]? = some (Phase.readying s'.task s'.work) := by
  have hkept : s' ∈ w.bench → ∃ s ∈ w.bench, s.task = s'.task ∧ s.work = s'.work ∧
      ∀ g begun, s'.stage = .joining g begun →
        s.stage = .joining g begun ∨ w.engine.isGone (some g) = false :=
    fun hold => ⟨s', hold, rfl, rfl, fun _ _ => .inl⟩
  have hadvance : ∀ {s : Stint} {p : Stage}, s ∈ w.bench → s' ∈ (w.advance s p).bench →
      (∀ g begun, p = .joining g begun → w.engine.isGone (some g) = false) →
      ∃ s ∈ w.bench, s.task = s'.task ∧ s.work = s'.work ∧ ∀ g begun,
        s'.stage = .joining g begun →
          s.stage = .joining g begun ∨ w.engine.isGone (some g) = false := by
    intro s p hs hs' hp
    rcases mem_advance hs' with rfl | hold
    · exact ⟨s, hs, rfl, rfl, fun g begun heq => .inr (hp g begun heq)⟩
    · exact hkept hold
  cases h with
  | take | abandon | obtain | detach => exact .inl (hkept hs')
  | @give c t a at_ =>
      cases hs' with
      | head =>
          refine .inr ⟨⟨rfl, fun y hy => ?_⟩, c, at_⟩
          have hy : (w.engine.updateTask t (Floor.assigned c a)).task? t = some y := hy
          rw [task?_updateTask_self] at hy
          obtain ⟨x, -, rfl⟩ := Option.map_eq_some_iff.mp hy
          rfl
      | tail _ hs' => exact .inl (hkept hs')
  | bind on => exact .inl (hadvance on hs' fun _ _ => Stage.noConfusion)
  | pass on => exact .inl (hadvance on hs' fun _ _ => Stage.noConfusion)
  | knock on _ _ stands =>
      refine .inl (hadvance on hs' fun g begun heq => ?_)
      cases heq
      exact stands
  | @enroll s g begun now on =>
      refine .inl (hadvance on hs' fun g' begun' heq => ?_)
      cases begun <;> cases heq
  | run on => exact .inl (hadvance on hs' fun _ _ => Stage.noConfusion)
  | enter on _ _ stands =>
      refine .inl (hadvance on hs' fun g begun heq => ?_)
      cases heq
      exact stands
  | finish _ on => exact .inl (hadvance on hs' fun _ _ => Stage.noConfusion)
  | exit => exact .inl (hkept (List.mem_of_mem_erase hs'))

theorem Work.pending (h : Work w w') (hj : j ∈ w'.pending) : j ∈ w.pending := by
  cases h with
  | take at_ ht => exact (pending_take at_ ht).mem_iff.mp hj
  | @abandon c s at_ =>
      exact (pending_hand (e := w.engine.giveUp s.job) at_ .looking rfl rfl rfl).mem_iff.mp (.tail _ hj)
  | @obtain c s t e at_ _ ho =>
      exact (pending_move at_ (.readying t s) rfl ho.starts).mem_iff.mp hj
  | @give c t s at_ =>
      exact (pending_hand (e := w.engine.updateTask t (Floor.assigned c s)) at_ (.resuming t) rfl rfl
        rfl).mem_iff.mp (.tail _ hj)
  | bind | pass | knock | run | enter | finish => exact hj
  | @enroll s g begun now =>
      have hsame := pending_put (starts_enroll w.engine now s.task g)
      rw [← hsame]
      exact hj
  | @detach c s g now =>
      have hsame := pending_put (sameWork_detach w.engine now s.task g).starts
      rw [← hsame]
      exact hj
  | @exit c s x _ _ at_ =>
      have hstarts := (sameWork_recycle (w.engine.signOff s.task) c s.task).1
      exact (pending_move at_ (.leaving s.task none) rfl hstarts).mem_iff.mp hj

theorem Aside.pending (h : Aside w w') : w'.pending = w.pending := by
  rw [Workshop.pending, Floor.hands_of_errands h.errands, h.starts, Workshop.pending]

/-! ## What a step changes -/

/-- What becomes of a task: the work that it has stays as it is, or is new, or the task is kept for
reuse or destroyed. -/
theorem Work.task_cases (hw : Work w w') (hx : w.engine.task? t = some x) :
    ∃ y, w'.engine.task? t = some y ∧ (x.Steady y ∨
      (∃ (c : Nat) (a : Submission), w.floor.phases[c]? = some (.readying t a) ∧
        y = Floor.assigned c a x) ∨
      ∃ n, y = { x with status := n }) := by
  cases hw with
  | take _ ht =>
      obtain ⟨y, hy, hxy⟩ := ht.left.steady.tasks t x hx
      exact ⟨y, hy, .inl hxy⟩
  | obtain _ _ ho =>
      obtain ⟨y, hy, hxy⟩ := ho.steady.tasks t x hx
      exact ⟨y, hy, .inl hxy⟩
  | @enroll s g _ now =>
      obtain ⟨y, hy, hxy⟩ := (steady_enroll w.engine now s.task g).tasks t x hx
      exact ⟨y, hy, .inl hxy⟩
  | @detach c s g now =>
      obtain ⟨y, hy, hxy⟩ := (steady_detach w.engine now s.task g).tasks t x hx
      exact ⟨y, hy, .inl hxy⟩
  | abandon | bind | pass | knock | run | enter | finish => exact ⟨x, hx, .inl (.refl x)⟩
  | @give c u a at_ =>
      have htask := task?_updateTask w.engine u t (Floor.assigned c a)
      split at htask
      · next hu =>
          subst hu
          rw [hx] at htask
          exact ⟨_, htask, .inr (.inl ⟨c, a, at_, rfl⟩)⟩
      · exact ⟨x, htask.trans hx, .inl (.refl x)⟩
  | @exit c s =>
      obtain ⟨n, carriers, pool, stats, hrecycle⟩ :=
        recycle_eq (w.engine.signOff s.task) c s.task
      have htask : ((w.engine.signOff s.task).recycle c s.task).task? t =
          (w.engine.updateTask s.task ({ · with status := n })).task? t := by
        rw [hrecycle]
        rfl
      rw [task?_updateTask] at htask
      split at htask
      · rw [hx] at htask
        exact ⟨_, htask, .inr (.inr ⟨n, rfl⟩)⟩
      · exact ⟨x, htask.trans hx, .inl (.refl x)⟩

/-- What becomes of a cell: it names the same task as before and forgets no cancellation, or it is
told of the task that has the work. -/
theorem Work.cell_cases (hw : Work w w') {cell : Join V} (hj : w.engine.jobs[j]? = some cell) :
    ∃ cell', w'.engine.jobs[j]? = some cell' ∧
      (cell'.binding = cell.binding ∧
        (cell.cancelRequested = true → cell'.cancelRequested = true) ∨
      ∃ s ∈ w.bench, s.stage = .given ∧ s.work.job = j ∧ ∃ x, w.engine.task? s.task = some x ∧
        w'.engine.task? s.task = some x ∧ cell' = cell.bind ⟨s.task, x.generation⟩) := by
  have hsteady : w.engine.Steady w'.engine → ∃ cell', w'.engine.jobs[j]? = some cell' ∧
      cell'.binding = cell.binding ∧
        (cell.cancelRequested = true → cell'.cancelRequested = true) := by
    intro hsteady
    obtain ⟨cell', hj', hcell⟩ := hsteady.jobs j cell hj
    exact ⟨cell', hj', hcell.binding, hcell.requested⟩
  have hupdate : ∀ (i : JobId) (k : Join V → Join V),
      (w.engine.jobs.modify i k)[j]? = some (if i = j then k cell else cell) := by
    intro i k
    rw [Array.getElem?_modify, hj]
    split <;> rfl
  cases hw with
  | take _ ht =>
      obtain ⟨cell', hj', hcell⟩ := hsteady ht.left.steady
      exact ⟨cell', hj', .inl hcell⟩
  | obtain _ _ ho =>
      obtain ⟨cell', hj', hcell⟩ := hsteady ho.steady
      exact ⟨cell', hj', .inl hcell⟩
  | @enroll s g _ now =>
      obtain ⟨cell', hj', hcell⟩ := hsteady (steady_enroll w.engine now s.task g)
      exact ⟨cell', hj', .inl hcell⟩
  | @detach c s g now =>
      obtain ⟨cell', hj', hcell⟩ := hsteady (steady_detach w.engine now s.task g)
      exact ⟨cell', hj', .inl hcell⟩
  | give | pass | knock | run | enter => exact ⟨cell, hj, .inl ⟨rfl, fun hr => hr⟩⟩
  | @abandon c a =>
      refine ⟨_, hupdate a.job fun cell => cell.abandon.1, .inl ?_⟩
      split <;> exact ⟨rfl, fun hr => hr⟩
  | @finish c s outcome =>
      refine ⟨_, hupdate s.work.job fun cell => (cell.finish outcome).1, .inl ?_⟩
      split <;> exact ⟨rfl, fun hr => hr⟩
  | @bind s x on stage found =>
      refine ⟨_, hupdate s.work.job (·.bind ⟨s.task, x.generation⟩), ?_⟩
      split
      · next hi => exact .inr ⟨s, on, stage, hi, x, found, found, rfl⟩
      · exact .inl ⟨rfl, fun hr => hr⟩
  | @exit c s =>
      have hjobs := (sameWork_recycle (w.engine.signOff s.task) c s.task).2.2.1
      exact ⟨cell, (congrArg (·[j]?) hjobs).trans hj, .inl ⟨rfl, fun hr => hr⟩⟩

theorem Work.files (hw : Work w w') : w'.engine.jobs.size = w.engine.jobs.size := by
  cases hw with
  | take _ ht => exact ht.left.steady.files
  | obtain _ _ ho => exact ho.steady.files
  | @enroll s g _ now => exact (steady_enroll w.engine now s.task g).files
  | @detach c s g now => exact (steady_detach w.engine now s.task g).files
  | give | pass | knock | run | enter => rfl
  | abandon | bind | finish => exact Array.size_modify
  | @exit c s =>
      exact congrArg Array.size (sameWork_recycle (w.engine.signOff s.task) c s.task).2.2.1

/-! ## What all steps have in common -/

theorem Work.task (hw : Work w w') (h : Sound w) (hs : s ∈ w.bench)
    (hy : w'.engine.task? s.task = some y) : ∃ x, w.engine.task? s.task = some x ∧
      y.generation = x.generation ∧ (x.cancelled = true → y.cancelled = true) := by
  obtain ⟨x, hx, halive⟩ := h.alive hs
  obtain ⟨y', hy', hcases⟩ := hw.task_cases hx
  rw [hy] at hy'
  cases hy'
  refine ⟨x, hx, ?_⟩
  rcases hcases with hsteady | ⟨c, a, at_, -⟩ | ⟨n, rfl⟩
  · exact ⟨hsteady.generation, hsteady.cancelled⟩
  · -- Who is given work has none.
    obtain ⟨z, hz, hended⟩ := h.floor.sound.ended at_
    rw [hx] at hz
    cases hz
    rw [hended.cached] at halive
    cases halive
  · exact ⟨rfl, fun hc => hc⟩

theorem Work.past (hw : Work w w') (hx : w.engine.task? t = some x) :
    ∃ y, w'.engine.task? t = some y ∧ x.Later y := by
  obtain ⟨y, hy, hcases⟩ := hw.task_cases hx
  refine ⟨y, hy, ?_⟩
  rcases hcases with hsteady | ⟨c, a, -, rfl⟩ | ⟨n, rfl⟩
  · exact hsteady.later
  · exact .inr (Nat.lt_succ_self x.generation)
  · exact .inl ⟨rfl, rfl⟩

/-- The cell of a piece of work forgets neither who carries the work nor that it was to be
cancelled. -/
theorem Work.cell (hw : Work w w') (h : Sound w) {cell : Join V}
    (hj : w.engine.jobs[j]? = some cell) : ∃ cell', w'.engine.jobs[j]? = some cell' ∧
      cell.Later cell' := by
  obtain ⟨cell', hj', hcases⟩ := hw.cell_cases hj
  refine ⟨cell', hj', ?_⟩
  rcases hcases with ⟨hbinding, hrequested⟩ | ⟨s, hs, hgiven, rfl, x, -, -, rfl⟩
  · exact ⟨fun b hb => hbinding.trans hb, hrequested⟩
  · refine ⟨fun b hb => ?_, fun hr => hr⟩
    -- No task was named before.
    obtain ⟨_, cell', -, -, hcell', hnone, -⟩ := h.duty s hs
    rw [hj] at hcell'
    cases hcell'
    rw [if_pos hgiven, hb] at hnone
    cases hnone

theorem Work.bound (hw : Work w w') (h : Sound w) {cell' : Join V} {b : Binding}
    (hj : w'.engine.jobs[j]? = some cell') (hb : cell'.binding = some b) :
    (∃ cell, w.engine.jobs[j]? = some cell ∧ cell.binding = some b) ∨
    ∃ y, w'.engine.task? b.task = some y ∧ y.generation = b.generation ∧ y.job = some j := by
  have hlt : j < w.engine.jobs.size := hw.files ▸ (Array.getElem?_eq_some_iff.mp hj).1
  have hold := Array.getElem?_eq_getElem hlt
  obtain ⟨cell'', hj'', hcases⟩ := hw.cell_cases hold
  rw [hj] at hj''
  cases hj''
  rcases hcases with ⟨hbinding, -⟩ | ⟨s, hs, -, rfl, x, hx, hx', rfl⟩
  · exact .inl ⟨_, hold, hbinding.symm.trans hb⟩
  · cases hb
    obtain ⟨y, -, hy, hjob, -⟩ := h.duty s hs
    rw [hx] at hy
    cases hy
    exact .inr ⟨x, hx', rfl, hjob⟩

/-- What no step undoes: a piece of work is begun only if it was found worth beginning, who carries
it stays known, and so does who was cancelled. -/
structure Onward (w w' : Workshop V) : Prop where
  cells : ∀ (j : JobId) cell, w.engine.jobs[j]? = some cell →
    ∃ cell', w'.engine.jobs[j]? = some cell' ∧ cell.Later cell'
  readying : ∀ (c : Nat) t a, w'.floor.phases[c]? = some (Phase.readying t a) →
    w.floor.phases[c]? = some (Phase.readying t a) ∨ w.engine.isMoot a = false
  bench : ∀ s' ∈ w'.bench,
    (∃ s ∈ w.bench, s.task = s'.task ∧ s.work = s'.work ∧ ∀ g begun, s'.stage = .joining g begun →
      s.stage = .joining g begun ∨ w.engine.isGone (some g) = false) ∨
    (s'.stage = .given ∧ ∀ y, w'.engine.task? s'.task = some y → y.group = none) ∧
      ∃ c : Nat, w.floor.phases[c]? = some (Phase.readying s'.task s'.work)
  tasks : ∀ s ∈ w.bench, ∀ y, w'.engine.task? s.task = some y →
    ∃ x, w.engine.task? s.task = some x ∧ y.generation = x.generation ∧
      (x.cancelled = true → y.cancelled = true)
  past : ∀ t x, w.engine.task? t = some x → ∃ y, w'.engine.task? t = some y ∧ x.Later y
  bound : ∀ (j : JobId) cell' b, w'.engine.jobs[j]? = some cell' → cell'.binding = some b →
    (∃ cell, w.engine.jobs[j]? = some cell ∧ cell.binding = some b) ∨
    ∃ y, w'.engine.task? b.task = some y ∧ y.generation = b.generation ∧ y.job = some j

theorem Onward.refl (w : Workshop V) : Onward w w :=
  ⟨fun _ cell hj => ⟨cell, hj, .refl cell⟩, fun _ _ _ at_ => .inl at_,
    fun s hs => .inl ⟨s, hs, rfl, rfl, fun _ _ => .inl⟩, fun _ _ y hy => ⟨y, hy, rfl, fun hc => hc⟩,
    fun _ x hx => ⟨x, hx, .refl x⟩, fun _ cell _ hj hb => .inl ⟨cell, hj, hb⟩⟩

theorem Work.onward (hw : Work w w') (h : Sound w) : Onward w w' :=
  ⟨fun _ _ hj => hw.cell h hj, fun _ _ _ at_ => hw.readying at_, fun _ hs' => hw.origin hs',
    fun _ hs _ hy => hw.task h hs hy, fun _ _ hx => hw.past hx, fun _ _ _ hj hb => hw.bound h hj hb⟩

theorem Aside.onward (ha : Aside w w') (h : Sound w) : Onward w w' := by
  refine ⟨fun j cell hj => ?_, fun _ _ _ at_ => .inl (ha.readying at_), fun s' hs' => ?_,
    fun s hs y hy => ?_, fun t x hx => ?_, fun j cell' b hj' hb => .inl ?_⟩
  · obtain ⟨cell', hj', hcell⟩ := ha.steady.jobs j cell hj
    exact ⟨cell', hj', hcell.later⟩
  · rw [ha.bench] at hs'
    exact .inl ⟨s', hs', rfl, rfl, fun _ _ => .inl⟩
  · obtain ⟨x, hx, -⟩ := h.alive hs
    obtain ⟨y', hy', hxy⟩ := ha.steady.tasks _ x hx
    rw [hy] at hy'
    cases hy'
    exact ⟨x, hx, hxy.generation, hxy.cancelled⟩
  · obtain ⟨y, hy, hxy⟩ := ha.steady.tasks t x hx
    exact ⟨y, hy, hxy.later⟩
  · obtain ⟨cell, hj, hcell⟩ := ha.steady.exists_job hj'
    exact ⟨cell, hj, hcell.binding.symm.trans hb⟩

theorem onward_place (w : Workshop V) (caller : Option TaskId) (name : String)
    (group : Option GroupId) : Onward w (w.place caller name group) := by
  have htask : ∀ t, (w.place caller name group).engine.task? t = w.engine.task? t :=
    fun t => task?_place w caller name group
  refine ⟨fun j cell hj => ⟨cell, ?_, .refl cell⟩, fun _ _ _ at_ => .inl at_,
    fun s' hs' => .inl ⟨s', hs', rfl, rfl, fun _ _ => .inl⟩,
    fun s _ y hy => ⟨y, (htask s.task).symm.trans hy, rfl, fun hc => hc⟩,
    fun t x hx => ⟨x, (htask t).trans hx, .refl x⟩, fun j cell' b hj' hb => .inl ⟨cell', ?_, hb⟩⟩
  · rw [jobs_place, Array.getElem?_push,
      if_neg (Nat.ne_of_lt (Array.getElem?_eq_some_iff.mp hj).1)]
    exact hj
  · rw [jobs_place, Array.getElem?_push] at hj'
    split at hj'
    · cases hj'
      cases hb
    · exact hj'

end Workshop

end GreenThreads

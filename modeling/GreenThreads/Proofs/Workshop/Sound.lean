import GreenThreads.Proofs.Ledger.Sound
import GreenThreads.Proofs.Workshop.Steps

/-!
# Every piece of work is in one place

Work that was accepted waits in a run queue, is in the hand of a carrier, is on the bench with the
task that has it, or is settled. The cell of the work names the task as soon as it was told. This
holds between any two steps, whatever else happens on the floor.
-/

namespace GreenThreads

namespace Floor

variable {V : Type} {f f' : Floor V} {c : Nat} {p : Phase} {s : Submission}

theorem hands_of_errands (h : f'.phases.map Phase.errand = f.phases.map Phase.errand) :
    f'.hands = f.hands := by
  have hflat := congrArg (·.toList.flatMap Phase.inHand) h
  simp only [Array.toList_map, List.flatMap_map, Phase.inHand_errand] at hflat
  exact hflat

theorem hands_move (at_ : f.phases[c]? = some p) (p' : Phase) (e : Engine V) :
    ((f.move c p' e).hands ++ p.inHand).Perm (f.hands ++ p'.inHand) := by
  unfold hands move
  rw [Array.toList_modify]
  exact flatMap_modify_perm Phase.inHand (fun _ => p') _ c (by rw [Array.getElem?_toList]; exact at_)

theorem hands_move_of_eq (at_ : f.phases[c]? = some p) (p' : Phase) (h : p'.inHand = p.inHand)
    (e : Engine V) : (f.move c p' e).hands.Perm f.hands := by
  have hmove := hands_move at_ p' e
  rw [h] at hmove
  exact (List.perm_append_right_iff _).mp hmove

theorem mem_hands (at_ : f.phases[c]? = some p) (h : s ∈ p.inHand) : s ∈ f.hands :=
  List.mem_flatMap.mpr ⟨p, Array.mem_toList_iff.mpr (Array.mem_of_getElem? at_), h⟩

end Floor

namespace Workshop

open Engine

variable {V : Type} {w w' : Workshop V} {e : Engine V} {f : Floor V} {s s' : Stint}
  {bench : List Stint} {t : TaskId} {c : Nat} {j : JobId} {g : GroupId} {x : Task}
  {p : Stage} {q : Phase} {a : Submission}

/-- The work that no task has yet. -/
def pending (w : Workshop V) : List JobId := (w.floor.hands ++ w.engine.starts).map (·.job)

/-- The work that tasks have. -/
def tasked (w : Workshop V) : List JobId := w.bench.map (·.work.job)

/-! ## Work that no task has yet -/

theorem place_eq_put (w : Workshop V) (caller : Option TaskId) (name : String)
    (group : Option GroupId) : ∃ carriers shared, w.place caller name group =
      w.put { w.engine.makeJob.1.count .tasksSubmitted with carriers, shared } := by
  obtain ⟨carriers, shared, hplace⟩ := place_eq (w.engine.makeJob.1.count .tasksSubmitted) caller
    { job := w.engine.makeJob.2, name, group }
  exact ⟨carriers, shared, congrArg w.put hplace⟩

theorem jobs_place (w : Workshop V) (caller : Option TaskId) (name : String)
    (group : Option GroupId) : (w.place caller name group).engine.jobs = w.engine.jobs.push {} := by
  obtain ⟨carriers, shared, hplace⟩ := w.place_eq_put caller name group
  rw [hplace]
  rfl

theorem task?_place (w : Workshop V) (caller : Option TaskId) (name : String)
    (group : Option GroupId) : (w.place caller name group).engine.task? t = w.engine.task? t := by
  obtain ⟨carriers, shared, hplace⟩ := w.place_eq_put caller name group
  rw [hplace]
  rfl

theorem pending_put (hstarts : e.starts = w.engine.starts) : (w.put e).pending = w.pending :=
  congrArg (fun l => (w.floor.hands ++ l).map Submission.job) hstarts

theorem pending_take (at_ : w.floor.phases[c]? = some .looking)
    (ht : w.engine.Taken c (.start a) e) :
    (w.move c (.holding (.start a)) e).pending.Perm w.pending := by
  have hhands : (w.move c (.holding (.start a)) e).floor.hands.Perm (w.floor.hands ++ [a]) := by
    have hmove := Floor.hands_move at_ (.holding (.start a)) e
    rwa [show Phase.looking.inHand = [] from rfl, List.append_nil] at hmove
  refine List.Perm.map _ ((hhands.append_right _).trans ?_)
  rw [List.append_assoc]
  exact ht.left.starts.symm.append_left _

theorem pending_move (at_ : w.floor.phases[c]? = some q) (q' : Phase) (h : q'.inHand = q.inHand)
    (hstarts : e.starts = w.engine.starts) : (w.move c q' e).pending.Perm w.pending :=
  List.Perm.map _ (((Floor.hands_move_of_eq at_ q' h e).append_right _).trans
    (.of_eq (congrArg _ hstarts)))

theorem pending_hand (at_ : w.floor.phases[c]? = some q) (q' : Phase) (h : q.inHand = [a])
    (h' : q'.inHand = []) (hstarts : e.starts = w.engine.starts) :
    (a.job :: (w.move c q' e).pending).Perm w.pending := by
  have hhands : ((w.move c q' e).floor.hands ++ [a]).Perm w.floor.hands := by
    have hmove := Floor.hands_move at_ q' e
    rwa [h, h', List.append_nil] at hmove
  refine List.Perm.trans ?_ ((hhands.append_right w.engine.starts).map Submission.job)
  rw [List.append_assoc, ← hstarts]
  exact (List.perm_middle.map Submission.job).symm

/-- What holds between any two steps. -/
structure Sound (w : Workshop V) : Prop where
  floor : w.floor.Reached
  manned : 0 < w.engine.carriers.size
  placed : (w.pending ++ (w.tasked ++ w.settled)).Perm (List.range w.engine.jobs.size)
  /-- The tasks on the bench are those that are alive. -/
  staffed : ∀ t, (w.bench.map (·.task)).count t = w.engine.flag t (·.status == .alive)
  duty : ∀ s ∈ w.bench, ∃ x cell, w.engine.task? s.task = some x ∧ x.job = some s.work.job ∧
    w.engine.jobs[s.work.job]? = some cell ∧
    cell.binding = (if s.stage = .given then none else some ⟨s.task, x.generation⟩) ∧
    (s.stage = .returned → cell.done = true)
  waits : ∀ j ∈ w.pending, ∀ cell, w.engine.jobs[j]? = some cell → cell.binding = none
  done : ∀ j ∈ w.settled, ∀ cell, w.engine.jobs[j]? = some cell → cell.done = true

namespace Sound

theorem start {config : Config} {processors : Nat} {groups : List ControlGroup} {pump : EventPump}
    (h : Engine.start config processors groups pump = .ok e) : Sound { floor := Floor.quiet e } := by
  have hledger := Ledger.sound_start h
  have hhands : (Floor.quiet e).hands = [] := by
    simp only [Floor.hands, List.flatMap_eq_nil_iff, Array.mem_toList_iff]
    intro q hq
    rw [Array.eq_of_mem_replicate hq]
    rfl
  have hjobs : e.jobs = #[] := by rw [start_eq h]
  have hpending : ({ floor := Floor.quiet e } : Workshop V).pending =
      ([] ++ e.starts).map Submission.job := congrArg (fun l => (l ++ e.starts).map _) hhands
  refine ⟨.start h, hledger.staffed.manned, ?_, fun t => ?_, fun s hs => ?_, fun j _ cell hj => ?_,
    fun j hj => ?_⟩
  · rw [hpending]
    exact hledger.balanced.placed
  · have halive := hledger.staffed.alive t
    rw [hledger.staffed.crew.count_eq] at halive
    exact halive
  · cases hs
  · have hnone : e.jobs[j]? = some cell := hj
    rw [hjobs] at hnone
    cases hnone
  · cases hj

theorem nodup (h : Sound w) : (w.pending ++ (w.tasked ++ w.settled)).Nodup :=
  h.placed.nodup_iff.mpr List.nodup_range

theorem length (h : Sound w) :
    w.pending.length + w.tasked.length + w.settled.length = w.engine.jobs.size := by
  have hlength := h.placed.length_eq
  simp only [List.length_append, List.length_range] at hlength
  omega

/-- Accepted work is in one of three places. -/
theorem cases (h : Sound w) (hj : j < w.engine.jobs.size) :
    j ∈ w.pending ∨ j ∈ w.tasked ∨ j ∈ w.settled := by
  have hmem := h.placed.mem_iff.mpr (List.mem_range.mpr hj)
  simpa only [List.mem_append] using hmem

theorem lt_of_pending (h : Sound w) (hj : j ∈ w.pending) : j < w.engine.jobs.size :=
  List.mem_range.mp (h.placed.mem_iff.mp (List.mem_append_left _ hj))

theorem lt_of_settled (h : Sound w) (hj : j ∈ w.settled) : j < w.engine.jobs.size :=
  List.mem_range.mp (h.placed.mem_iff.mp
    (List.mem_append_right _ (List.mem_append_right _ hj)))

theorem alive (h : Sound w) (hs : s ∈ w.bench) :
    ∃ x, w.engine.task? s.task = some x ∧ x.status = .alive := by
  have hcount := h.staffed s.task
  have hpos : 0 < (w.bench.map (·.task)).count s.task :=
    List.count_pos_iff.mpr (List.mem_map_of_mem hs)
  obtain ⟨x, hx, halive⟩ := exists_of_flag_pos (hcount ▸ hpos)
  exact ⟨x, hx, by simpa using halive⟩

/-- A task that is alive has work. -/
theorem exists_stint (h : Sound w) (hx : w.engine.task? t = some x) (halive : x.status = .alive) :
    ∃ s ∈ w.bench, s.task = t := by
  have hcount := h.staffed t
  rw [flag_eq_one hx (by rw [halive]; rfl)] at hcount
  have hmem : t ∈ w.bench.map (·.task) := List.count_pos_iff.mp (by omega)
  exact List.mem_map.mp hmem

theorem nodup_tasks (h : Sound w) : (w.bench.map (·.task)).Nodup := by
  rw [List.nodup_iff_count]
  intro t
  rw [h.staffed t]
  exact w.engine.flag_le_one t _

theorem eq_of_task (h : Sound w) (hs : s ∈ w.bench) (hs' : s' ∈ w.bench)
    (heq : s'.task = s.task) : s' = s := List.inj_on_of_nodup_map h.nodup_tasks hs' hs heq

theorem eq_of_job (h : Sound w) (hs : s ∈ w.bench) (hs' : s' ∈ w.bench)
    (heq : s'.work.job = s.work.job) : s' = s := by
  have hnodup : w.tasked.Nodup := (List.nodup_append'.mp (List.nodup_append'.mp h.nodup).2.1).1
  exact List.inj_on_of_nodup_map hnodup hs' hs heq

theorem ne_of_erase (h : Sound w) (hs : s ∈ w.bench) (hs' : s' ∈ w.bench.erase s) :
    s' ∈ w.bench ∧ s'.task ≠ s.task ∧ s'.work.job ≠ s.work.job := by
  obtain ⟨hne, hmem⟩ := (List.Nodup.mem_erase_iff (.of_map _ h.nodup_tasks)).mp hs'
  exact ⟨hmem, fun heq => hne (h.eq_of_task hs hmem heq), fun heq => hne (h.eq_of_job hs hmem heq)⟩

theorem ne_of_pending (h : Sound w) (hs : s ∈ w.bench) (hj : j ∈ w.pending) : j ≠ s.work.job := by
  rintro rfl
  exact List.disjoint_of_nodup_append h.nodup hj
    (List.mem_append_left _ (List.mem_map_of_mem hs))

theorem ne_of_settled (h : Sound w) (hs : s ∈ w.bench) (hj : j ∈ w.settled) : j ≠ s.work.job := by
  rintro rfl
  have hnodup := (List.nodup_append'.mp h.nodup).2.1
  exact List.disjoint_of_nodup_append hnodup (List.mem_map_of_mem hs) hj

/-! ## Changes beside the work -/

/-- The floor gets on, and the work stays where it is. -/
theorem steady (h : Sound w) (hfloor : w'.floor.Reached) (hpending : w'.pending.Perm w.pending)
    (hs : w.engine.Steady w'.engine) (hbench : w'.bench = w.bench)
    (hsettled : w'.settled = w.settled) : Sound w' := by
  refine ⟨hfloor, hs.carriers ▸ h.manned, ?_, fun t => ?_, fun s hmem => ?_,
    fun j hj cell' hj' => ?_, fun j hj cell' hj' => ?_⟩
  · rw [tasked, hbench, hsettled, hs.files]
    exact (hpending.append_right _).trans h.placed
  · rw [hbench, hs.flag]
    exact h.staffed t
  · rw [hbench] at hmem
    obtain ⟨x, cell, hx, hjob, hj, hbinding, hdone⟩ := h.duty s hmem
    obtain ⟨y, hy, hxy⟩ := hs.tasks _ x hx
    obtain ⟨cell', hj', hcells⟩ := hs.jobs _ cell hj
    refine ⟨y, cell', hy, hxy.job.trans hjob, hj', ?_, fun hr => hcells.done.trans (hdone hr)⟩
    rw [hcells.binding, hbinding, hxy.generation]
  · obtain ⟨cell, hcells, hsteady⟩ := hs.exists_job hj'
    exact hsteady.binding.trans (h.waits j (hpending.mem_iff.mp hj) cell hcells)
  · rw [hsettled] at hj
    obtain ⟨cell, hcells, hsteady⟩ := hs.exists_job hj'
    exact hsteady.done.trans (h.done j hj cell hcells)

theorem aside (h : Sound w) (ha : Aside w w') : Sound w' := by
  have hpending : w'.pending = w.pending := by
    rw [pending, Floor.hands_of_errands ha.errands, ha.starts, pending]
  exact h.steady (h.floor.step ha.floor) (.of_eq hpending) ha.steady ha.bench ha.settled

/-- The engine changes where no carrier has a part in it. -/
theorem put (h : Sound w) (hframe : w.engine.Frame e) (hs : w.engine.Steady e)
    (hstarts : e.starts = w.engine.starts) : Sound (w.put e) :=
  h.steady (h.floor.step (.other hframe)) (.of_eq (pending_put hstarts)) hs rfl rfl

theorem perm (h : Sound w) (hp : w.bench.Perm bench) : Sound { w with bench := bench } := by
  refine ⟨h.floor, h.manned, ?_, fun t => ?_, fun s hs => h.duty s (hp.mem_iff.mpr hs), h.waits,
    h.done⟩
  · exact ((hp.map _).symm.append_right _ |>.append_left _).trans h.placed
  · rw [← h.staffed t]
    exact (hp.map _).count_eq t |>.symm

theorem bring (h : Sound w) (hs : s ∈ w.bench) :
    Sound { w with bench := s :: w.bench.erase s } := h.perm (List.perm_cons_erase hs)

theorem advance (h : Sound w) (hs : s ∈ w.bench) (hgiven : s.stage ≠ .given) (hp : p ≠ .given)
    (hreturned : p ≠ .returned) : Sound (w.advance s p) := by
  have hbring := h.bring hs
  refine ⟨h.floor, h.manned, hbring.placed, hbring.staffed, ?_, h.waits, h.done⟩
  intro s' hs'
  cases hs' with
  | head =>
      obtain ⟨x, cell, hx, hjob, hj, hbinding, -⟩ := h.duty s hs
      rw [if_neg hgiven] at hbinding
      refine ⟨x, cell, hx, hjob, hj, ?_, fun hr => absurd hr hreturned⟩
      rw [if_neg hp]
      exact hbinding
  | tail _ hs' => exact hbring.duty s' (.tail _ hs')

/-! ## A carrier with new work -/

theorem take (h : Sound w) (at_ : w.floor.phases[c]? = some .looking)
    (ht : w.engine.Taken c (.start a) e) : Sound (w.move c (.holding (.start a)) e) :=
  h.steady (h.floor.step (.take at_ ht)) (pending_take at_ ht) ht.left.steady rfl rfl

theorem obtain (h : Sound w) (at_ : w.floor.phases[c]? = some (.holding (.start a)))
    (ho : w.engine.Obtained t e) : Sound (w.move c (.readying t a) e) := by
  have hfloor : (w.move c (.readying t a) e).floor.Reached := by
    cases ho with
    | pooled hp => exact h.floor.step (.obtainPooled at_ hp)
    | fresh => exact h.floor.step (.obtainFresh at_)
  exact h.steady hfloor (pending_move at_ (.readying t a) rfl ho.starts) ho.steady rfl rfl

/-- The cell of a piece of work changes, and neither forgets who carries it nor that it is over. -/
theorem mark (h : Sound w) {k : Join V → Join V} (hbinding : ∀ cell, (k cell).binding = cell.binding)
    (hdone : ∀ cell, cell.done = true → (k cell).done = true) (j : JobId) :
    Sound (w.put (w.engine.updateJob j k)) := by
  have hcell : ∀ {i : JobId} {cell' : Join V}, (w.engine.updateJob j k).jobs[i]? = some cell' →
      ∃ cell, w.engine.jobs[i]? = some cell ∧ cell'.binding = cell.binding ∧
        (cell.done = true → cell'.done = true) := by
    intro i cell' hi
    rw [updateJob, Array.getElem?_modify] at hi
    split at hi
    · obtain ⟨cell, hcell, rfl⟩ := Option.map_eq_some_iff.mp hi
      exact ⟨cell, hcell, hbinding cell, hdone cell⟩
    · exact ⟨cell', hi, rfl, fun hd => hd⟩
  refine ⟨h.floor.step (.other (frame_updateJob _ j k)), h.manned, ?_, h.staffed, fun s hs => ?_,
    fun i hi cell' hi' => ?_, fun i hi cell' hi' => ?_⟩
  · have hsize : (w.put (w.engine.updateJob j k)).engine.jobs.size = w.engine.jobs.size :=
      Array.size_modify
    rw [hsize]
    exact h.placed
  · obtain ⟨x, cell, hx, hjob, hj, hbound, hover⟩ := h.duty s hs
    have hlt : s.work.job < (w.engine.updateJob j k).jobs.size := by
      rw [updateJob, Array.size_modify]
      exact (Array.getElem?_eq_some_iff.mp hj).1
    obtain ⟨cell₀, hj₀, hsame, hkept⟩ := hcell (Array.getElem?_eq_getElem hlt)
    rw [hj] at hj₀
    cases hj₀
    exact ⟨x, _, hx, hjob, Array.getElem?_eq_getElem hlt, hsame.trans hbound,
      fun hr => hkept (hover hr)⟩
  · obtain ⟨cell, hj, hsame, -⟩ := hcell hi'
    exact hsame.trans (h.waits i hi cell hj)
  · obtain ⟨cell, hj, -, hkept⟩ := hcell hi'
    exact hkept (h.done i hi cell hj)

/-- Work in hand is given up, when its result was told. -/
theorem drop (h : Sound w) (at_ : w.floor.phases[c]? = some (.holding (.start a)))
    (hdone : ∀ cell, w.engine.jobs[a.job]? = some cell → cell.done = true) :
    Sound { w.move c .looking w.engine with settled := a.job :: w.settled } := by
  have hpending := pending_hand (e := w.engine) at_ .looking rfl rfl rfl
  refine ⟨h.floor.step (.abandon at_), h.manned, ?_, h.staffed, h.duty, fun j hj => ?_,
    fun j hj => ?_⟩
  · refine List.Perm.trans ?_ ((hpending.append_right (w.tasked ++ w.settled)).trans h.placed)
    exact (List.perm_middle.append_left _).trans List.perm_middle
  · exact h.waits j (hpending.mem_iff.mp (.tail _ hj))
  · cases hj with
    | head => exact hdone
    | tail _ hj => exact h.done j hj

theorem abandon (h : Sound w) (at_ : w.floor.phases[c]? = some (.holding (.start a))) :
    Sound { w.move c .looking (w.engine.giveUp a.job) with settled := a.job :: w.settled } := by
  have htold := h.mark (k := fun cell => cell.abandon.1) (fun _ => rfl) (fun _ _ => rfl) a.job
  have hclosed := htold.put (frame_finishOne _) (steady_of_eq rfl rfl rfl) rfl
  refine hclosed.drop at_ fun cell hj => ?_
  have hj : (w.engine.jobs.modify a.job _)[a.job]? = some cell := hj
  rw [Array.getElem?_modify, if_pos rfl] at hj
  obtain ⟨cell₀, -, rfl⟩ := Option.map_eq_some_iff.mp hj
  rfl

theorem give (h : Sound w) (at_ : w.floor.phases[c]? = some (.readying t a)) :
    Sound { w.move c (.resuming t) (w.engine.updateTask t (Floor.assigned c a)) with
      bench := ⟨t, a, .given⟩ :: w.bench } := by
  obtain ⟨x, hx, hended⟩ := h.floor.sound.ended at_
  obtain ⟨e, he⟩ : ∃ e, e = w.engine.updateTask t (Floor.assigned c a) := ⟨_, rfl⟩
  have hfloor : (w.floor.move c (.resuming t) e).Reached := by
    have hframe : (w.engine.assign c t a).Frame e := by
      have hreset := Task.reset_of_ended hended a.name c
      rw [he, Floor.updateTask_eq_put hx]
      simp only [Engine.assign, hx, hreset]
      exact Engine.frame_of_eq rfl rfl rfl rfl rfl (fun _ h => .inl h) rfl
    exact (h.floor.step (.assign at_)).step (.other hframe)
  have hcells : ∀ j : JobId, e.jobs[j]? = w.engine.jobs[j]? := fun j => by rw [he]; rfl
  have hpending := pending_hand (e := e) at_ (.resuming t) rfl rfl (by rw [he]; rfl)
  have hmem : a.job ∈ w.pending := hpending.mem_iff.mp (.head _)
  have hoff : ∀ s ∈ w.bench, s.task ≠ t := by
    rintro s hs rfl
    obtain ⟨y, hy, halive⟩ := h.alive hs
    rw [hx] at hy
    cases hy
    rw [hended.cached] at halive
    cases halive
  rw [← he]
  refine ⟨hfloor, ?_, ?_, fun u => ?_, fun s hs => ?_, fun j hj cell hcell => ?_,
    fun j hj cell hcell => ?_⟩
  · rw [he]
    exact h.manned
  · have hplaced := (hpending.append_right (w.tasked ++ w.settled)).trans h.placed
    have hsize : e.jobs.size = w.engine.jobs.size := by rw [he]; rfl
    rw [← hsize] at hplaced
    exact List.perm_middle.trans hplaced
  · have hcount : (t :: w.bench.map (·.task)).count u = e.flag u (·.status == .alive) := by
      have hnone : w.engine.flag t (·.status == .alive) = 0 :=
        flag_eq_zero hx (by rw [hended.cached]; rfl)
      rw [List.count_cons, h.staffed u, he, flag_updateTask]
      by_cases hu : u = t
      · rw [if_pos (beq_iff_eq.mpr hu.symm), if_pos hu, hu, hnone, flag_of_task? hx]
        rfl
      · rw [if_neg fun heq => hu (beq_iff_eq.mp heq).symm, if_neg hu, Nat.add_zero]
    exact hcount
  · cases hs with
    | head =>
        have hcell := Array.getElem?_eq_getElem (h.lt_of_pending hmem)
        have hx' : e.task? t = some (Floor.assigned c a x) := by
          rw [he, task?_updateTask, if_pos rfl, hx]
          rfl
        exact ⟨Floor.assigned c a x, _, hx', rfl, (hcells _).trans hcell, h.waits a.job hmem _ hcell,
          Stage.noConfusion⟩
    | tail _ hs =>
        obtain ⟨y, cell, hy, hjob, hj, hcell⟩ := h.duty s hs
        have hy' : e.task? s.task = some y := by
          rw [he, task?_updateTask, if_neg (hoff s hs)]
          exact hy
        exact ⟨y, cell, hy', hjob, (hcells _).trans hj, hcell⟩
  · exact h.waits j (hpending.mem_iff.mp (.tail _ hj)) cell ((hcells j).symm.trans hcell)
  · exact h.done j hj cell ((hcells j).symm.trans hcell)

/-- The cell of the work is told which task has it. -/
theorem bind (h : Sound w) (hs : s ∈ w.bench) (hx : w.engine.task? s.task = some x) :
    Sound ((w.advance s .bound).put (w.engine.tell s.task s.work.job x.generation)) := by
  have hbring := h.bring hs
  obtain ⟨e, he⟩ : ∃ e, e = w.engine.tell s.task s.work.job x.generation := ⟨_, rfl⟩
  have hframe : w.engine.Frame e := by
    rw [he]
    exact (frame_updateJob w.engine s.work.job (·.bind ⟨s.task, x.generation⟩)).trans
      (frame_of_eq rfl rfl rfl rfl rfl (fun _ h => .inl h) rfl)
  have hsize : e.jobs.size = w.engine.jobs.size := by
    rw [he]
    exact Array.size_modify
  -- No other work has this cell.
  have hother : ∀ j, j ≠ s.work.job → e.jobs[j]? = w.engine.jobs[j]? := by
    intro j hj
    rw [he, Engine.tell, updateJob, Array.getElem?_modify, if_neg (Ne.symm hj)]
  have hself : ∀ cell, w.engine.jobs[s.work.job]? = some cell →
      e.jobs[s.work.job]? = some (cell.bind ⟨s.task, x.generation⟩) := by
    intro cell hcell
    rw [he, Engine.tell, updateJob, Array.getElem?_modify, if_pos rfl, hcell, Option.map_some]
  obtain ⟨hstarts, hcarriers, htasks⟩ : e.starts = w.engine.starts ∧
    e.carriers = w.engine.carriers ∧ e.tasks = w.engine.tasks := by rw [he]; exact ⟨rfl, rfl, rfl⟩
  have hpending : ((w.advance s .bound).put e).pending = w.pending := pending_put hstarts
  have htask : ∀ t, e.task? t = w.engine.task? t := fun t => by rw [task?, htasks, task?]
  rw [← he]
  refine ⟨h.floor.step (.other hframe), hcarriers ▸ h.manned, ?_, fun t => ?_, fun s' hs' => ?_,
    fun j hj cell' hcell' => ?_, fun j hj cell' hcell' => ?_⟩
  · rw [hpending]
    exact hsize ▸ hbring.placed
  · have hflag : e.flag t (·.status == .alive) = w.engine.flag t (·.status == .alive) := by
      rw [flag, htask, flag]
    exact (hbring.staffed t).trans hflag.symm
  · cases hs' with
    | head =>
        obtain ⟨y, cell, hy, hjob, hj, -, -⟩ := h.duty s hs
        rw [hx] at hy
        cases hy
        exact ⟨x, _, (htask _).trans hx, hjob, hself cell hj, rfl, Stage.noConfusion⟩
    | tail _ hs' =>
        obtain ⟨hmem, -, hne⟩ := h.ne_of_erase hs hs'
        obtain ⟨y, cell', hy, hjob', hj', hcell'⟩ := h.duty s' hmem
        exact ⟨y, cell', (htask _).trans hy, hjob', (hother _ hne).trans hj', hcell'⟩
  · rw [hpending] at hj
    exact h.waits j hj cell' ((hother j (h.ne_of_pending hs hj)).symm.trans hcell')
  · exact h.done j hj cell' ((hother j (h.ne_of_settled hs hj)).symm.trans hcell')

theorem finish (h : Sound w) (hs : s ∈ w.bench) (hgiven : s.stage ≠ .given)
    (outcome : Except Unwind V) : Sound ((w.advance s .returned).put
      (w.engine.updateJob s.work.job fun cell => (cell.finish outcome).1)) := by
  have htold := h.mark (k := fun cell => (cell.finish outcome).1) (fun _ => rfl) (fun _ _ => rfl)
    s.work.job
  have hbring := htold.bring hs
  refine ⟨htold.floor, htold.manned, hbring.placed, hbring.staffed, ?_, htold.waits, htold.done⟩
  intro s' hs'
  cases hs' with
  | head =>
      obtain ⟨x, cell, hx, hjob, hj, hbinding, -⟩ := htold.duty s hs
      rw [if_neg hgiven] at hbinding
      refine ⟨x, cell, hx, hjob, hj, hbinding, fun _ => ?_⟩
      have hj : (w.engine.jobs.modify s.work.job _)[s.work.job]? = some cell := hj
      rw [Array.getElem?_modify, if_pos rfl] at hj
      obtain ⟨cell₀, -, rfl⟩ := Option.map_eq_some_iff.mp hj
      rfl
  | tail _ hs' => exact hbring.duty s' (.tail _ hs')

/-- The task of work that is over is kept for reuse or destroyed. -/
theorem retire (h : Sound w) (hs : s ∈ w.bench) (hreturned : s.stage = .returned)
    (at_ : w.floor.phases[c]? = some (.working s.task)) :
    Sound { w.move c (.leaving s.task none) (w.engine.recycle c s.task) with
      bench := w.bench.erase s, settled := s.work.job :: w.settled } := by
  obtain ⟨n, hr⟩ := recycled_recycle w.engine c s.task
  obtain ⟨hstarts, -, hjobs, -⟩ := sameWork_recycle w.engine c s.task
  have hfloor := h.floor.step (.retire at_)
  obtain ⟨e, he⟩ : ∃ e, e = w.engine.recycle c s.task := ⟨_, rfl⟩
  rw [← he] at hr hstarts hjobs hfloor ⊢
  have hpending := pending_move at_ (.leaving s.task none) rfl hstarts
  have htasks : ∀ t, e.task? t = (w.engine.updateTask s.task ({ · with status := n })).task? t :=
    fun t => by rw [task?, hr.tasks, task?]
  have hcells : ∀ j : JobId, e.jobs[j]? = w.engine.jobs[j]? := fun j => by rw [hjobs]
  obtain ⟨x, cell, hx, -, hj, -, hdone⟩ := h.duty s hs
  refine ⟨hfloor, hr.size.symm ▸ h.manned, ?_, fun t => ?_, fun s' hs' => ?_,
    fun j hj cell' hcell' => ?_, fun j hj' cell' hcell' => ?_⟩
  · have hplaced := (hpending.append_right _).trans (h.bring hs).placed
    have hmoved : ((w.bench.erase s).map (·.work.job) ++ s.work.job :: w.settled).Perm
        (s.work.job :: ((w.bench.erase s).map (·.work.job) ++ w.settled)) := List.perm_middle
    rw [← show e.jobs.size = w.engine.jobs.size by rw [hjobs]] at hplaced
    exact (hmoved.append_left _).trans hplaced
  · have hcount : (s.task :: (w.bench.erase s).map (·.task)).count t =
        w.engine.flag t (·.status == .alive) := (h.bring hs).staffed t
    have hflag : e.flag t (·.status == .alive) =
        (w.engine.updateTask s.task ({ · with status := n })).flag t (·.status == .alive) := by
      rw [flag, htasks, flag]
    refine Eq.trans ?_ hflag.symm
    by_cases ht : t = s.task
    · rw [ht, flag_updateTask_self hx, beq_eq_false_iff_ne.mpr hr.status, Bool.toNat_false]
      refine List.count_eq_zero.mpr fun hmem => ?_
      obtain ⟨s', hs', heq⟩ := List.mem_map.mp hmem
      exact (h.ne_of_erase hs hs').2.1 heq
    · rw [flag_updateTask_of_ne ht, ← hcount, List.count_cons_of_ne (Ne.symm ht)]
  · obtain ⟨hmem, hne, -⟩ := h.ne_of_erase hs hs'
    obtain ⟨y, cell', hy, hjob, hj', hcell'⟩ := h.duty s' hmem
    have hy' : e.task? s'.task = some y := by
      rw [htasks, task?_updateTask, if_neg hne]
      exact hy
    exact ⟨y, cell', hy', hjob, (hcells _).trans hj', hcell'⟩
  · exact h.waits j (hpending.mem_iff.mp hj) cell' ((hcells j).symm.trans hcell')
  · cases hj' with
    | head =>
        have heq : some cell = some cell' := (hj.symm.trans (hcells _).symm).trans hcell'
        cases heq
        exact hdone hreturned
    | tail _ hj' => exact h.done j hj' cell' ((hcells j).symm.trans hcell')

theorem place (h : Sound w) {caller : Option TaskId}
    (hcaller : ∀ t, caller = some t → ∃ s ∈ w.bench, s.task = t) (name : String)
    (group : Option GroupId) : Sound (w.place caller name group) := by
  obtain ⟨e₀, he₀⟩ : ∃ e₀, e₀ = w.engine.makeJob.1.count .tasksSubmitted := ⟨_, rfl⟩
  obtain ⟨e, he⟩ : ∃ e, e = e₀.place caller ⟨w.engine.jobs.size, name, group⟩ := ⟨_, rfl⟩
  have hmade : w.engine.Frame e₀ := by
    rw [he₀]
    exact frame_of_eq rfl rfl rfl rfl rfl (fun _ h => .inl h) rfl
  have hframe : w.engine.Frame e := by
    rw [he]
    exact hmade.trans (frame_place e₀ caller _)
  have hleft : Left ⟨w.engine.jobs.size, name, group⟩ e e₀ := by
    rw [he]
    refine left_place (by rw [he₀]; exact h.manned) caller (fun t x c hc hx hcarrier => ?_) _
    rw [he₀] at hx ⊢
    obtain ⟨s, hs, rfl⟩ := hcaller t hc
    obtain ⟨y, hy, halive⟩ := h.alive hs
    obtain ⟨d, hd, hlt⟩ := h.floor.sound.roster.home _ y hy halive
    have hxy : some x = some y := hx.symm.trans hy
    cases hxy
    have hcd : some c = some d := hcarrier.symm.trans hd
    cases hcd
    exact hlt
  have hstarts : e₀.starts = w.engine.starts := by rw [he₀]; rfl
  have hpending : (w.put e).pending.Perm (w.engine.jobs.size :: w.pending) := by
    have hperm := (hleft.starts.append_left w.floor.hands).map Submission.job
    rw [hstarts] at hperm
    exact hperm.trans (List.perm_middle.map Submission.job)
  have htask : ∀ t, e.task? t = w.engine.task? t := fun t => by
    rw [task?, ← hleft.tasks, he₀]
    rfl
  have hjobs : e.jobs = w.engine.jobs.push {} := by
    rw [← hleft.jobs, he₀]
    rfl
  have hold : ∀ (j : JobId) cell, w.engine.jobs[j]? = some cell → e.jobs[j]? = some cell := by
    intro j cell hj
    rw [hjobs, Array.getElem?_push, if_neg (Nat.ne_of_lt (Array.getElem?_eq_some_iff.mp hj).1)]
    exact hj
  have hcell : ∀ (j : JobId) cell', e.jobs[j]? = some cell' →
      (j = w.engine.jobs.size ∧ cell' = {}) ∨ w.engine.jobs[j]? = some cell' := by
    intro j cell' hj
    rw [hjobs, Array.getElem?_push] at hj
    split at hj
    · next heq =>
        cases hj
        exact .inl ⟨heq, rfl⟩
    · exact .inr hj
  have hplace : w.place caller name group = w.put e := by rw [he, he₀]; rfl
  rw [hplace]
  refine ⟨h.floor.step (.other hframe), ?_, ?_, fun t => ?_, fun s hs => ?_,
    fun j hj cell' hcell' => ?_, fun j hj cell' hcell' => ?_⟩
  · have hsize : e.carriers.size = w.engine.carriers.size := by
      rw [← hleft.size, he₀]
      rfl
    exact hsize.symm ▸ h.manned
  · have hsize : e.jobs.size = w.engine.jobs.size + 1 := by rw [hjobs, Array.size_push]
    have hrange : List.range e.jobs.size = List.range w.engine.jobs.size ++ [w.engine.jobs.size] := by
      rw [hsize, List.range_succ]
    have hplaced := (hpending.append_right (w.tasked ++ w.settled)).trans (h.placed.cons _)
    rw [show (w.put e).engine.jobs.size = e.jobs.size from rfl, hrange]
    exact hplaced.trans (List.perm_append_singleton _ _).symm
  · have hflag : e.flag t (·.status == .alive) = w.engine.flag t (·.status == .alive) := by
      rw [flag, htask, flag]
    exact (h.staffed t).trans hflag.symm
  · obtain ⟨x, cell, hx, hjob, hj, hduty⟩ := h.duty s hs
    exact ⟨x, cell, (htask _).trans hx, hjob, hold _ cell hj, hduty⟩
  · rcases hcell j cell' hcell' with ⟨-, rfl⟩ | hj'
    · rfl
    · refine h.waits j ?_ cell' hj'
      have hne : j ≠ w.engine.jobs.size :=
        Nat.ne_of_lt (Array.getElem?_eq_some_iff.mp hj').1
      exact (List.mem_cons.mp (hpending.mem_iff.mp hj)).resolve_left hne
  · rcases hcell j cell' hcell' with ⟨rfl, -⟩ | hj'
    · exact absurd (h.lt_of_settled hj) (Nat.lt_irrefl _)
    · exact h.done j hj cell' hj'

theorem exit (h : Sound w) (hs : s ∈ w.bench) (hreturned : s.stage = .returned)
    (at_ : w.floor.phases[c]? = some (.working s.task)) :
    Sound { w.move c (.leaving s.task none) ((w.engine.signOff s.task).recycle c s.task) with
      bench := w.bench.erase s, settled := s.work.job :: w.settled } := by
  have hframe : w.engine.Frame (w.engine.signOff s.task) :=
    frame_of_eq rfl rfl rfl rfl rfl (fun _ h => .inl h) rfl
  exact (h.put hframe (steady_of_eq rfl rfl rfl) rfl).retire hs hreturned at_

theorem work (h : Sound w) (hw : Work w w') : Sound w' := by
  cases hw with
  | take at_ ht => exact h.take at_ ht
  | abandon at_ => exact h.abandon at_
  | obtain at_ _ ho => exact h.obtain at_ ho
  | give at_ => exact h.give at_
  | bind on _ found => exact h.bind on found
  | pass on stage =>
      exact h.advance on (by rw [stage]; exact Stage.noConfusion) Stage.noConfusion Stage.noConfusion
  | knock on stage =>
      exact h.advance on (by rw [stage]; exact Stage.noConfusion) Stage.noConfusion Stage.noConfusion
  | @enroll s g begun now on stage =>
      have hput := h.put (frame_enroll _ now s.task g) (steady_enroll _ now s.task g)
        (starts_enroll _ now s.task g)
      have hgiven : s.stage ≠ .given := by rw [stage]; exact Stage.noConfusion
      cases begun with
      | true => exact hput.advance on hgiven Stage.noConfusion Stage.noConfusion
      | false => exact hput.advance on hgiven Stage.noConfusion Stage.noConfusion
  | run on stage =>
      exact h.advance on (by rw [stage]; exact Stage.noConfusion) Stage.noConfusion Stage.noConfusion
  | enter on stage =>
      exact h.advance on (by rw [stage]; exact Stage.noConfusion) Stage.noConfusion Stage.noConfusion
  | @detach c s g now _ _ _ =>
      exact h.put (frame_detach _ now s.task g) (steady_detach _ now s.task g)
        (sameWork_detach _ now s.task g).starts
  | finish outcome on stage =>
      exact h.finish on (by rw [stage]; exact Stage.noConfusion) outcome
  | exit on stage at_ => exact h.exit on stage at_

end Sound

end Workshop

end GreenThreads

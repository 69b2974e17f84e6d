import GreenThreads.Proofs.Ledger.Balance
import GreenThreads.Proofs.Ledger.Files

/-!
# Every ledger adds up

Every step keeps the tasks, the cells and the columns of a ledger in agreement. So what is said of
all three holds of every engine that runs.
-/

namespace GreenThreads

namespace Engine

variable {V : Type} {e : Engine V} {s : Submission}

theorem begin_of_moot (h : e.isMoot s = true) (now : Nanos) (c : Nat) :
    e.begin now c s = (e.abandonJob now s.job).finishOne := if_pos h

/-- An engine with a task at hand for new work. -/
def ready (e : Engine V) (c : Nat) : Engine V := (e.obtain c).1.ensureContext (e.obtain c).2

/-- Work that is begun is given to a task, which joins the group of the work and goes on. -/
theorem begin_of_sound (h : e.isMoot s = false) (now : Nanos) (c : Nat) :
    ∃ e₁, SameWork ((e.ready c).assign c (e.obtain c).2 s) e₁ ∧
      e.begin now c s = e₁.resume now c (e.obtain c).2 := by
  unfold isMoot at h
  unfold begin
  simp only [h, Bool.false_eq_true, ↓reduceIte]
  cases s.group with
  | none => exact ⟨_, .refl _, rfl⟩
  | some g => exact ⟨_, sameWork_attach _ now _ g, rfl⟩

end Engine

namespace Ledger

open Engine

variable {V : Type} {l l' : Ledger V} {e : Engine V} {hand : List Submission} {w : Submission}
  {s : Shift} {bench : List Shift} {t : TaskId} {c : Nat} {j : JobId} {x : Task} {now : Nanos}

/-- A ledger agrees with its engine. -/
structure Sound (hand : List Submission) (l : Ledger V) : Prop where
  staffed : Staffed l.engine l.bench
  filed : Filed l.engine l.bench l.completed l.settled
  balanced : Balanced hand l

theorem sound_start {config : Config} {processors : Nat} {groups : List ControlGroup}
    {pump : EventPump} (h : Engine.start config processors groups pump = .ok e) :
    Sound [] { engine := e : Ledger V } := by
  have hfresh := Floor.fresh_start h
  have hstart := start_eq h
  have hnone : ∀ t, e.task? t = none := by
    intro t
    rw [task?, hfresh.tasks]
    rfl
  have hjobs : e.jobs = #[] := by rw [hstart]
  have hlive : e.live = [] := by rw [hstart]
  have hstarts : e.starts = [] := by
    rw [starts, hfresh.shared, List.filterMap_nil, List.append_nil, List.flatMap_eq_nil_iff]
    intro x hx
    obtain ⟨i, hi⟩ := Array.mem_iff_getElem?.mp (Array.mem_toList_iff.mp hx)
    obtain ⟨n, rfl⟩ := hfresh.carriers i x hi
    rfl
  have hpooled : ∀ t, e.pooled t = 0 := by
    intro t
    rw [pooled, hfresh.pool, hfresh.total_eq_zero fun _ _ => rfl]
    rfl
  refine ⟨⟨?_, ?_, ?_, ?_, ?_, ?_⟩, ⟨?_, ?_, ?_⟩, ⟨?_, .refl _, .refl _, ?_, ?_, ?_⟩⟩
  · have hsize : e.carriers.size = config.effectiveWorkers processors := by
      rw [hstart, Array.size_ofFn]
    rw [hsize, Config.effectiveWorkers]
    split <;> omega
  · intro t x c hx
    rw [hnone] at hx
    cases hx
  · rw [hlive]
    exact .refl _
  · intro t
    rw [hlive, flag, hnone]
    rfl
  · intro t
    rw [hpooled]
    exact Nat.zero_le _
  · intro t x a hx
    rw [hnone] at hx
    cases hx
  · intro s hs
    cases hs
  · intro j cell b hj
    rw [hjobs] at hj
    cases hj
  · intro j cell hj
    rw [hjobs] at hj
    cases hj
  · rw [hstarts, hjobs]
    exact .refl _
  · rw [hstart]
    rfl
  · rw [hstart]
    rfl
  · rw [hstarts, hstart]
    rfl

namespace Sound

theorem other (h : Sound hand l) (hw : SameWork l.engine e) : Sound hand { l with engine := e } :=
  ⟨h.staffed.calm hw.toSameTasks hw.calm, h.filed.work hw.toSameTasks hw.jobs, h.balanced.work hw⟩

theorem perm (h : Sound hand l) (hp : l.bench.Perm bench) :
    Sound hand { l with bench := bench } :=
  ⟨h.staffed.perm hp, h.filed.perm hp, h.balanced.perm hp⟩

/-- The bench in an order that suits. -/
theorem bring (h : Sound hand l) (hs : s ∈ l.bench) :
    Sound hand { l with bench := s :: l.bench.erase s } := h.perm (List.perm_cons_erase hs)

/-! ## Submissions -/

theorem place (h : Sound [w] l) (hl : Left w e l.engine) : Sound [] { l with engine := e } := by
  have htasks : SameTasks l.engine e := sameTasks_of_eq hl.tasks.symm hl.size.symm
    (fun t => Nat.le_of_eq (hl.pooled t).symm) hl.live.symm
  exact ⟨h.staffed.calm htasks (calm_of_tasks hl.tasks.symm),
    h.filed.work htasks (congrArg (Array.map _) hl.jobs.symm), h.balanced.place hl⟩

theorem take (h : Sound [] l) (hl : Left w l.engine e) : Sound [w] { l with engine := e } :=
  ⟨h.staffed.calm hl.sameTasks (calm_of_tasks hl.tasks),
    h.filed.work hl.sameTasks (congrArg (Array.map _) hl.jobs), h.balanced.take hl⟩

/-- Accepted work has a cell and waits in a run queue. -/
theorem accept (h : Sound [] l) (caller : Option TaskId) (name : String) (group : Option GroupId) :
    Sound [] { l with engine := (l.engine.accept caller name group).1 } := by
  obtain ⟨e, he⟩ : ∃ e, e = ({ l.engine.makeJob.1 with
    outstanding := l.engine.outstanding + 1 } : Engine V).count .tasksSubmitted := ⟨_, rfl⟩
  have hnew : l.engine.jobs.size ∉ l.completed :=
    fun hj => Nat.lt_irrefl _ (h.balanced.lt_of_completed hj)
  have htasks : SameTasks l.engine.makeJob.1 e := by
    rw [he]
    exact sameTasks_of_eq rfl rfl (fun _ => Nat.le_refl _) rfl
  have hmade : SameTasks l.engine e := by
    rw [he]
    exact sameTasks_of_eq rfl rfl (fun _ => Nat.le_refl _) rfl
  have hjobs : e.jobs = l.engine.makeJob.1.jobs := by rw [he]; rfl
  have hhand : Sound [⟨l.engine.jobs.size, name, group⟩] { l with engine := e } := by
    refine ⟨h.staffed.calm hmade (calm_of_tasks (by rw [he]; rfl)),
      (h.filed.makeJob hnew).work htasks (by rw [hjobs]), h.balanced.accept ?_ rfl ?_ ?_ ?_ ?_⟩
    · rw [hjobs]
      exact Array.size_push _
    · rw [he]; rfl
    · rw [he]; rfl
    · rw [he]; rfl
    · rw [he]; rfl
  have hplaced := hhand.place (left_place hhand.staffed.manned caller
    (fun t x c _ => hhand.staffed.homes t x c) _)
  rw [he] at hplaced
  exact hplaced

theorem submit (h : Sound [] l) (caller : Option TaskId) (name : String) (group : Option GroupId) :
    Sound [] { l with engine := (l.engine.submit caller name group).1 } := by
  unfold Engine.submit
  split
  · exact h.other (sameRecords_count _ rfl).sameWork
  · exact h.accept caller name group

theorem shutdown (h : Sound [] l) (caller : Option TaskId) :
    Sound [] { l with engine := (l.engine.shutdown caller).1 } := by
  unfold Engine.shutdown
  split
  · have hclosed : SameWork l.engine { l.engine with accepting := false } :=
      sameWork_of_eq rfl rfl rfl rfl rfl rfl rfl rfl rfl
    exact (h.other hclosed).accept caller drainName none
  · exact h

/-! ## Dispatch -/

theorem lt_size_jobs (h : Sound [w] l) : w.job < l.engine.jobs.size :=
  h.balanced.lt_size (List.mem_append_left _ List.mem_cons_self)

/-- The cell of a piece of work is marked, and those who waited for it are woken. -/
theorem told (h : Sound hand l)
    (hr : SameRecords (l.engine.updateJob j ({ · with done := true })) e) :
    Staffed e l.bench ∧ Filed e l.bench (j :: l.completed) l.settled ∧
      Balanced hand { l with engine := e } := by
  have hmark : SameTasks l.engine (l.engine.updateJob j ({ · with done := true })) :=
    sameTasks_of_eq rfl rfl (fun _ => Nat.le_refl _) rfl
  have hwork := hr.sameWork
  have hcolumns : Balanced hand { l with
      engine := l.engine.updateJob j ({ · with done := true }) } :=
    h.balanced.same rfl Array.size_modify rfl rfl rfl
  exact ⟨h.staffed.calm (hmark.trans hwork.toSameTasks) ((calm_of_tasks rfl).trans hwork.calm),
    (h.filed.complete j).work hwork.toSameTasks hwork.jobs, hcolumns.work hwork⟩

theorem abandon (h : Sound [w] l) (moot : l.engine.isMoot w = true) (now : Nanos) (c : Nat) :
    Sound [] { l with
      engine := l.engine.begin now c w
      abandoned := w.job :: l.abandoned
      completed := w.job :: l.completed
      settled := w.job :: l.settled } := by
  rw [begin_of_moot moot]
  have hcell := Array.getElem?_eq_getElem h.lt_size_jobs
  obtain ⟨hstaffed, hfiled, hbalanced⟩ := h.told (sameRecords_abandonJob hcell now)
  have hend : SameTasks (l.engine.abandonJob now w.job)
      (l.engine.abandonJob now w.job).finishOne :=
    sameTasks_of_eq rfl rfl (fun _ => Nat.le_refl _) rfl
  exact ⟨hstaffed.calm hend (calm_of_tasks rfl), (hfiled.work hend rfl).close w.job,
    hbalanced.abandon⟩

theorem obtain (h : Sound hand l) (c : Nat) :
    Sound hand { l with engine := (l.engine.obtain c).1 } := by
  refine ⟨(h.staffed.obtain c).1, h.filed.obtain c, ?_⟩
  rcases obtain_cases l.engine c with ⟨e₀, hpopped, hrecords⟩ | hmake
  · exact h.balanced.work (hpopped.sameWork.trans hrecords.sameWork)
  · rw [hmake]
    exact h.balanced.same rfl rfl rfl rfl rfl

/-- What new work makes of the engine. -/
theorem assign_eq (h : Sound hand l) (hx : l.engine.task? t = some x) (hcached : x.status = .cached) :
    l.engine.assign c t w =
      { (l.engine.updateTask t (Floor.assigned c w)).updateJob w.job
          (·.bind { task := t, generation := x.generation + 1 }) with
        live := l.engine.live ++ [t] } := by
  obtain ⟨-, hidle⟩ := h.staffed.idle hx (by rw [hcached]; exact Status.noConfusion)
  exact Engine.assign_eq hx hcached hidle

theorem assign (h : Sound [w] l) (hc : c < l.engine.carriers.size)
    (hx : l.engine.task? t = some x) (hcached : x.status = .cached)
    (hpooled : l.engine.pooled t = 0) :
    Sound [] { l with
      engine := l.engine.assign c t w, bench := ⟨t, w.job, .given⟩ :: l.bench } := by
  obtain ⟨hoff, hidle⟩ := h.staffed.idle hx (by rw [hcached]; exact Status.noConfusion)
  have hjob : ∀ s ∈ l.bench, s.job ≠ w.job := by
    intro s hs heq
    have hnodup := (List.nodup_cons.mp h.balanced.nodup).1
    have hbench : w.job ∈ l.bench.map (·.job) := heq ▸ List.mem_map_of_mem hs
    exact hnodup (List.mem_append_right _ (List.mem_append_left _ hbench))
  have hcolumns : Balanced [w] { l with engine := l.engine.assign c t w } := by
    rw [h.assign_eq hx hcached]
    exact h.balanced.same rfl Array.size_modify rfl rfl rfl
  exact ⟨h.staffed.assign hc hx hcached hpooled,
    h.filed.assign hx hcached hidle hoff hjob h.lt_size_jobs, hcolumns.give t⟩

/-- The task at hand for new work can be given it. -/
theorem ready (h : Sound hand l) (c : Nat) : Sound hand { l with engine := l.engine.ready c } ∧
    (l.engine.ready c).carriers.size = l.engine.carriers.size ∧
    (l.engine.ready c).pooled (l.engine.obtain c).2 = 0 ∧
    ∃ x, (l.engine.ready c).task? (l.engine.obtain c).2 = some x ∧ x.status = .cached := by
  obtain ⟨-, ⟨x, hx, hcached⟩, hpooled⟩ := h.staffed.obtain c
  have hcontext := (sameRecords_ensureContext (l.engine.obtain c).1 (l.engine.obtain c).2).sameWork
  obtain ⟨y, hy, hduty⟩ := exists_of_map_eq hcontext.tasks.symm hx
  have hsize : (l.engine.obtain c).1.carriers.size = l.engine.carriers.size := by
    rcases obtain_cases l.engine c with ⟨e₀, hpopped, hrecords⟩ | hmake
    · exact (hpopped.sameWork.trans hrecords.sameWork).size
    · rw [hmake]
      rfl
  have hout := Nat.le_trans (hcontext.pooled (l.engine.obtain c).2) (Nat.le_of_eq hpooled)
  exact ⟨(h.obtain c).other hcontext, hcontext.size.trans hsize, Nat.eq_zero_of_le_zero hout, y, hy,
    (congrArg Task.status hduty).symm.trans hcached⟩

theorem start (h : Sound [w] l) (hc : c < l.engine.carriers.size)
    (sound : l.engine.isMoot w = false) (now : Nanos) :
    Sound [] { l with
      engine := l.engine.begin now c w
      bench := ⟨(l.engine.obtain c).2, w.job, .given⟩ :: l.bench } := by
  obtain ⟨hready, hsize, hpooled, x, hx, hcached⟩ := h.ready c
  have hlt : c < (l.engine.ready c).carriers.size := hsize.symm ▸ hc
  have hassign := hready.assign hlt hx hcached hpooled
  obtain ⟨e₁, hjoined, hbegin⟩ := begin_of_sound sound now c
  have hmanned : c < e₁.carriers.size := by
    rw [hjoined.size, carriers_assign]
    exact hlt
  rw [hbegin]
  exact (hassign.other hjoined).other (sameWork_resume hmanned now _)

/-! ## The running task -/

/-- The work on the bench is that which the task itself names. -/
theorem job_eq (h : Sound hand l) (hs : s ∈ l.bench) (hj : l.engine.jobOf s.task = some j) :
    j = s.job := by
  obtain ⟨x, -, hx, hjob, -⟩ := h.filed.duty s hs
  rw [jobOf, hx, Option.bind_some, hjob] at hj
  exact (Option.some.inj hj).symm

/-- Who waits has told so. -/
theorem parked_of_waiting {a : Axis} (h : Sound hand l) (hs : s ∈ l.bench)
    (hx : l.engine.task? s.task = some x) (hw : (x.parker a).isWaiting = true) :
    s.progress = .parked a := by
  obtain ⟨s', hs', htask, hparked⟩ := h.staffed.awake _ x a hx hw
  rw [← h.staffed.eq_of_task hs hs' htask]
  exact hparked

theorem run (h : Sound [] l) (hs : s ∈ l.bench) (hp : s.progress = .given) :
    Sound [] { l.advance s .running with ran := s.job :: l.ran } := by
  have hbring := h.bring hs
  refine ⟨hbring.staffed.advance (fun a => ?_) .running, hbring.filed.advance .running,
    hbring.balanced.run hp⟩
  rw [hp]
  exact Progress.noConfusion

/-- The running task begins to wait on an axis or stops waiting there. -/
theorem setParker (h : Sound [] l) (hs : s ∈ l.bench) (a : Axis) (q : Task → Parker) {p : Progress}
    (hbegun : p.isBegun = s.progress.isBegun) (hreturned : p.isReturned = s.progress.isReturned)
    (hself : ∀ x, (q x).isWaiting = true → p = .parked a)
    (hother : ∀ b, b ≠ a → s.progress ≠ .parked b) :
    Sound [] { l.advance s p with
      engine := l.engine.updateTask s.task fun x => x.setParker a (q x) } := by
  have hbring := h.bring hs
  have hfile : (l.engine.updateTask s.task fun x => x.setParker a (q x)).tasks.map Task.file =
      l.engine.tasks.map Task.file := map_updateTask fun x => by cases a <;> rfl
  refine ⟨hbring.staffed.setParker q ?_, (hbring.filed.advance p).same hfile rfl,
    (hbring.balanced.advance hbegun hreturned).same rfl rfl rfl rfl rfl⟩
  intro x b hx hw
  by_cases hb : b = a
  · subst hb
    rw [Task.parker_setParker_self] at hw
    exact hself x hw
  · rw [Task.parker_setParker_of_ne hb] at hw
    exact absurd (h.parked_of_waiting hs hx hw) (hother b hb)

theorem park {a : Axis} (h : Sound [] l) (hs : s ∈ l.bench) (hp : s.progress = .running)
    (p : Parker) : Sound [] { l.advance s (.parked a) with
      engine := l.engine.updateTask s.task (·.setParker a p) } := by
  refine h.setParker hs a (fun _ => p) (by rw [hp]; rfl) (by rw [hp]; rfl) (fun _ _ => rfl) ?_
  intro b _
  rw [hp]
  exact Progress.noConfusion

theorem endPark {a : Axis} (h : Sound [] l) (hs : s ∈ l.bench) (hp : s.progress = .parked a) :
    Sound [] { l.advance s .running with
      engine := l.engine.updateTask s.task fun x => x.setParker a (x.parker a).finish } := by
  refine h.setParker hs a (fun x => (x.parker a).finish) (by rw [hp]; rfl) (by rw [hp]; rfl) ?_ ?_
  · intro x hw
    cases hparker : x.parker a <;> rw [hparker] at hw <;> cases hw
  · intro b hb hparked
    rw [hp] at hparked
    cases hparked
    exact hb rfl

theorem finish (h : Sound [] l) (hs : s ∈ l.bench) (hp : s.progress = .running) (now : Nanos)
    (outcome : Except Unwind V) : Sound [] { l.advance s .returned with
      engine := l.engine.finishJob now s.job outcome
      completed := s.job :: l.completed } := by
  obtain ⟨-, cell, -, -, hj, -⟩ := h.filed.duty s hs
  obtain ⟨hstaffed, hfiled, hbalanced⟩ := (h.bring hs).told (sameRecords_finishJob hj now outcome)
  refine ⟨hstaffed.advance (fun a => ?_) .returned, hfiled.advance .returned,
    hbalanced.finish (l := { l with engine := l.engine.finishJob now s.job outcome }) hp⟩
  rw [hp]
  exact Progress.noConfusion

theorem exit (h : Sound [] l) (hs : s ∈ l.bench) (hp : s.progress = .returned) (now : Nanos)
    (c : Nat) : Sound [] { l with
      engine := l.engine.exit now c s.task
      bench := l.bench.erase s
      settled := s.job :: l.settled } := by
  obtain ⟨e, hwork, hexit⟩ := exit_eq l.engine now c s.task
  have hbring := (h.other hwork).bring hs
  -- The name keeps the engine out of sight while its parts are looked at one by one.
  obtain ⟨e₁, he₁⟩ : ∃ e₁, e₁ =
    ({ e with live := e.live.filter (· != s.task) }.finishOne).recycle c s.task := ⟨_, rfl⟩
  obtain ⟨n, hr⟩ := recycled_recycle { e with live := e.live.filter (· != s.task) }.finishOne c s.task
  obtain ⟨hstarts, hlive, hjobs, houtstanding, hsubmitted, hclosed⟩ :=
    sameWork_recycle { e with live := e.live.filter (· != s.task) }.finishOne c s.task
  rw [← he₁] at hexit hr hstarts hlive hjobs houtstanding hsubmitted hclosed
  have hfile : e₁.tasks.map Task.file = e.tasks.map Task.file := by
    rw [hr.tasks]
    exact map_updateTask (e := e) fun _ => rfl
  have hidle : ∀ a, s.progress ≠ .parked a := by
    intro a
    rw [hp]
    exact Progress.noConfusion
  have hretired : Sound [] { l with
      engine := e₁, bench := l.bench.erase s, settled := s.job :: l.settled } := by
    refine ⟨hbring.staffed.retire hidle hr hlive, hbring.filed.retire.same hfile ?_, ?_⟩
    · rw [hjobs]
      rfl
    · exact (hbring.balanced.retire hp).same hstarts (by rw [hjobs]; rfl) hsubmitted hclosed
        houtstanding
  rw [hexit]
  exact hretired.other (sameRecords_switchOut e₁ now c).sameWork

theorem scrap (h : Sound [] l) (ht : l.engine.Popped t e) :
    Sound [] { l with engine := e.updateTask t Task.discard } := by
  have hwork := ht.sameWork
  have hfile : (e.updateTask t Task.discard).tasks.map Task.file = e.tasks.map Task.file :=
    map_updateTask fun _ => rfl
  exact ⟨h.staffed.scrap ht, (h.filed.work hwork.toSameTasks hwork.jobs).same hfile rfl,
    (h.balanced.work hwork).same rfl rfl rfl rfl rfl⟩

theorem step (h : Sound [] l) (hstep : Step l l') : Sound [] l' := by
  cases hstep with
  | other hwork => exact h.other hwork
  | submit caller name group => exact h.submit caller name group
  | shutdown caller => exact h.shutdown caller
  | abandon now taken moot => exact (h.take taken.left).abandon moot now _
  | start now carrier taken sound =>
      have hhand := h.take taken.left
      refine hhand.start ?_ sound now
      exact taken.left.size ▸ carrier
  | run on at_ progress work =>
      rw [h.job_eq on work]
      exact h.run on progress
  | park on at_ progress found begins => exact h.park on progress _
  | endPark on at_ progress => exact h.endPark on progress
  | finish now outcome on at_ progress work =>
      rw [h.job_eq on work]
      exact h.finish on progress now outcome
  | exit now on at_ progress work =>
      rw [h.job_eq on work]
      exact h.exit on progress now _
  | scrap popped => exact h.scrap popped

end Sound

theorem Reached.sound (h : Reached l) : Sound [] l := by
  induction h with
  | start hstart => exact sound_start hstart
  | step _ hstep ih => exact ih.step hstep

end Ledger

end GreenThreads

import GreenThreads.Proofs.Engine.Nudges
import GreenThreads.Proofs.Floor.Conservation
import GreenThreads.Proofs.Ledger.Steps

/-!
# The workshop of an engine

A workshop is the floor of an engine with the work that its tasks have. What a carrier does with new
work is taken apart: it takes the entry, looks whether the work is worth beginning, obtains a task,
gives it the work, tells the cell of the work about it, and lets the task join the group of the
work, which is again a look at the group first and the entry into its list later. Between any two of
these steps other carriers and threads from outside can come in.
-/

namespace GreenThreads

/-- How far a task is with its work. -/
inductive Stage where
  /-- It was given the work, and the cell of the work does not name it yet. -/
  | given
  /-- The cell of the work names it. -/
  | bound
  /-- It has found a group open, and is not in its list yet; the work may have begun before. -/
  | joining (g : GroupId) (begun : Bool)
  /-- The work can begin. -/
  | ready
  | running
  /-- The work has come to its end, and its result was told. -/
  | returned
deriving DecidableEq, Repr

/-- A task with the work that it has. -/
structure Stint where
  task : TaskId
  work : Submission
  stage : Stage
deriving DecidableEq, Repr

/-- The floor of an engine, with the work that tasks have. -/
structure Workshop (V : Type) where
  floor : Floor V
  /-- The tasks that have work. -/
  bench : List Stint := []
  /-- The work that is not outstanding any more. -/
  settled : List JobId := []

/-! ## What is in hand -/

namespace Phase

/-- The errand of a carrier that has new work in hand. -/
def errand : Phase → Phase
  | holding (.start s) => holding (.start s)
  | readying t s => readying t s
  | looking | holding (.resume _) | resuming _ | working _ | blocked _ _ | leaving _ _
  | settling => looking

/-- The new work that a carrier has in hand. -/
def inHand : Phase → List Submission
  | holding (.start s) | readying _ s => [s]
  | looking | holding (.resume _) | resuming _ | working _ | blocked _ _ | leaving _ _
  | settling => []

theorem inHand_errand (p : Phase) : p.errand.inHand = p.inHand := by
  cases p with
  | holding r => cases r <;> rfl
  | _ => rfl

theorem eq_of_errand_readying {p : Phase} {t : TaskId} {s : Submission}
    (h : p.errand = readying t s) : p = readying t s := by
  cases p with
  | readying u w => exact h
  | holding r => cases r <;> cases h
  | _ => cases h

end Phase

/-- The new work that carriers have in hand. -/
def Floor.hands {V : Type} (f : Floor V) : List Submission := f.phases.toList.flatMap Phase.inHand

/-! ## Changes that leave the work alone -/

/-- `y` is `x` with the work that it had, and a cancellation that was requested still is. -/
structure Task.Steady (x y : Task) : Prop where
  alive : y.status = .alive ↔ x.status = .alive
  generation : y.generation = x.generation
  job : y.job = x.job
  cancelled : x.cancelled = true → y.cancelled = true

/-- `y` is as far as `x`, is carried by the same task, and a cancellation that was requested still
is. -/
structure Join.Steady {V : Type} (x y : Join V) : Prop where
  done : y.done = x.done
  binding : y.binding = x.binding
  requested : x.cancelRequested = true → y.cancelRequested = true

theorem Task.Steady.refl (x : Task) : Steady x x := ⟨Iff.rfl, rfl, rfl, fun h => h⟩

theorem Task.Steady.trans {x y z : Task} (h : Steady x y) (h' : Steady y z) : Steady x z :=
  ⟨h'.alive.trans h.alive, h'.generation.trans h.generation, h'.job.trans h.job,
    fun hc => h'.cancelled (h.cancelled hc)⟩

theorem Join.Steady.refl {V : Type} (x : Join V) : Steady x x := ⟨rfl, rfl, fun h => h⟩

theorem Join.Steady.trans {V : Type} {x y z : Join V} (h : Steady x y) (h' : Steady y z) :
    Steady x z :=
  ⟨h'.done.trans h.done, h'.binding.trans h.binding, fun hc => h'.requested (h.requested hc)⟩

theorem Task.Nudged.steady {x y : Task} (h : x.Nudged y) : x.Steady y := by
  have hstatus : y.status = x.status := (congrArg Task.status h.badge :)
  refine ⟨by rw [hstatus], (congrArg Task.generation h.badge :), (congrArg Task.job h.badge :),
    h.cancelled⟩

/-- Run times and groups have no part in the work of a task. -/
theorem Task.Metered.steady {x y : Task} (h : x.Metered y) : x.Steady y := by
  obtain ⟨n, r, g, rfl⟩ := h
  exact ⟨Iff.rfl, rfl, rfl, fun h => h⟩

theorem Task.Metered.enter {x y : Task} (h : x.Metered y) (g : Option GroupId) :
    x.Metered { y with group := g } := by
  obtain ⟨n, r, g', rfl⟩ := h
  exact ⟨n, r, g, rfl⟩

/-- `y` is `x` some time later: it has the work that it was given last, or was given other work
since. -/
def Task.Later (x y : Task) : Prop :=
  y.generation = x.generation ∧ y.job = x.job ∨ x.generation < y.generation

theorem Task.Later.refl (x : Task) : Later x x := .inl ⟨rfl, rfl⟩

theorem Task.Steady.later {x y : Task} (h : Steady x y) : x.Later y := .inl ⟨h.generation, h.job⟩

/-- `y` is `x` some time later: it still names who was told to carry the work, and a cancellation
that was requested still is. -/
structure Join.Later {V : Type} (x y : Join V) : Prop where
  binding : ∀ b, x.binding = some b → y.binding = some b
  requested : x.cancelRequested = true → y.cancelRequested = true

theorem Join.Later.refl {V : Type} (x : Join V) : Later x x := ⟨fun _ h => h, fun h => h⟩

theorem Join.Steady.later {V : Type} {x y : Join V} (h : Steady x y) : x.Later y :=
  ⟨fun _ hb => h.binding.trans hb, h.requested⟩

theorem Join.Nudged.steady {V : Type} {x y : Join V} (h : x.Nudged y) : x.Steady y :=
  ⟨(congrArg Prod.fst h.record :), (congrArg Prod.snd h.record :), h.requested⟩

namespace Engine

variable {V : Type} {e e' e'' : Engine V} {t : TaskId} {j : JobId} {f : Task → Task} {x y : Task}

/-- The tasks of `e'` have the work that they had in `e`, and the cells tell the same; there may be
tasks without work that `e` did not have. -/
structure Steady (e e' : Engine V) : Prop where
  tasks : ∀ t x, e.task? t = some x → ∃ y, e'.task? t = some y ∧ x.Steady y
  alive : ∀ t y, e'.task? t = some y → y.status = .alive → ∃ x, e.task? t = some x
  jobs : ∀ (j : JobId) (x : Join V), e.jobs[j]? = some x → ∃ y, e'.jobs[j]? = some y ∧ x.Steady y
  files : e'.jobs.size = e.jobs.size
  carriers : e'.carriers.size = e.carriers.size

namespace Steady

theorem refl (e : Engine V) : Steady e e :=
  ⟨fun _ x hx => ⟨x, hx, .refl x⟩, fun _ y hy _ => ⟨y, hy⟩, fun _ x hx => ⟨x, hx, .refl x⟩, rfl, rfl⟩

/-- What a task that has work was before. -/
theorem exists_task (h : Steady e e') (hy : e'.task? t = some y) (halive : y.status = .alive) :
    ∃ x, e.task? t = some x ∧ x.Steady y := by
  obtain ⟨x, hx⟩ := h.alive t y hy halive
  obtain ⟨y', hy', hxy⟩ := h.tasks t x hx
  rw [hy] at hy'
  cases hy'
  exact ⟨x, hx, hxy⟩

/-- What a cell was before. -/
theorem exists_job (h : Steady e e') {cell' : Join V} (hj : e'.jobs[j]? = some cell') :
    ∃ cell, e.jobs[j]? = some cell ∧ cell.Steady cell' := by
  have hlt : j < e.jobs.size := h.files ▸ (Array.getElem?_eq_some_iff.mp hj).1
  obtain ⟨cell'', hj', hcell⟩ := h.jobs j _ (Array.getElem?_eq_getElem hlt)
  rw [hj] at hj'
  cases hj'
  exact ⟨_, Array.getElem?_eq_getElem hlt, hcell⟩

theorem trans (h : Steady e e') (h' : Steady e' e'') : Steady e e'' := by
  refine ⟨fun t x hx => ?_, fun t z hz halive => ?_, fun j x hx => ?_, h'.files.trans h.files,
    h'.carriers.trans h.carriers⟩
  · obtain ⟨y, hy, hxy⟩ := h.tasks t x hx
    obtain ⟨z, hz, hyz⟩ := h'.tasks t y hy
    exact ⟨z, hz, hxy.trans hyz⟩
  · obtain ⟨y, hy, hyz⟩ := h'.exists_task hz halive
    exact h.alive t y hy (hyz.alive.mp halive)
  · obtain ⟨y, hy, hxy⟩ := h.jobs j x hx
    obtain ⟨z, hz, hyz⟩ := h'.jobs j y hy
    exact ⟨z, hz, hxy.trans hyz⟩

theorem flag (h : Steady e e') (t : TaskId) :
    e'.flag t (·.status == .alive) = e.flag t (·.status == .alive) := by
  have hiff : ∀ n : Engine V, 0 < n.flag t (·.status == .alive) ↔
      ∃ x, n.task? t = some x ∧ x.status = .alive := by
    intro n
    constructor
    · intro hpos
      obtain ⟨x, hx, halive⟩ := exists_of_flag_pos hpos
      exact ⟨x, hx, by simpa using halive⟩
    · rintro ⟨x, hx, halive⟩
      rw [flag_eq_one hx (by rw [halive]; rfl)]
      exact Nat.one_pos
  have hpos : 0 < e'.flag t (·.status == .alive) ↔ 0 < e.flag t (·.status == .alive) := by
    rw [hiff, hiff]
    constructor
    · rintro ⟨y, hy, halive⟩
      obtain ⟨x, hx, hxy⟩ := h.exists_task hy halive
      exact ⟨x, hx, hxy.alive.mp halive⟩
    · rintro ⟨x, hx, halive⟩
      obtain ⟨y, hy, hxy⟩ := h.tasks t x hx
      exact ⟨y, hy, hxy.alive.mpr halive⟩
  have hone := e.flag_le_one t (·.status == .alive)
  have hone' := e'.flag_le_one t (·.status == .alive)
  omega

end Steady

/-! ## Operations that leave the work alone -/

/-- Neither tasks nor cells change. -/
theorem steady_of_eq (ht : e'.tasks = e.tasks) (hj : e'.jobs = e.jobs)
    (hc : e'.carriers.size = e.carriers.size) : Steady e e' := by
  have htask : ∀ t, e'.task? t = e.task? t := fun t => by rw [task?, ht, task?]
  exact ⟨fun t x hx => ⟨x, (htask t).trans hx, .refl x⟩,
    fun t y hy _ => ⟨y, (htask t).symm.trans hy⟩, fun j x hx => ⟨x, by rw [hj]; exact hx, .refl x⟩,
    by rw [hj], hc⟩

theorem steady_updateTask (h : ∀ x, e.task? t = some x → x.Steady (f x)) :
    Steady e (e.updateTask t f) := by
  refine ⟨fun u x hx => ?_, fun u y hy _ => ?_, fun j x hx => ⟨x, hx, .refl x⟩, rfl, rfl⟩
  · rw [task?_updateTask]
    split
    · next hu =>
        subst hu
        exact ⟨f x, by rw [hx]; rfl, h x hx⟩
    · exact ⟨x, hx, .refl x⟩
  · rw [task?_updateTask] at hy
    split at hy
    · obtain ⟨x, hx, -⟩ := Option.map_eq_some_iff.mp hy
      exact ⟨x, hx⟩
    · exact ⟨y, hy⟩

theorem steady_put (hx : e.task? t = some x) (h : x.Steady y) :
    Steady e (e.updateTask t fun _ => y) := by
  refine steady_updateTask fun z hz => ?_
  rw [hx] at hz
  cases hz
  exact h

theorem steady_updateJob {k : Join V → Join V} (h : ∀ x, e.jobs[j]? = some x → x.Steady (k x)) :
    Steady e (e.updateJob j k) := by
  refine ⟨fun t x hx => ⟨x, hx, .refl x⟩, fun t y hy _ => ⟨y, hy⟩, fun i x hx => ?_,
    Array.size_modify, rfl⟩
  rw [updateJob, Array.getElem?_modify]
  split
  · next hi =>
      subst hi
      exact ⟨k x, by rw [hx]; rfl, h x hx⟩
  · exact ⟨x, hx, .refl x⟩

theorem Nudge.steady (h : Nudge e e') : Steady e e' := by
  cases h with
  | task h _ => exact steady_updateTask fun x hx => (h x hx).steady
  | carrier _ => exact steady_of_eq rfl rfl (Floor.size_updateCarrier _ _ _)
  | job h => exact steady_updateJob fun x hx => (h x hx).steady
  | _ => exact steady_of_eq rfl rfl rfl

/-- Wakes, timers, channels, run times, quotas, cancellations and switches leave the work alone. -/
theorem Nudges.steady (h : Nudges e e') : Steady e e' := h.induct .refl .trans Nudge.steady

theorem steady_vacate (e : Engine V) (c : Nat) (t : TaskId) : Steady e (e.vacate c t) := by
  have hcarrier : Steady e (e.updateCarrier c ({ · with current := none, state := .idle })) :=
    steady_of_eq rfl rfl (Floor.size_updateCarrier _ _ _)
  exact hcarrier.trans (steady_updateTask fun _ _ => ⟨Iff.rfl, rfl, rfl, fun h => h⟩)

theorem steady_makeTask (e : Engine V) : Steady e e.makeTask.1 := by
  refine ⟨fun t x hx => ⟨x, ?_, .refl x⟩, fun t y hy halive => ?_,
    fun _ x hx => ⟨x, hx, .refl x⟩, rfl, rfl⟩
  · rw [task?_makeTask, if_neg]
    · exact hx
    · rintro rfl
      have hnone : e.task? e.makeTask.2 = none := Array.getElem?_eq_none (Nat.le_refl _)
      rw [hx] at hnone
      cases hnone
  · rw [task?_makeTask] at hy
    split at hy
    · cases hy
      cases halive
    · exact ⟨y, hy⟩

theorem Popped.steady (h : e.Popped t e') : Steady e e' := by
  have hsize := h.sameWork.size
  cases h with
  | own hi =>
      obtain ⟨d, rest, -, -, rfl⟩ := popPooled?_spec hi
      exact steady_of_eq rfl rfl hsize
  | shared hi => exact steady_of_eq rfl rfl rfl

theorem Left.steady {s : Submission} (h : Left s e e') : Steady e e' :=
  steady_of_eq h.tasks h.jobs h.size

/-! ## Run queues and pools -/

theorem Taken.eq {c : Nat} {r : Runnable} (h : e.Taken c r e') :
    ∃ carriers shared, e' = { e with carriers, shared } := by
  have hdequeue : ∀ {i : Nat} {e' : Engine V}, e.dequeue? i = some (r, e') →
      ∃ carriers shared, e' = { e with carriers, shared } := by
    intro i e' hi
    obtain ⟨d, rest, -, -, rfl⟩ := dequeue?_spec hi
    exact ⟨_, _, rfl⟩
  cases h with
  | own hi => exact hdequeue hi
  | stolen _ _ hi => exact hdequeue hi
  | shared _ hi =>
      obtain ⟨rest, -, rfl⟩ := dequeueShared?_spec hi
      exact ⟨_, _, rfl⟩

theorem place_eq (e : Engine V) (caller : Option TaskId) (s : Submission) :
    ∃ carriers shared, e.place caller s = { e with carriers, shared } := by
  unfold place
  split
  · exact ⟨_, _, rfl⟩
  · split <;> exact ⟨_, _, rfl⟩

theorem Popped.eq (h : e.Popped t e') : ∃ carriers pool, e' = { e with carriers, pool } := by
  cases h with
  | own hi =>
      obtain ⟨d, rest, -, -, rfl⟩ := popPooled?_spec hi
      exact ⟨_, _, rfl⟩
  | shared => exact ⟨_, _, rfl⟩

theorem recycle_eq (e : Engine V) (c : Nat) (t : TaskId) : ∃ n carriers pool stats,
    e.recycle c t = { e.updateTask t ({ · with status := n }) with carriers, pool, stats } := by
  unfold recycle
  dsimp only
  split
  · exact ⟨.cached, _, _, _, rfl⟩
  · split
    · exact ⟨.cached, _, _, _, rfl⟩
    · rw [updateTask_updateTask]
      exact ⟨.dead, _, _, _, rfl⟩

/-! ## Parts of operations -/

/-- A task that may be given new work: one out of a pool, or a new one. -/
inductive Obtained (e : Engine V) : TaskId → Engine V → Prop
  | pooled {t : TaskId} {e' : Engine V} (h : e.Popped t e') : Obtained e t e'
  | fresh : Obtained e e.makeTask.2 e.makeTask.1

theorem Obtained.steady (h : e.Obtained t e') : Steady e e' := by
  cases h with
  | pooled h => exact h.steady
  | fresh => exact steady_makeTask e

theorem Obtained.starts (h : e.Obtained t e') : e'.starts = e.starts := by
  cases h with
  | pooled h => exact h.sameWork.starts
  | fresh => rfl

/-- The result of work that is given up is told, and it is not outstanding any more. -/
def giveUp (e : Engine V) (j : JobId) : Engine V :=
  (e.updateJob j fun cell => cell.abandon.1).finishOne

/-- The cell of a piece of work is told which task has it, and the engine as well. -/
def tell (e : Engine V) (t : TaskId) (j : JobId) (generation : Nat) : Engine V :=
  { e.updateJob j (·.bind { task := t, generation }) with live := e.live ++ [t] }

/-- The second half of an attachment, when the group was found open: a task without a group gets
into the list. -/
def enroll (e : Engine V) (now : Nanos) (t : TaskId) (g : GroupId) : Engine V :=
  match e.task? t, e.groups[g]? with
  | some x, some G =>
    match x.group with
    | none =>
      let y := { (x.takeElapsed now).1 with group := some g }
      (e.updateGroup g fun _ => G.enroll y).updateTask t fun _ => y
    | some _ => e
  | _, _ => e

/-- The end of work, before the task is recycled. -/
def signOff (e : Engine V) (t : TaskId) : Engine V :=
  { e with live := e.live.filter (· != t) }.finishOne

/-- To attach a task is to look at the group and then to enroll the task. -/
theorem attach_eq_enroll (e : Engine V) (now : Nanos) (t : TaskId) (g : GroupId) :
    (e.attach now t g).1 = if e.isGone (some g) = true then e else e.enroll now t g := by
  unfold attach enroll isGone ControlGroup.attach
  rw [Option.bind_some]
  cases hx : e.task? t with
  | none => simp
  | some x =>
    cases hG : e.groups[g]? with
    | none => simp
    | some G =>
      cases hgone : G.destroyed with
      | true => simp [hgone]
      | false =>
        cases hgroup : x.group with
        | none => simp [hgone, hgroup]
        | some h =>
          by_cases heq : h = g
          · have htasks : e.tasks.modify t.index (fun _ => x) = e.tasks := modify_eq_self hx rfl
            have hgroups : e.groups.modify g (fun _ => G) = e.groups := modify_eq_self hG rfl
            simp [hgone, hgroup, heq, updateGroup, updateTask, htasks, hgroups]
          · simp [hgone, hgroup, heq]

theorem frame_enroll (e : Engine V) (now : Nanos) (t : TaskId) (g : GroupId) :
    Frame e (e.enroll now t g) := by
  unfold enroll
  split
  · next x G hx _ =>
      split
      · obtain ⟨hcore, htimeout⟩ := Task.Stays.takeElapsed x now
        exact (frame_updateGroup e g _).trans (frame_put hx hcore htimeout)
      · exact .refl e
  · exact .refl e

theorem starts_enroll (e : Engine V) (now : Nanos) (t : TaskId) (g : GroupId) :
    (e.enroll now t g).starts = e.starts := by
  unfold enroll
  split
  · split <;> rfl
  · rfl

theorem steady_enroll (e : Engine V) (now : Nanos) (t : TaskId) (g : GroupId) :
    Steady e (e.enroll now t g) := by
  unfold enroll
  split
  · next x G hx _ =>
      split
      · have hgroup : Steady e (e.updateGroup g fun _ => G.enroll
            { (x.takeElapsed now).1 with group := some g }) := steady_of_eq rfl rfl rfl
        exact hgroup.trans (steady_put hx ((Task.Metered.takeElapsed x now).enter (some g)).steady)
      · exact .refl e
  · exact .refl e

theorem steady_detach (e : Engine V) (now : Nanos) (t : TaskId) (g : GroupId) :
    Steady e (e.detach now t g) := by
  unfold detach
  split
  · next x G hx _ =>
      have hgroup : Steady e (e.updateGroup g fun _ => (G.detach g x now).1) :=
        steady_of_eq rfl rfl rfl
      exact hgroup.trans (steady_put hx (Task.Metered.detach G g x now).steady)
  · exact .refl e

/-- To give work to a task is to change the task and then to tell about it. -/
theorem assign_eq_tell {c : Nat} {s : Submission} (hx : e.task? t = some x)
    (hcached : x.status = .cached) (hidle : ∀ a, (x.parker a).isWaiting = false) :
    e.assign c t s = (e.updateTask t (Floor.assigned c s)).tell t s.job (x.generation + 1) := by
  rw [Floor.updateTask_eq_put hx]
  simp only [assign, hx, Task.reset_of_idle hcached hidle]
  rfl

end Engine

namespace Workshop

variable {V : Type}

/-- The engine of a workshop. -/
abbrev engine (w : Workshop V) : Engine V := w.floor.engine

/-- The workshop with another state of its engine. -/
def put (w : Workshop V) (e : Engine V) : Workshop V := { w with floor.engine := e }

/-- Carrier `c` gets on to another phase. -/
def move (w : Workshop V) (c : Nat) (p : Phase) (e : Engine V) : Workshop V :=
  { w with floor := w.floor.move c p e }

/-- A task gets on with its work. -/
def advance (w : Workshop V) (s : Stint) (p : Stage) : Workshop V :=
  { w with bench := { s with stage := p } :: w.bench.erase s }

/-- Accepted work gets a cell and is put into a run queue. -/
def place (w : Workshop V) (caller : Option TaskId) (name : String) (group : Option GroupId) :
    Workshop V :=
  w.put ((w.engine.makeJob.1.count .tasksSubmitted).place caller
    { job := w.engine.makeJob.2, name, group })

/-- The cell of a piece of work is marked: the work is to be cancelled. -/
def request (w : Workshop V) (j : JobId) : Workshop V :=
  w.put (w.engine.updateJob j fun cell => cell.requestCancel.1)

/-- The work of a task is to be unwound. -/
def strike (w : Workshop V) (t : TaskId) : Workshop V :=
  w.put (w.engine.updateTask t ({ · with cancelled := true }))

/-- An axis of a task is released, and whoever did this has yet to wake the task. -/
def release (w : Workshop V) (t : TaskId) (x : Task) (a : Axis) : Workshop V :=
  { w with floor := { w.floor with
      engine := w.engine.updateTask t fun _ => (x.release a).1
      freed := w.floor.freedBy t (x.release a).2 } }

theorem task?_strike {w : Workshop V} {t : TaskId} {x : Task} (hx : w.engine.task? t = some x) :
    (w.strike t).engine.task? t = some { x with cancelled := true } := by
  have hself := Engine.task?_updateTask_self w.engine t ({ · with cancelled := true })
  rw [hx] at hself
  exact hself

theorem task?_release {w : Workshop V} {t : TaskId} {x : Task} (hx : w.engine.task? t = some x)
    (a : Axis) : (w.release t x a).engine.task? t = some (x.release a).1 := by
  have hself := Engine.task?_updateTask_self w.engine t fun _ => (x.release a).1
  rw [hx] at hself
  exact hself

theorem release_release (w : Workshop V) (t : TaskId) (x : Task) :
    (w.release t x .internal).release t (x.release .internal).1 .user =
      { w with floor := { w.floor with
        engine := w.engine.updateTask t fun _ => ((x.release .internal).1.release .user).1
        freed := Floor.freedBy
          { w.floor with freed := w.floor.freedBy t ((x.release .internal).1.release .user).2 } t
          (x.release .internal).2 } } := by
  rw [← Floor.freedBy_freedBy]
  have hput : (w.engine.updateTask t fun _ => (x.release .internal).1).updateTask t
      (fun _ => ((x.release .internal).1.release .user).1) =
        w.engine.updateTask t fun _ => ((x.release .internal).1.release .user).1 :=
    Engine.updateTask_updateTask ..
  rw [← hput]
  unfold release
  cases (x.release .internal).2 <;> cases ((x.release .internal).1.release .user).2 <;> rfl

/-- A step of the floor that leaves new work in hand and the work of tasks alone. -/
structure Aside (w w' : Workshop V) : Prop where
  floor : Floor.Step w.floor w'.floor
  errands : w'.floor.phases.map Phase.errand = w.floor.phases.map Phase.errand
  steady : w.engine.Steady w'.engine
  starts : w'.engine.starts = w.engine.starts
  bench : w'.bench = w.bench
  settled : w'.settled = w.settled

theorem aside_floor {w : Workshop V} {f : Floor V} (step : Floor.Step w.floor f)
    (errands : f.phases.map Phase.errand = w.floor.phases.map Phase.errand)
    (steady : w.engine.Steady f.engine) (starts : f.engine.starts = w.engine.starts) :
    Aside w { w with floor := f } := ⟨step, errands, steady, starts, rfl, rfl⟩

/-- A carrier gets on with the same errand, or with none. -/
theorem aside_move {w : Workshop V} {c : Nat} {p p' : Phase} {e : Engine V}
    (step : Floor.Step w.floor (w.floor.move c p' e)) (at_ : w.floor.phases[c]? = some p)
    (errand : p'.errand = p.errand) (steady : w.engine.Steady e)
    (starts : e.starts = w.engine.starts) : Aside w (w.move c p' e) := by
  have errands : (w.floor.phases.modify c fun _ => p').map Phase.errand =
      w.floor.phases.map Phase.errand := by
    refine map_modify_of_eq fun q hq => ?_
    rw [at_] at hq
    cases hq
    exact errand
  exact aside_floor step errands steady starts

theorem aside_put {w : Workshop V} {e : Engine V} (frame : w.engine.Frame e)
    (steady : w.engine.Steady e) (starts : e.starts = w.engine.starts) : Aside w (w.put e) :=
  aside_floor (.other frame) rfl steady starts

theorem aside_request (w : Workshop V) (j : JobId) : Aside w (w.request j) :=
  aside_put (Engine.frame_updateJob _ j _)
    (Engine.steady_updateJob fun _ _ => ⟨rfl, rfl, fun _ => rfl⟩) rfl

theorem aside_strike (w : Workshop V) (t : TaskId) : Aside w (w.strike t) :=
  aside_put (Engine.frame_updateTask (fun _ => rfl) fun _ => rfl)
    (Engine.steady_updateTask fun _ _ => ⟨Iff.rfl, rfl, rfl, fun _ => rfl⟩) rfl

/-- A step of the floor that is made of nudges. -/
def Nudged (w w' : Workshop V) : Prop := Aside w w' ∧ w.engine.Nudges w'.engine

theorem nudged_release {w : Workshop V} {t : TaskId} {x : Task} (found : w.engine.task? t = some x)
    (a : Axis) : Nudged w (w.release t x a) := by
  have hnudges : w.engine.Nudges (w.engine.updateTask t fun _ => (x.release a).1) :=
    Engine.nudges_put found (Engine.nudged_release x a) (Engine.carrier_release x a)
  exact ⟨aside_floor (.release a found) rfl hnudges.steady rfl, hnudges⟩

theorem nudged_wake {w : Workshop V} {t : TaskId} (now : Nanos) (h : t ∈ w.floor.freed) :
    Nudged w { w with floor := { w.floor with
      engine := w.engine.wake now t
      freed := w.floor.freed.erase t } } := by
  have hnudges := Engine.nudges_wake w.engine now t
  exact ⟨aside_floor (.wake now h) rfl hnudges.steady hnudges.sameWork.starts, hnudges⟩

/-- Whoever released an axis wakes the task. -/
theorem nudged_wakeReleased (w : Workshop V) (f : Floor V) (e : Engine V) (now : Nanos) (t : TaskId)
    (o : Released) : Relation.ReflTransGen Nudged
      { w with floor := { f with engine := e, freed := f.freedBy t o } }
      { w with floor := { f with engine := e.wakeReleased now t o } } := by
  cases o with
  | cooperative =>
      have hwake : Nudged { w with floor := { f with engine := e, freed := t :: f.freed } }
          { w with floor := { f with engine := e.wake now t, freed := (t :: f.freed).erase t } } :=
        nudged_wake now List.mem_cons_self
      rw [List.erase_cons_head] at hwake
      exact .single hwake
  | native => exact .refl
  | permit => exact .refl

/-- Both axes of a task are released before it is woken. -/
theorem nudged_cancelTask {w : Workshop V} {t : TaskId} {x : Task} {n : Nat}
    (hx : w.engine.task? t = some x) (hc : x.carries n = true) (now : Nanos) :
    let y := { x with cancelled := true }
    Relation.ReflTransGen Nudged
      (((w.strike t).release t y .internal).release t (y.release .internal).1 .user)
      (w.put (w.engine.cancelTask now t n).1) := by
  intro y
  have hcancel : (w.engine.cancelTask now t n).1 = (((w.strike t).engine.updateTask t fun _ =>
      ((y.release .internal).1.release .user).1).wakeReleased now t
        (y.release .internal).2).wakeReleased now t ((y.release .internal).1.release .user).2 := by
    simp only [Engine.cancelTask, hx, Task.cancel, hc, ↓reduceIte, strike, engine, put,
      Engine.updateTask_updateTask]
    rfl
  rw [release_release, hcancel]
  have hinternal := nudged_wakeReleased (w.strike t)
    { (w.strike t).floor with
      freed := (w.strike t).floor.freedBy t ((y.release .internal).1.release .user).2 }
    ((w.strike t).engine.updateTask t fun _ => ((y.release .internal).1.release .user).1) now t
    (y.release .internal).2
  exact hinternal.trans (nudged_wakeReleased (w.strike t) (w.strike t).floor _ now t _)

/-- What carriers and tasks do with work. The steps of a task are taken while it goes on. -/
inductive Work : Workshop V → Workshop V → Prop
  -- A carrier with new work
  | take {w : Workshop V} {c : Nat} {s : Submission} {e : Engine V}
      (at_ : w.floor.phases[c]? = some .looking) (h : w.engine.Taken c (.start s) e) :
      Work w (w.move c (.holding (.start s)) e)
  /-- The work was cancelled before it started, or its group is gone. -/
  | abandon {w : Workshop V} {c : Nat} {s : Submission}
      (at_ : w.floor.phases[c]? = some (.holding (.start s))) (moot : w.engine.isMoot s = true) :
      Work w { w.move c .looking (w.engine.giveUp s.job) with settled := s.job :: w.settled }
  /-- The work is found worth beginning, and a task is obtained for it. -/
  | obtain {w : Workshop V} {c : Nat} {s : Submission} {t : TaskId} {e : Engine V}
      (at_ : w.floor.phases[c]? = some (.holding (.start s))) (sound : w.engine.isMoot s = false)
      (h : w.engine.Obtained t e) : Work w (w.move c (.readying t s) e)
  | give {w : Workshop V} {c : Nat} {t : TaskId} {s : Submission}
      (at_ : w.floor.phases[c]? = some (.readying t s)) :
      Work w { w.move c (.resuming t) (w.engine.updateTask t (Floor.assigned c s)) with
        bench := ⟨t, s, .given⟩ :: w.bench }
  | bind {w : Workshop V} {s : Stint} {x : Task} (on : s ∈ w.bench) (stage : s.stage = .given)
      (found : w.engine.task? s.task = some x) :
      Work w ((w.advance s .bound).put (w.engine.tell s.task s.work.job x.generation))
  -- The group of the work
  /-- There is no group, or it is found gone: then the work runs unmetered. -/
  | pass {w : Workshop V} {s : Stint} (on : s ∈ w.bench) (stage : s.stage = .bound)
      (free : s.work.group = none ∨ w.engine.isGone s.work.group = true) :
      Work w (w.advance s .ready)
  | knock {w : Workshop V} {s : Stint} {g : GroupId} (on : s ∈ w.bench) (stage : s.stage = .bound)
      (group : s.work.group = some g) (stands : w.engine.isGone (some g) = false) :
      Work w (w.advance s (.joining g false))
  | enroll {w : Workshop V} {s : Stint} {g : GroupId} {begun : Bool} (now : Nanos)
      (on : s ∈ w.bench) (stage : s.stage = .joining g begun) :
      Work w ((w.advance s (if begun then .running else .ready)).put
        (w.engine.enroll now s.task g))
  -- The running task
  | run {w : Workshop V} {c : Nat} {s : Stint} (on : s ∈ w.bench) (stage : s.stage = .ready)
      (at_ : w.floor.phases[c]? = some (.working s.task)) : Work w (w.advance s .running)
  /-- The task attaches itself to a group. -/
  | enter {w : Workshop V} {c : Nat} {s : Stint} {g : GroupId} (on : s ∈ w.bench)
      (stage : s.stage = .running) (at_ : w.floor.phases[c]? = some (.working s.task))
      (stands : w.engine.isGone (some g) = false) : Work w (w.advance s (.joining g true))
  /-- The task leaves its group, by itself or when its work is over. -/
  | detach {w : Workshop V} {c : Nat} {s : Stint} {g : GroupId} (now : Nanos) (on : s ∈ w.bench)
      (stage : s.stage = .running ∨ s.stage = .returned)
      (at_ : w.floor.phases[c]? = some (.working s.task)) :
      Work w (w.put (w.engine.detach now s.task g))
  /-- The work ends, with a value or unwound, and its result is told. -/
  | finish {w : Workshop V} {c : Nat} {s : Stint} (outcome : Except Unwind V) (on : s ∈ w.bench)
      (stage : s.stage = .running) (at_ : w.floor.phases[c]? = some (.working s.task)) :
      Work w ((w.advance s .returned).put
        (w.engine.updateJob s.work.job fun cell => (cell.finish outcome).1))
  /-- The task is kept for reuse or destroyed. -/
  | exit {w : Workshop V} {c : Nat} {s : Stint} {x : Task} (on : s ∈ w.bench)
      (stage : s.stage = .returned) (at_ : w.floor.phases[c]? = some (.working s.task))
      (found : w.engine.task? s.task = some x) (alone : x.group = none) :
      Work w { w.move c (.leaving s.task none)
          ((w.engine.signOff s.task).recycle c s.task) with
        bench := w.bench.erase s
        settled := s.work.job :: w.settled }

end Workshop

end GreenThreads

import GreenThreads.Proofs.Ledger.Crew

/-!
# The cells of work that was picked up

The cell of a piece of work names the task that carries it, in the incarnation that carries it. As
long as this incarnation is the present one, the work is on the bench or it is over; once the task
has been given other work, it is over.
-/

namespace GreenThreads

/-- Which work a task was last given, and how many times it was given any. -/
def Task.file (t : Task) : Nat × Option JobId := (t.generation, t.job)

namespace Ledger

open Engine

variable {V : Type} {e e' : Engine V} {bench bench' : List Shift} {completed settled : List JobId}
  {s : Shift} {t : TaskId} {c : Nat} {j : JobId} {x : Task} {cell : Join V}

/-- The cells of work agree with the tasks, and with what became of the work. -/
structure Filed (e : Engine V) (bench : List Shift) (completed settled : List JobId) : Prop where
  duty : ∀ s ∈ bench, ∃ x cell, e.task? s.task = some x ∧ x.job = some s.job ∧
    e.jobs[s.job]? = some cell ∧ cell.binding = some ⟨s.task, x.generation⟩
  bound : ∀ j (cell : Join V) b, e.jobs[j]? = some cell → cell.binding = some b →
    ∃ x, e.task? b.task = some x ∧ b.generation ≤ x.generation ∧
      (b.generation = x.generation → x.job = some j) ∧
      (j ∈ settled ∨ b.generation = x.generation ∧ ∃ s ∈ bench, s.task = b.task ∧ s.job = j)
  done : ∀ j (cell : Join V), e.jobs[j]? = some cell → (cell.done = true ↔ j ∈ completed)

namespace Filed

theorem same (h : Filed e bench completed settled)
    (htasks : e'.tasks.map Task.file = e.tasks.map Task.file)
    (hjobs : e'.jobs.map Join.record = e.jobs.map Join.record) :
    Filed e' bench completed settled := by
  have htask : ∀ u x, e.task? u = some x → ∃ y, e'.task? u = some y ∧ y.file = x.file :=
    fun u x hx => (exists_of_map_eq htasks.symm hx).imp fun _ hy => ⟨hy.1, hy.2.symm⟩
  have hcell : ∀ (j : JobId) (cell' : Join V), e'.jobs[j]? = some cell' →
      ∃ cell : Join V, e.jobs[j]? = some cell ∧ cell'.record = cell.record :=
    fun j cell' hj => exists_of_map_eq hjobs hj
  refine ⟨?_, ?_, ?_⟩
  · intro s hs
    obtain ⟨x, cell, hx, hjob, hj, hb⟩ := h.duty s hs
    obtain ⟨y, hy, hfile⟩ := htask _ x hx
    obtain ⟨cell', hj', hrecord⟩ := exists_of_map_eq hjobs.symm hj
    have hgeneration : y.generation = x.generation := congrArg Prod.fst hfile
    have hbinding : cell.binding = cell'.binding := congrArg Prod.snd hrecord
    refine ⟨y, cell', hy, (congrArg Prod.snd hfile).trans hjob, hj', ?_⟩
    rw [← hbinding, hb, hgeneration]
  · intro j cell' b hj' hb'
    obtain ⟨cell, hj, hrecord⟩ := hcell j cell' hj'
    obtain ⟨x, hx, hbound⟩ := h.bound j cell b hj ((congrArg Prod.snd hrecord).symm.trans hb')
    obtain ⟨y, hy, hfile⟩ := htask _ x hx
    have hgeneration : y.generation = x.generation := congrArg Prod.fst hfile
    have hjob : y.job = x.job := congrArg Prod.snd hfile
    refine ⟨y, hy, ?_⟩
    rw [hgeneration, hjob]
    exact hbound
  · intro j cell' hj'
    obtain ⟨cell, hj, hrecord⟩ := hcell j cell' hj'
    have hdone : cell'.done = cell.done := congrArg Prod.fst hrecord
    rw [hdone]
    exact h.done j cell hj

theorem work (h : Filed e bench completed settled) (hs : SameTasks e e')
    (hjobs : e'.jobs.map Join.record = e.jobs.map Join.record) :
    Filed e' bench completed settled := by
  refine h.same ?_ hjobs
  have hduty := congrArg (Array.map Task.file) hs.tasks
  simp only [Array.map_map] at hduty
  exact hduty

theorem perm (h : Filed e bench completed settled) (hp : bench.Perm bench') :
    Filed e bench' completed settled := by
  refine ⟨fun s hs => h.duty s (hp.mem_iff.mpr hs), ?_, h.done⟩
  intro j cell b hj hb
  obtain ⟨x, hx, hle, hjob, hwhere⟩ := h.bound j cell b hj hb
  refine ⟨x, hx, hle, hjob, hwhere.imp_right ?_⟩
  rintro ⟨hgeneration, s, hs, hshift⟩
  exact ⟨hgeneration, s, hp.mem_iff.mp hs, hshift⟩

/-- How far a task is makes no difference. -/
theorem advance (h : Filed e (s :: bench) completed settled) (p : Progress) :
    Filed e ({ s with progress := p } :: bench) completed settled := by
  refine ⟨?_, ?_, h.done⟩
  · intro s' hs'
    cases hs' with
    | head => exact h.duty s (.head _)
    | tail _ hs' => exact h.duty s' (.tail _ hs')
  · intro j cell b hj hb
    obtain ⟨x, hx, hle, hjob, hwhere⟩ := h.bound j cell b hj hb
    refine ⟨x, hx, hle, hjob, hwhere.imp_right ?_⟩
    rintro ⟨hgeneration, s', hs', hshift⟩
    cases hs' with
    | head => exact ⟨hgeneration, _, .head _, hshift⟩
    | tail _ hs' => exact ⟨hgeneration, s', .tail _ hs', hshift⟩

theorem complete (h : Filed e bench completed settled) (j : JobId) :
    Filed (e.updateJob j ({ · with done := true })) bench (j :: completed) settled := by
  have hcell : ∀ (k : JobId) (cell' : Join V),
      (e.updateJob j ({ · with done := true })).jobs[k]? = some cell' →
      ∃ cell, e.jobs[k]? = some cell ∧ cell'.binding = cell.binding ∧
        (cell'.done = true ↔ k = j ∨ cell.done = true) := by
    intro k cell' hk
    simp only [updateJob, Array.getElem?_modify] at hk
    split at hk
    · next hkj =>
        obtain ⟨cell, hcell, rfl⟩ := Option.map_eq_some_iff.mp hk
        exact ⟨cell, hcell, rfl, by simp [hkj]⟩
    · next hkj => exact ⟨cell', hk, rfl, by simp [Ne.symm hkj]⟩
  refine ⟨?_, ?_, ?_⟩
  · intro s hs
    obtain ⟨x, cell, hx, hjob, hj, hb⟩ := h.duty s hs
    have hlt := (Array.getElem?_eq_some_iff.mp hj).1
    obtain ⟨cell', hj'⟩ : ∃ cell', (e.updateJob j ({ · with done := true })).jobs[s.job]? =
        some cell' := ⟨_, Array.getElem?_eq_getElem (by simpa [updateJob] using hlt)⟩
    obtain ⟨old, hold, hbinding, -⟩ := hcell _ cell' hj'
    rw [hj] at hold
    cases hold
    exact ⟨x, cell', hx, hjob, hj', hbinding.trans hb⟩
  · intro k cell' b hk hb
    obtain ⟨cell, hold, hbinding, -⟩ := hcell k cell' hk
    exact h.bound k cell b hold (hbinding.symm.trans hb)
  · intro k cell' hk
    obtain ⟨cell, hold, -, hdone⟩ := hcell k cell' hk
    rw [hdone, List.mem_cons, h.done k cell hold]

theorem close (h : Filed e bench completed settled) (j : JobId) :
    Filed e bench completed (j :: settled) := by
  refine ⟨h.duty, ?_, h.done⟩
  intro k cell b hk hb
  obtain ⟨x, hx, hle, hjob, hwhere⟩ := h.bound k cell b hk hb
  exact ⟨x, hx, hle, hjob, hwhere.imp_left (.tail _)⟩

theorem retire (h : Filed e (s :: bench) completed settled) :
    Filed e bench completed (s.job :: settled) := by
  refine ⟨fun s' hs' => h.duty s' (.tail _ hs'), ?_, h.done⟩
  intro k cell b hk hb
  obtain ⟨x, hx, hle, hjob, hwhere⟩ := h.bound k cell b hk hb
  refine ⟨x, hx, hle, hjob, ?_⟩
  rcases hwhere with hover | ⟨hgeneration, s', hs', htask, rfl⟩
  · exact .inl (.tail _ hover)
  · cases hs' with
    | head => exact .inl (.head _)
    | tail _ hs' => exact .inr ⟨hgeneration, s', hs', htask, rfl⟩

/-! ## New cells and new tasks -/

theorem makeTask (h : Filed e bench completed settled) :
    Filed e.makeTask.1 bench completed settled := by
  have htask : ∀ u x, e.task? u = some x → e.makeTask.1.task? u = some x := by
    intro u x hx
    rw [task?_makeTask]
    split
    · next hu =>
        have hnone : e.task? e.makeTask.2 = none := Array.getElem?_eq_none (Nat.le_refl _)
        rw [hu, hnone] at hx
        cases hx
    · exact hx
  refine ⟨?_, ?_, h.done⟩
  · intro s hs
    obtain ⟨x, cell, hx, hfiled⟩ := h.duty s hs
    exact ⟨x, cell, htask _ x hx, hfiled⟩
  · intro j cell b hj hb
    obtain ⟨x, hx, hbound⟩ := h.bound j cell b hj hb
    exact ⟨x, htask _ x hx, hbound⟩

theorem obtain (h : Filed e bench completed settled) (c : Nat) :
    Filed (e.obtain c).1 bench completed settled := by
  rcases obtain_cases e c with ⟨e₀, hpopped, hrecords⟩ | hmake
  · have hwork := hpopped.sameWork.trans hrecords.sameWork
    exact h.work hwork.toSameTasks hwork.jobs
  · rw [hmake]
    exact h.makeTask

theorem makeJob (h : Filed e bench completed settled) (hnew : e.jobs.size ∉ completed) :
    Filed e.makeJob.1 bench completed settled := by
  have hcell : ∀ (j : JobId) (cell : Join V), e.jobs[j]? = some cell →
      e.makeJob.1.jobs[j]? = some cell := by
    intro j cell hj
    have hlt := (Array.getElem?_eq_some_iff.mp hj).1
    rw [Engine.makeJob, Array.getElem?_push, if_neg (Nat.ne_of_lt hlt)]
    exact hj
  have hcases : ∀ (j : JobId) (cell : Join V), e.makeJob.1.jobs[j]? = some cell →
      e.jobs[j]? = some cell ∨ j = e.jobs.size ∧ cell = {} := by
    intro j cell hj
    rw [Engine.makeJob, Array.getElem?_push] at hj
    split at hj
    · next hj' => cases hj; exact .inr ⟨hj', rfl⟩
    · exact .inl hj
  refine ⟨?_, ?_, ?_⟩
  · intro s hs
    obtain ⟨x, cell, hx, hjob, hj, hb⟩ := h.duty s hs
    exact ⟨x, cell, hx, hjob, hcell _ cell hj, hb⟩
  · intro j cell b hj hb
    rcases hcases j cell hj with hold | ⟨-, rfl⟩
    · exact h.bound j cell b hold hb
    · cases hb
  · intro j cell hj
    rcases hcases j cell hj with hold | ⟨rfl, rfl⟩
    · exact h.done j cell hold
    · exact ⟨Bool.noConfusion, fun hold => absurd hold hnew⟩

/-- The cell of work that nobody has yet is told which task has it now. The cells of the earlier
work of the task are those of work that is over. -/
theorem assign (h : Filed e bench completed settled) {w : Submission} (hx : e.task? t = some x)
    (hcached : x.status = .cached) (hidle : ∀ a, (x.parker a).isWaiting = false)
    (hoff : ∀ s ∈ bench, s.task ≠ t) (hjob : ∀ s ∈ bench, s.job ≠ w.job)
    (hlt : w.job < e.jobs.size) :
    Filed (e.assign c t w) (⟨t, w.job, .given⟩ :: bench) completed settled := by
  rw [assign_eq hx hcached hidle]
  have htask : ∀ u, u ≠ t → (e.updateTask t (Floor.assigned c w)).task? u = e.task? u := by
    intro u hu
    rw [task?_updateTask, if_neg hu]
  have hnew : (e.updateTask t (Floor.assigned c w)).task? t = some (Floor.assigned c w x) := by
    rw [task?_updateTask_self, hx, Option.map_some]
  have hcell : ∀ (k : JobId) (cell' : Join V), (e.jobs.modify w.job
      (·.bind { task := t, generation := x.generation + 1 }))[k]? = some cell' →
        ∃ cell, e.jobs[k]? = some cell ∧ cell'.done = cell.done ∧
          (k = w.job ∧ cell'.binding = some ⟨t, x.generation + 1⟩ ∨ cell' = cell) := by
    intro k cell' hk
    rw [Array.getElem?_modify] at hk
    split at hk
    · next hkj =>
        obtain ⟨cell, hcell, rfl⟩ := Option.map_eq_some_iff.mp hk
        exact ⟨cell, hcell, rfl, .inl ⟨hkj.symm, rfl⟩⟩
    · exact ⟨cell', hk, rfl, .inr rfl⟩
  refine ⟨?_, ?_, ?_⟩
  · intro s hs
    cases hs with
    | head =>
        refine ⟨Floor.assigned c w x,
          e.jobs[w.job].bind { task := t, generation := x.generation + 1 }, hnew, rfl, ?_, rfl⟩
        simp only [updateJob, updateTask, Array.getElem?_modify, ↓reduceIte,
          Array.getElem?_eq_getElem hlt, Option.map_some]
    | tail _ hs =>
        obtain ⟨y, cell, hy, hyjob, hj, hb⟩ := h.duty s hs
        refine ⟨y, cell, (htask s.task (hoff s hs)).trans hy, hyjob, ?_, hb⟩
        simp only [updateJob, updateTask, Array.getElem?_modify, if_neg (hjob s hs).symm, hj]
  · intro k cell' b hk hb
    obtain ⟨cell, hold, -, ⟨rfl, hbinding⟩ | rfl⟩ := hcell k cell' hk
    · rw [hb] at hbinding
      cases hbinding
      exact ⟨_, hnew, Nat.le_refl _, fun _ => rfl, .inr ⟨rfl, _, .head _, rfl, rfl⟩⟩
    · obtain ⟨y, hy, hle, hyjob, hwhere⟩ := h.bound k cell' b hold hb
      by_cases ht : b.task = t
      -- The cell names an earlier incarnation. The task was not on the bench, so that work is over.
      · rw [ht, hx] at hy
        cases hy
        rw [ht]
        have hlater : b.generation ≠ x.generation + 1 := by omega
        refine ⟨_, hnew, Nat.le_succ_of_le hle, fun heq => absurd heq hlater, ?_⟩
        rcases hwhere with hover | ⟨-, s, hs, htask, -⟩
        · exact .inl hover
        · exact absurd (htask.trans ht) (hoff s hs)
      · refine ⟨y, (htask b.task ht).trans hy, hle, hyjob, hwhere.imp_right ?_⟩
        rintro ⟨hgeneration, s, hs, hshift⟩
        exact ⟨hgeneration, s, .tail _ hs, hshift⟩
  · intro k cell' hk
    obtain ⟨cell, hold, hdone, -⟩ := hcell k cell' hk
    rw [hdone]
    exact h.done k cell hold

end Filed

end Ledger

end GreenThreads

import GreenThreads.Proofs.Ledger.Accounting
import Mathlib.Logic.Relation

/-!
# Cancelling by the id of a task

The handle of a piece of work knows the id of the task that carries it, and the id outlives the
work. A cancellation by the id reaches the present work of the task, so it reaches the work that was
meant as long as the task was not given other work.
-/

namespace GreenThreads

namespace Engine

variable {V : Type} {e e' : Engine V} {now : Nanos} {t u : TaskId} {n : Nat} {j k : JobId}

/-- What the handle of a piece of work knows of who carries it. -/
def bindingOf (e : Engine V) (j : JobId) : Option Binding := e.jobs[j]?.bind (·.binding)

theorem bindingOf_of_map (h : e'.jobs.map (·.binding) = e.jobs.map (·.binding)) :
    e'.bindingOf j = e.bindingOf j := by
  have hget := congrArg (·[j]?) h
  simp only [Array.getElem?_map] at hget
  cases hj : e.jobs[j]? with
  | none =>
      rw [hj, Option.map_none, Option.map_eq_none_iff] at hget
      rw [bindingOf, bindingOf, hget, hj]
  | some cell =>
      rw [hj, Option.map_some] at hget
      obtain ⟨cell', hj', hbinding⟩ := Option.map_eq_some_iff.mp hget
      rw [bindingOf, bindingOf, hj', hj, Option.bind_some, Option.bind_some, hbinding]

theorem bindingOf_of_record (h : e'.jobs.map Join.record = e.jobs.map Join.record) :
    e'.bindingOf j = e.bindingOf j := by
  have hbindings := congrArg (Array.map Prod.snd) h
  rw [Array.map_map, Array.map_map] at hbindings
  exact bindingOf_of_map hbindings

theorem bindingOf_told (h : SameRecords (e.updateJob k ({ · with done := true })) e') :
    e'.bindingOf j = e.bindingOf j := by
  have hmark : (e.jobs.modify k ({ · with done := true })).map (·.binding) =
      e.jobs.map (·.binding) := map_modify_of_eq fun _ _ => rfl
  exact (bindingOf_of_record h.jobs).trans (bindingOf_of_map hmark)

theorem bindingOf_assign_of_ne {s : Submission} (h : j ≠ s.job) (c : Nat) (t : TaskId) :
    (e.assign c t s).bindingOf j = e.bindingOf j := by
  unfold assign
  split
  · rfl
  · dsimp only [bindingOf, updateJob, blameIf]
    rw [Array.getElem?_modify, if_neg (Ne.symm h)]
    split <;> rfl

theorem bindingOf_ready (e : Engine V) (c : Nat) (j : JobId) :
    (e.ready c).bindingOf j = e.bindingOf j := by
  refine (bindingOf_of_record (sameRecords_ensureContext _ _).jobs).trans ?_
  rcases obtain_cases e c with ⟨e₀, hpopped, hrecords⟩ | hmake
  · exact bindingOf_of_record (hpopped.sameWork.trans hrecords.sameWork).jobs
  · rw [hmake]
    rfl

theorem bindingOf_exit (e : Engine V) (now : Nanos) (c : Nat) (t : TaskId) (j : JobId) :
    (e.exit now c t).bindingOf j = e.bindingOf j := by
  obtain ⟨e₀, hwork, hexit⟩ := exit_eq e now c t
  obtain ⟨-, -, hjobs, -⟩ :=
    sameWork_recycle { e₀ with live := e₀.live.filter (· != t) }.finishOne c t
  rw [hexit]
  refine (bindingOf_of_record (sameRecords_switchOut _ now c).jobs).trans ?_
  exact (bindingOf_of_map (congrArg _ hjobs)).trans (bindingOf_of_record hwork.jobs)

theorem bindingOf_accept {b : Binding} (h : e.bindingOf j = some b) (caller : Option TaskId)
    (name : String) (group : Option GroupId) :
    (e.accept caller name group).1.bindingOf j = some b := by
  have hplace : ∀ (e : Engine V) s, (e.place caller s).jobs = e.jobs := by
    intro e s
    unfold place
    split
    · rfl
    · split <;> rfl
  obtain ⟨cell, hj, hb⟩ := Option.bind_eq_some_iff.mp h
  have hjobs : (e.accept caller name group).1.jobs = e.jobs.push {} := hplace _ _
  have hlt := (Array.getElem?_eq_some_iff.mp hj).1
  rw [bindingOf, hjobs, Array.getElem?_push, if_neg (Nat.ne_of_lt hlt)]
  exact h

theorem queued_wake_of_ne (h : u ≠ t) : (e.wake now t).queued u = e.queued u := by
  unfold wake
  split
  · rfl
  · split
    · rfl
    · split
      · refine queued_updateCarrier fun x => ?_
        rw [Carrier.enqueue, count_resume_concat, Runnable.task?, tally_of_ne h, Nat.add_zero]
      · rfl

theorem queued_wakeReleased_of_ne (h : u ≠ t) (r : Released) :
    (e.wakeReleased now t r).queued u = e.queued u := by
  cases r with
  | cooperative => exact queued_wake_of_ne h
  | native => rfl
  | permit => rfl

theorem queued_cancelTask_of_ne (h : u ≠ t) : (e.cancelTask now t n).1.queued u = e.queued u := by
  unfold cancelTask
  split
  · rfl
  · split
    · rfl
    · rw [queued_wakeReleased_of_ne h, queued_wakeReleased_of_ne h, queued_updateTask]

theorem cancelTask_of_false (h : (e.cancelTask now t n).2 = false) :
    (e.cancelTask now t n).1 = e := by
  unfold cancelTask at h ⊢
  split
  · rfl
  · next hx =>
      rw [hx] at h
      dsimp only at h
      split
      · rfl
      · next hc =>
          rw [hc] at h
          cases h

theorem cancelTask_of_ended {x : Task} (hx : e.task? t = some x) (h : x.status ≠ .alive) :
    e.cancelTask now t n = (e, false) := by
  have hcarries : x.carries n = false := by
    rw [Task.carries, beq_eq_false_iff_ne.mpr h, Bool.and_false]
  simp only [cancelTask, hx, Task.cancel, hcarries, Bool.false_eq_true, ↓reduceIte]

end Engine

namespace Ledger

open Engine

variable {V : Type} {l l' : Ledger V} {s : Shift} {j : JobId} {x : Task} {t : TaskId}

theorem Balanced.returned_of_completed (h : Balanced [] l) (hs : s ∈ l.bench)
    (hc : s.job ∈ l.completed) : s.progress = .returned := by
  obtain ⟨hnodup, -, hdisjoint⟩ := List.nodup_append.mp h.nodup_bench_settled
  rcases List.mem_append.mp (h.finished.mem_iff.mp hc) with hbench | hover
  · obtain ⟨s', hs', hjob⟩ := List.mem_map.mp hbench
    obtain ⟨hmem, hreturned⟩ := List.mem_filter.mp hs'
    have heq := List.inj_on_of_nodup_map hnodup hmem hs hjob
    rw [heq] at hreturned
    cases hp : s.progress <;> rw [hp] at hreturned <;> first | rfl | cases hreturned
  · exact absurd rfl (hdisjoint _ (List.mem_map_of_mem hs) _ hover)

/-- By its id a task is cancelled in the incarnation that carries its present work, if it has
any. -/
theorem Sound.cancel_eq (h : Sound [] l) (hx : l.engine.task? t = some x) {n : Nat}
    (hcurrent : n = x.generation ∨ x.status ≠ .alive) (now : Nanos) :
    l.engine.cancel now t = l.engine.cancelTask now t n := by
  by_cases halive : x.status = .alive
  · have hlive : t ∈ l.engine.live := h.staffed.mem_live.mpr ⟨x, hx, halive⟩
    rcases hcurrent with rfl | hended
    · simp only [cancel, hx, List.contains_iff_mem.mpr hlive, ↓reduceIte]
    · exact absurd halive hended
  · have hoff : t ∉ l.engine.live := by
      intro hlive
      obtain ⟨y, hy, hstatus⟩ := h.staffed.mem_live.mp hlive
      rw [hx] at hy
      cases hy
      exact halive hstatus
    rw [cancelTask_of_ended hx halive]
    simp only [cancel, hx, List.contains_iff_mem, hoff, ↓reduceIte]

theorem Sound.ne_of_bindingOf {w : Submission} {b : Binding} (h : Sound [w] l)
    (hb : l.engine.bindingOf j = some b) : j ≠ w.job := by
  rintro rfl
  obtain ⟨cell, hj, hb⟩ := Option.bind_eq_some_iff.mp hb
  obtain ⟨x, -, -, -, hwhere⟩ := h.filed.bound _ cell b hj hb
  refine (List.nodup_cons.mp h.balanced.nodup).1 (List.mem_append_right _ ?_)
  rcases hwhere with hover | ⟨-, s, hs, -, hjob⟩
  · exact List.mem_append_right _ hover
  · have hbench : w.job ∈ l.bench.map (·.job) := hjob ▸ List.mem_map_of_mem hs
    exact List.mem_append_left _ hbench

/-- The handle of a piece of work keeps the task that it was told of. -/
theorem Sound.bindingOf_step {b : Binding} (h : Sound [] l) (hstep : Step l l')
    (hb : l.engine.bindingOf j = some b) : l'.engine.bindingOf j = some b := by
  cases hstep with
  | other hwork => exact (bindingOf_of_record hwork.jobs).trans hb
  | submit caller name group =>
      simp only [Engine.submit]
      split
      · exact hb
      · exact bindingOf_accept hb caller name group
  | shutdown caller =>
      simp only [Engine.shutdown]
      split
      · exact bindingOf_accept (e := { l.engine with accepting := false }) hb caller drainName none
      · exact hb
  | abandon now taken moot =>
      have hcell := Array.getElem?_eq_getElem (h.take taken.left).lt_size_jobs
      have htold := bindingOf_told (j := j) (sameRecords_abandonJob hcell now)
      simp only [begin_of_moot moot]
      exact htold.trans ((bindingOf_of_map (congrArg _ taken.left.jobs)).trans hb)
  | @start c w e now carrier taken sound =>
      have hhand := h.take taken.left
      have hold : e.bindingOf j = some b := (bindingOf_of_map (congrArg _ taken.left.jobs)).trans hb
      obtain ⟨e₁, hjoined, hbegin⟩ := begin_of_sound sound now c
      have hmanned : c < e₁.carriers.size := by
        rw [hjoined.size, carriers_assign, (hhand.ready c).2.1, taken.left.size]
        exact carrier
      simp only [hbegin]
      rw [bindingOf_of_record (sameWork_resume hmanned now _).jobs,
        bindingOf_of_record hjoined.jobs, bindingOf_assign_of_ne (hhand.ne_of_bindingOf hold),
        bindingOf_ready]
      exact hold
  | run => exact hb
  | park => exact hb
  | endPark => exact hb
  | finish now outcome on at_ progress work =>
      obtain ⟨-, cell, -, -, hj, -⟩ := h.filed.duty _ on
      rw [← h.job_eq on work] at hj
      have htold := bindingOf_told (j := j) (sameRecords_finishJob hj now outcome)
      rw [← hb]
      exact htold
  | @exit c s _ now on at_ progress work =>
      dsimp only
      rw [bindingOf_exit]
      exact hb
  | scrap popped => exact (bindingOf_of_record popped.sameWork.jobs).trans hb

theorem Reached.later (h : Reached l) (hlater : Relation.ReflTransGen Step l l') : Reached l' := by
  induction hlater with
  | refl => exact h
  | tail _ hstep ih => exact ih.step hstep

theorem Reached.bindingOf_later {b : Binding} (h : Reached l)
    (hlater : Relation.ReflTransGen Step l l') (hb : l.engine.bindingOf j = some b) :
    l'.engine.bindingOf j = some b := by
  induction hlater with
  | refl => exact hb
  | tail hbefore hstep ih => exact (h.later hbefore).sound.bindingOf_step hstep ih

/-- The handle of a piece of work was told which task carries the work. At any later time the task
was given other work only if the work is over. Unless it has other work now, a cancellation by its
id is that of the incarnation that the handle knows: it answers that it reached a task only if the
work is not over, and it concerns no other task. -/
theorem Reached.cancel_own_work {b : Binding} (h : Reached l)
    (hb : l.engine.bindingOf j = some b) (hlater : Relation.ReflTransGen Step l l')
    (now : Nanos) :
    ∃ x cell, l'.engine.task? b.task = some x ∧ l'.engine.jobs[j]? = some cell ∧
      (b.generation ≠ x.generation → j ∈ l'.settled ∧ cell.done = true) ∧
      (b.generation = x.generation ∨ x.status ≠ .alive →
        l'.engine.cancel now b.task = l'.engine.cancelTask now b.task b.generation ∧
        ((l'.engine.cancel now b.task).2 = true → x.job = some j ∧ j ∉ l'.settled ∧
          ∃ s ∈ l'.bench, s.task = b.task ∧ s.job = j ∧
            (cell.done = true → s.progress = .returned)) ∧
        ((l'.engine.cancel now b.task).2 = false → (l'.engine.cancel now b.task).1 = l'.engine) ∧
        ∀ u, u ≠ b.task → (l'.engine.cancel now b.task).1.task? u = l'.engine.task? u ∧
          (l'.engine.cancel now b.task).1.queued u = l'.engine.queued u) := by
  have hs := (h.later hlater).sound
  obtain ⟨cell, hj, hbinding⟩ := Option.bind_eq_some_iff.mp (h.bindingOf_later hlater hb)
  obtain ⟨x, hx, hle, hjob, hwhere⟩ := hs.filed.bound j cell b hj hbinding
  refine ⟨x, cell, hx, hj, fun hother => ?_, fun hcurrent => ?_⟩
  · rcases hwhere with hover | ⟨hown, -⟩
    · have hcompleted := hs.balanced.finished.mem_iff.mpr (List.mem_append_right _ hover)
      exact ⟨hover, (hs.filed.done j cell hj).mpr hcompleted⟩
    · exact absurd hown hother
  have hcancel := hs.cancel_eq hx hcurrent now
  refine ⟨hcancel, fun htrue => ?_, fun hfalse => ?_, fun u hu => ?_⟩
  · have halive : x.status = .alive := by
      by_contra hended
      rw [hcancel, cancelTask_of_ended hx hended] at htrue
      cases htrue
    -- Who is alive has the work that he names, and here this is the work of the handle.
    have hown := hcurrent.resolve_right fun hended => hended halive
    have hlive := hs.staffed.mem_live.mpr ⟨x, hx, halive⟩
    obtain ⟨s, hmem, htask⟩ := hs.staffed.mem_live_iff_mem_bench.mp hlive
    obtain ⟨y, _, hy, hduty, -, -⟩ := hs.filed.duty s hmem
    rw [htask, hx] at hy
    cases hy
    have hsame : s.job = j := Option.some.inj (hduty.symm.trans (hjob hown))
    obtain ⟨-, -, hdisjoint⟩ := List.nodup_append.mp hs.balanced.nodup_bench_settled
    refine ⟨hjob hown, fun hover => hdisjoint _ (List.mem_map_of_mem hmem) _ hover hsame, s, hmem,
      htask, hsame, fun hdone => hs.balanced.returned_of_completed hmem ?_⟩
    rw [hsame]
    exact (hs.filed.done j cell hj).mp hdone
  · rw [hcancel] at hfalse ⊢
    exact cancelTask_of_false hfalse
  · rw [hcancel, task?_cancelTask, if_neg hu]
    exact ⟨rfl, queued_cancelTask_of_ne hu⟩

/-- The work waits on an axis, and the cancellation reaches it. -/
theorem cancel_own_work_parked : ∃ (l l' : Ledger Unit) (b : Binding) (x : Task), Reached l ∧
    l.engine.bindingOf 0 = some b ∧ Relation.ReflTransGen Step l l' ∧
      l'.engine.task? b.task = some x ∧ b.generation = x.generation ∧
      (l'.engine.cancel 9 b.task).2 = true ∧ x.job = some 0 ∧ 0 ∉ l'.settled := by
  have hrefl : ∀ {l : Ledger Unit}, Reached l → Relation.ReflTransGen Step l l := fun _ => .refl
  have h0 := Reached.start (V := Unit) (show Engine.start {} 1 [] .absent = .ok _ from rfl)
  have h1 := h0.step (.submit none "first" none)
  have h2 := h1.step (.start (c := 0) (s := ⟨0, "first", none⟩) 5 (by decide) (.shared rfl rfl) rfl)
  have h3 := (hrefl h2).tail (.run (c := 0) (.head _) rfl rfl rfl)
  have h4 := h3.tail (.park (c := 0) (a := .user) (.head _) rfl rfl rfl
    (show Parker.free.begin false = .ok (.waiting, true) from rfl))
  obtain ⟨x, cell, hx, -, -, hown⟩ := h2.cancel_own_work (j := 0) rfl h4 9
  cases hx
  obtain ⟨-, htrue, -⟩ := hown (.inl rfl)
  obtain ⟨hjob, hover, -⟩ := htrue rfl
  exact ⟨_, _, _, _, h2, rfl, h4, rfl, rfl, rfl, hjob, hover⟩

/-- The first work is over and its task has been given other work. A cancellation by the id of that
task, which the handle of the first work was told, answers that it reached a task: it cancels the
other work, and leaves permits on both axes. -/
theorem cancel_other_work : ∃ (l l' : Ledger Unit) (b : Binding) (y : Task), Reached l ∧
    l.engine.bindingOf 0 = some b ∧ Relation.ReflTransGen Step l l' ∧ 0 ∈ l'.settled ∧
      (l'.engine.cancel 20 b.task).2 = true ∧
      (l'.engine.cancel 20 b.task).1.task? b.task = some y ∧ y.job = some 1 ∧
      y.status = .alive ∧ y.cancelled = true ∧ y.user = .permitted ∧ y.internal = .permitted := by
  have hrefl : ∀ {l : Ledger Unit}, Reached l → Relation.ReflTransGen Step l l := fun _ => .refl
  have h0 := Reached.start (V := Unit) (show Engine.start {} 1 [] .absent = .ok _ from rfl)
  have h1 := h0.step (.submit none "first" none)
  have h2 := h1.step (.start (c := 0) (s := ⟨0, "first", none⟩) 5 (by decide) (.shared rfl rfl) rfl)
  have h3 := (hrefl h2).tail (.run (c := 0) (.head _) rfl rfl rfl)
  have h4 := h3.tail (.finish (c := 0) 6 (.ok ()) (.head _) rfl rfl rfl)
  have h5 := h4.tail (.exit (c := 0) 7 (.head _) rfl rfl rfl)
  have h6 := h5.tail (.submit none "second" none)
  have h7 := h6.tail (.start (c := 0) (s := ⟨1, "second", none⟩) 8 (by decide) (.shared rfl rfl) rfl)
  have h8 := h7.tail (.run (c := 0) (.head _) rfl rfl rfl)
  exact ⟨_, _, _, _, h2, rfl, h8, .head _, rfl, rfl, rfl, rfl, rfl, rfl, rfl⟩

end Ledger

end GreenThreads

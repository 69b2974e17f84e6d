import GreenThreads.Proofs.Ledger.Steps

/-!
# The tasks that have work

The tasks on the bench of a ledger are those that the engine itself has on its list. Nobody else is
alive or waits, and whoever is in a pool can be given work.
-/

namespace GreenThreads

namespace Engine

variable {V : Type} {e e' : Engine V} {t : TaskId} {f : Task → Task}

theorem Housed.of_eq (h : e.Housed) (htasks : e'.tasks = e.tasks)
    (hsize : e'.carriers.size = e.carriers.size) : e'.Housed := by
  intro t x c hx hc
  rw [task?, htasks] at hx
  rw [hsize]
  exact h t x c hx hc

theorem Housed.updateTask (h : e.Housed)
    (hf : ∀ x c, (f x).carrier = some c → x.carrier = some c ∨ c < e.carriers.size) :
    (e.updateTask t f).Housed := by
  intro u y c hy hc
  rw [task?_updateTask] at hy
  split at hy
  · obtain ⟨x, hx, rfl⟩ := Option.map_eq_some_iff.mp hy
    rcases hf x c hc with hold | hlt
    · exact h u x c hx hold
    · exact hlt
  · exact h u y c hy hc

theorem sameTasks_updateTask (hduty : ∀ x, (f x).duty = x.duty)
    (hcarrier : ∀ x, (f x).carrier = x.carrier) : SameTasks e (e.updateTask t f) :=
  ⟨fun h => h.updateTask fun x _ hc => .inl ((hcarrier x).symm.trans hc), map_updateTask hduty, rfl,
    fun _ => Nat.le_refl _, rfl⟩

theorem SameTasks.flag_status (h : SameTasks e e') (t : TaskId) (n : Status) :
    e'.flag t (·.status == n) = e.flag t (·.status == n) := flag_of_map_eq h.tasks (fun _ => rfl) t

theorem assign_eq {c : Nat} {s : Submission} {x : Task} (hx : e.task? t = some x)
    (hcached : x.status = .cached) (hidle : ∀ a, (x.parker a).isWaiting = false) :
    e.assign c t s =
      { (e.updateTask t (Floor.assigned c s)).updateJob s.job
          (·.bind { task := t, generation := x.generation + 1 }) with live := e.live ++ [t] } := by
  rw [Floor.updateTask_eq_put hx]
  simp only [assign, hx, Task.reset_of_idle hcached hidle]
  rfl

theorem carriers_assign (e : Engine V) (c : Nat) (t : TaskId) (s : Submission) :
    (e.assign c t s).carriers = e.carriers := by
  unfold assign
  split
  · rfl
  · dsimp only [updateJob, blameIf]
    split <;> rfl

end Engine

namespace Ledger

open Engine

variable {V : Type} {e e' : Engine V} {bench bench' : List Shift} {s : Shift} {t : TaskId} {c : Nat}
  {a : Axis} {x : Task}

/-- The tasks on the bench are those that have work. -/
structure Staffed (e : Engine V) (bench : List Shift) : Prop where
  manned : 0 < e.carriers.size
  homes : e.Housed
  crew : e.live.Perm (bench.map (·.task))
  alive : ∀ t, e.live.count t = e.flag t (·.status == .alive)
  spare : ∀ t, e.pooled t ≤ e.flag t (·.status == .cached)
  awake : ∀ t x a, e.task? t = some x → (x.parker a).isWaiting = true →
    ∃ s ∈ bench, s.task = t ∧ s.progress = .parked a

namespace Staffed

theorem nodup (h : Staffed e bench) : e.live.Nodup := by
  rw [List.nodup_iff_count]
  intro t
  rw [h.alive t]
  exact e.flag_le_one t _

theorem mem_live (h : Staffed e bench) :
    t ∈ e.live ↔ ∃ x, e.task? t = some x ∧ x.status = .alive := by
  rw [← List.count_pos_iff, h.alive t]
  constructor
  · intro hpos
    obtain ⟨x, hx, halive⟩ := exists_of_flag_pos hpos
    exact ⟨x, hx, by simpa using halive⟩
  · rintro ⟨x, hx, halive⟩
    rw [flag_eq_one hx (by rw [halive]; rfl)]
    exact Nat.one_pos

theorem mem_live_iff_mem_bench (h : Staffed e bench) :
    t ∈ e.live ↔ ∃ s ∈ bench, s.task = t := by
  rw [h.crew.mem_iff, List.mem_map]

theorem alive_of_mem (h : Staffed e bench) (hs : s ∈ bench) :
    ∃ x, e.task? s.task = some x ∧ x.status = .alive :=
  h.mem_live.mp (h.mem_live_iff_mem_bench.mpr ⟨s, hs, rfl⟩)

theorem eq_of_task (h : Staffed e bench) {s' : Shift} (hs : s ∈ bench) (hs' : s' ∈ bench)
    (heq : s'.task = s.task) : s' = s := by
  have hnodup : (bench.map (·.task)).Nodup := h.crew.nodup_iff.mp h.nodup
  exact List.inj_on_of_nodup_map hnodup hs' hs heq

theorem idle (h : Staffed e bench) (hx : e.task? t = some x) (hended : x.status ≠ .alive) :
    (∀ s ∈ bench, s.task ≠ t) ∧ ∀ a, (x.parker a).isWaiting = false := by
  have hoff : ∀ s ∈ bench, s.task ≠ t := by
    rintro s hs rfl
    obtain ⟨y, hy, halive⟩ := h.alive_of_mem hs
    rw [hx] at hy
    cases hy
    exact hended halive
  refine ⟨hoff, ?_⟩
  intro a
  cases hw : (x.parker a).isWaiting with
  | false => rfl
  | true =>
      obtain ⟨s, hs, htask, -⟩ := h.awake t x a hx hw
      exact absurd htask (hoff s hs)

/-- Nothing changes but how far the tasks are, and perhaps who waits. -/
theorem same (h : Staffed e bench) (hs : SameTasks e e')
    (hcrew : bench'.map (·.task) = bench.map (·.task))
    (hawake : ∀ t x a, e'.task? t = some x → (x.parker a).isWaiting = true →
      ∃ s ∈ bench', s.task = t ∧ s.progress = .parked a) : Staffed e' bench' := by
  refine ⟨?_, hs.homes h.homes, ?_, ?_, ?_, hawake⟩
  · rw [hs.size]
    exact h.manned
  · rw [hs.live, hcrew]
    exact h.crew
  · intro t
    rw [hs.live, hs.flag_status]
    exact h.alive t
  · intro t
    rw [hs.flag_status]
    exact Nat.le_trans (hs.pooled t) (h.spare t)

theorem calm (h : Staffed e bench) (hs : SameTasks e e') (hcalm : Calm e e') :
    Staffed e' bench := by
  refine h.same hs rfl ?_
  intro t x' a hx' hw
  obtain ⟨x, hx, hwaits⟩ := hcalm t x' hx'
  exact h.awake t x a hx (hwaits a hw)

theorem perm (h : Staffed e bench) (hp : bench.Perm bench') : Staffed e bench' := by
  refine ⟨h.manned, h.homes, h.crew.trans (hp.map _), h.alive, h.spare, ?_⟩
  intro t x a hx hw
  obtain ⟨s, hs, hparked⟩ := h.awake t x a hx hw
  exact ⟨s, hp.mem_iff.mp hs, hparked⟩

theorem advance (h : Staffed e (s :: bench)) (hidle : ∀ a, s.progress ≠ .parked a)
    (p : Progress) : Staffed e ({ s with progress := p } :: bench) := by
  refine ⟨h.manned, h.homes, h.crew, h.alive, h.spare, ?_⟩
  intro t x a hx hw
  obtain ⟨s', hs', htask, hparked⟩ := h.awake t x a hx hw
  cases hs' with
  | head => exact absurd hparked (hidle a)
  | tail _ hs' => exact ⟨s', .tail _ hs', htask, hparked⟩

/-- A task begins to wait or stops waiting, and is as far as this says. -/
theorem setParker (h : Staffed e (s :: bench)) (q : Task → Parker) {p : Progress}
    (hp : ∀ x b, e.task? s.task = some x → ((x.setParker a (q x)).parker b).isWaiting = true →
      p = .parked b) :
    Staffed (e.updateTask s.task fun x => x.setParker a (q x))
      ({ s with progress := p } :: bench) := by
  have hsame : SameTasks e (e.updateTask s.task fun x => x.setParker a (q x)) :=
    sameTasks_updateTask (fun x => by cases a <;> rfl) fun x => by cases a <;> rfl
  refine h.same hsame rfl ?_
  intro t y b hy hw
  rw [task?_updateTask] at hy
  split at hy
  · next ht =>
      obtain ⟨x, hx, rfl⟩ := Option.map_eq_some_iff.mp hy
      rw [ht] at hx
      exact ⟨_, .head _, ht.symm, hp x b hx hw⟩
  · next ht =>
      obtain ⟨s', hs', htask, hparked⟩ := h.awake t y b hy hw
      cases hs' with
      | head => exact absurd htask.symm ht
      | tail _ hs' => exact ⟨s', .tail _ hs', htask, hparked⟩

/-! ## Tasks come and go -/

theorem makeTask (h : Staffed e bench) : Staffed e.makeTask.1 bench := by
  refine ⟨h.manned, ?_, h.crew, ?_, ?_, ?_⟩
  · intro t x c hx hc
    rw [task?_makeTask] at hx
    split at hx
    · cases hx; cases hc
    · exact h.homes t x c hx hc
  · intro t
    rw [flag_makeTask fun _ => rfl]
    exact h.alive t
  · intro t
    have hspare := h.spare t
    have hpooled : e.makeTask.1.pooled t = e.pooled t := rfl
    rw [hpooled, flag, task?_makeTask]
    split
    · next ht =>
        have hnone : e.task? e.makeTask.2 = none := Array.getElem?_eq_none (Nat.le_refl _)
        rw [ht, flag, hnone] at hspare
        rw [ht]
        exact Nat.le_trans hspare (Nat.zero_le _)
    · exact hspare
  · intro t x a hx hw
    rw [task?_makeTask] at hx
    split at hx
    · cases hx; cases a <;> cases hw
    · exact h.awake t x a hx hw

/-- The task that is found for new work has none, and is in no pool any more. -/
theorem obtain (h : Staffed e bench) (c : Nat) : Staffed (e.obtain c).1 bench ∧
    (∃ x, (e.obtain c).1.task? (e.obtain c).2 = some x ∧ x.status = .cached) ∧
      (e.obtain c).1.pooled (e.obtain c).2 = 0 := by
  have hfound : ∀ {e₁ : Engine V} {t : TaskId}, e₁.flag t (·.status == .cached) = 1 →
      ∃ x, e₁.task? t = some x ∧ x.status = .cached := by
    intro e₁ t hflag
    obtain ⟨x, hx, hcached⟩ := exists_of_flag_pos (by rw [hflag]; exact Nat.one_pos)
    exact ⟨x, hx, by simpa using hcached⟩
  rcases obtain_cases e c with ⟨e₀, hpopped, hrecords⟩ | hmake
  · have hwork := hpopped.sameWork.trans hrecords.sameWork
    have hdrawn := hpopped.drawn.pooled (e.obtain c).2
    have hspare := h.spare (e.obtain c).2
    have hone := e.flag_le_one (e.obtain c).2 (·.status == .cached)
    have hpooled := hrecords.sameWork.pooled (e.obtain c).2
    rw [tally_self] at hdrawn
    refine ⟨h.calm hwork.toSameTasks hwork.calm, hfound ?_, by omega⟩
    rw [hwork.flag_status]
    omega
  · have hnone : e.task? e.makeTask.2 = none := Array.getElem?_eq_none (Nat.le_refl _)
    have hspare := h.spare e.makeTask.2
    rw [flag, hnone, Option.any_none, Bool.toNat_false] at hspare
    have hfresh : e.makeTask.1.task? e.makeTask.2 = some (Task.fresh e.makeTask.2) := by
      rw [task?_makeTask, if_pos rfl]
    rw [hmake]
    exact ⟨h.makeTask, ⟨_, hfresh, rfl⟩, Nat.eq_zero_of_le_zero hspare⟩

theorem assign (h : Staffed e bench) {w : Submission} (hc : c < e.carriers.size)
    (hx : e.task? t = some x) (hcached : x.status = .cached) (hpooled : e.pooled t = 0) :
    Staffed (e.assign c t w) (⟨t, w.job, .given⟩ :: bench) := by
  obtain ⟨-, hidle⟩ := h.idle hx (by rw [hcached]; exact Status.noConfusion)
  have hassign := assign_eq (c := c) (s := w) hx hcached hidle
  have htask : ∀ u, (e.assign c t w).task? u = (e.updateTask t (Floor.assigned c w)).task? u := by
    intro u
    rw [hassign]
    rfl
  have hflag : ∀ u p, (e.assign c t w).flag u p =
      (e.updateTask t (Floor.assigned c w)).flag u p := by
    intro u p
    rw [flag, htask, ← flag]
  have hlive : (e.assign c t w).live = e.live ++ [t] := by rw [hassign]
  have hsize := carriers_assign e c t w
  have hkept : ∀ u, (e.assign c t w).pooled u = e.pooled u := by
    intro u
    rw [hassign]
    rfl
  refine ⟨?_, ?_, ?_, ?_, ?_, ?_⟩
  · rw [hsize]
    exact h.manned
  · have hhomes : (e.updateTask t (Floor.assigned c w)).Housed := by
      refine h.homes.updateTask fun y d hd => .inr ?_
      cases hd
      exact hc
    intro u y d hy hd
    rw [htask] at hy
    rw [hsize]
    exact hhomes u y d hy hd
  · rw [hlive]
    exact List.perm_append_comm.trans (h.crew.cons t)
  · intro u
    rw [hlive, hflag, count_task_concat, h.alive u]
    by_cases hu : u = t
    · subst hu
      rw [flag_updateTask_self hx, flag_eq_zero hx (by rw [hcached]; rfl), tally_self]
      rfl
    · rw [flag_updateTask_of_ne hu, tally_of_ne hu, Nat.add_zero]
  · intro u
    rw [hkept, hflag]
    by_cases hu : u = t
    · rw [hu, hpooled]
      exact Nat.zero_le _
    · rw [flag_updateTask_of_ne hu]
      exact h.spare u
  · intro u y b hy hw
    rw [htask, task?_updateTask] at hy
    split at hy
    · obtain ⟨z, -, rfl⟩ := Option.map_eq_some_iff.mp hy
      cases b <;> cases hw
    · obtain ⟨s, hs, hparked⟩ := h.awake u y b hy hw
      exact ⟨s, .tail _ hs, hparked⟩

/-- A task whose work is over leaves the bench. -/
theorem retire {n : Status} (h : Staffed e (s :: bench)) (hidle : ∀ a, s.progress ≠ .parked a)
    (hr : Recycled { e with live := e.live.filter (· != s.task) }.finishOne e' s.task n)
    (hlive : e'.live = e.live.filter (· != s.task)) : Staffed e' bench := by
  obtain ⟨x, hx, halive⟩ := h.alive_of_mem List.mem_cons_self
  have htask : ∀ u, e'.task? u = (e.updateTask s.task ({ · with status := n })).task? u := by
    intro u
    rw [task?, hr.tasks]
    rfl
  have hflag : ∀ u p, e'.flag u p = (e.updateTask s.task ({ · with status := n })).flag u p := by
    intro u p
    rw [flag, htask, ← flag]
  have hsize : e'.carriers.size = e.carriers.size := hr.size
  have hnodup : ((s :: bench).map (·.task)).Nodup := h.crew.nodup_iff.mp h.nodup
  have hoff : s.task ∉ bench.map (·.task) := (List.nodup_cons.mp hnodup).1
  refine ⟨?_, ?_, ?_, ?_, ?_, ?_⟩
  · rw [hsize]
    exact h.manned
  · have hhomes : (e.updateTask s.task ({ · with status := n })).Housed :=
      h.homes.updateTask fun _ _ hd => .inl hd
    intro u y d hy hd
    rw [htask] at hy
    rw [hsize]
    exact hhomes u y d hy hd
  · rw [hlive]
    have hrest : ((s :: bench).map (·.task)).filter (· != s.task) = bench.map (·.task) := by
      rw [List.map_cons, List.filter_cons_of_neg (by simp)]
      refine List.filter_eq_self.mpr fun u hu => ?_
      rw [bne_iff_ne]
      rintro rfl
      exact hoff hu
    exact (h.crew.filter _).trans (.of_eq hrest)
  · intro u
    rw [hlive, hflag]
    by_cases hu : u = s.task
    · subst hu
      rw [flag_updateTask_self hx, beq_eq_false_iff_ne.mpr hr.status, Bool.toNat_false,
        List.count_eq_zero]
      simp
    · rw [flag_updateTask_of_ne hu, List.count_filter (by simpa using hu)]
      exact h.alive u
  · intro u
    have hpooled : e'.pooled u = e.pooled u + if n = .cached then tally (some s.task) u else 0 :=
      hr.pooled u
    have hspare := h.spare u
    rw [hpooled, hflag]
    -- As long as the task was alive it was in no pool, so it is now in one at most.
    by_cases hu : u = s.task
    · subst hu
      rw [flag_eq_zero hx (by rw [halive]; rfl)] at hspare
      rw [flag_updateTask_self hx, tally_self]
      split
      · next hn => subst hn; exact Nat.add_le_add_right hspare 1
      · exact Nat.le_trans hspare (Nat.zero_le _)
    · rw [flag_updateTask_of_ne hu, tally_of_ne hu, ite_self, Nat.add_zero]
      exact hspare
  · intro u y b hy hw
    have hold : ∃ z, e.task? u = some z ∧ (z.parker b).isWaiting = true := by
      rw [htask, task?_updateTask] at hy
      split at hy
      · obtain ⟨z, hz, rfl⟩ := Option.map_eq_some_iff.mp hy
        exact ⟨z, hz, by cases b <;> exact hw⟩
      · exact ⟨y, hy, hw⟩
    obtain ⟨z, hz, hwaits⟩ := hold
    obtain ⟨s', hs', htask, hparked⟩ := h.awake u z b hz hwaits
    cases hs' with
    | head => exact absurd hparked (hidle b)
    | tail _ hs' => exact ⟨s', hs', htask, hparked⟩

theorem scrap (h : Staffed e bench) (ht : e.Popped t e') :
    Staffed (e'.updateTask t Task.discard) bench := by
  have hd := ht.drawn
  have hwork := ht.sameWork
  have hleft := h.calm hwork.toSameTasks hwork.calm
  have hspare := h.spare t
  have hpooled := hd.pooled t
  have hone := e.flag_le_one t (·.status == .cached)
  rw [tally_self] at hpooled
  obtain ⟨x, hx, hcached⟩ : ∃ x, e'.task? t = some x ∧ (x.status == .cached) = true := by
    refine exists_of_flag_pos ?_
    rw [hwork.flag_status]
    omega
  have hcached : x.status = .cached := by simpa using hcached
  -- It was cached, so nobody counts it among the living, and no other pool has it.
  refine ⟨hleft.manned, hleft.homes.updateTask fun _ _ hc => .inl hc, hleft.crew, ?_, ?_, ?_⟩
  · intro u
    by_cases hu : u = t
    · subst hu
      have halive := hleft.alive u
      rw [flag_eq_zero hx (by rw [hcached]; rfl)] at halive
      rw [flag_updateTask_self hx]
      exact halive
    · rw [flag_updateTask_of_ne hu]
      exact hleft.alive u
  · intro u
    by_cases hu : u = t
    · have hnone : e'.pooled t = 0 := by omega
      rw [hu, pooled_updateTask, hnone]
      exact Nat.zero_le _
    · rw [flag_updateTask_of_ne hu]
      exact hleft.spare u
  · intro u y b hy hw
    rw [task?_updateTask] at hy
    split at hy
    · obtain ⟨z, hz, rfl⟩ := Option.map_eq_some_iff.mp hy
      exact hleft.awake u z b hz (by cases b <;> exact hw)
    · exact hleft.awake u y b hy hw

end Staffed

end Ledger

end GreenThreads

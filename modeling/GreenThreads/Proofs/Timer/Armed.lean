import GreenThreads.Proofs.Timer.Poll

/-!
# Armed resumptions

A timeout that resumes its task in any case is a way for that task to go on, from the moment when it
becomes pending until it is taken out to be fired. The operations of a queue are described by what
they do to the number of these ways.
-/

namespace GreenThreads.TimerQueue

variable {q q' : TimerQueue} {t u : TaskId} {k j : Nat} {x : Timeout} {ks : List Nat}

/-- Whether the timeout with number `k` will resume the task `t`. -/
def resumes (q : TimerQueue) (t : TaskId) (k : Nat) : Bool :=
  q.bare[k]?.any fun x => !x.cancelled && decide (x.action = .resume) && decide (x.task = t)

/-- How many pending timeouts will resume the task `t`. -/
def armed (q : TimerQueue) (t : TaskId) : Nat := q.heap.toList.countP (q.resumes t)

/-- All numbers that a queue keeps are those of its timeouts, and a removal is only asked for after
a cancellation. -/
structure Tidy (q : TimerQueue) : Prop where
  heap : ∀ k ∈ q.heap, k < q.timeouts.size
  removals : ∀ k ∈ q.removals, k < q.timeouts.size ∧ q.isCancelled k = true

theorem size_eq_of_bare (h : q'.bare = q.bare) : q'.timeouts.size = q.timeouts.size := by
  rw [← size_bare, h, size_bare]

theorem resumes_of_bare (h : q'.bare = q.bare) : q'.resumes = q.resumes := by
  funext t k
  rw [resumes, h, resumes]

theorem resumes_of_isCancelled (h : q.isCancelled k = true) (t : TaskId) :
    q.resumes t k = false := by
  unfold resumes
  unfold isCancelled at h
  cases hx : q.bare[k]? with
  | none => rfl
  | some x =>
      rw [hx] at h
      simp only [Option.map_some, Option.getD_some] at h
      simp only [Option.any_some, h, Bool.not_true, Bool.false_and]

theorem not_resumes (hx : q.bare[k]? = some x) (ht : x.task ≠ t) : q.resumes t k = false := by
  simp only [resumes, hx, Option.any_some, ht, decide_false, Bool.and_false]

/-! ## Moving entries -/

theorem Rearranged.armed (h : Rearranged q q') (t : TaskId) : q'.armed t = q.armed t := by
  rw [TimerQueue.armed, resumes_of_bare h.bare, h.heap.countP_eq, ← TimerQueue.armed]

theorem Rearranged.tidy (h : Rearranged q q') (hq : Tidy q) : Tidy q' := by
  have hsize := size_eq_of_bare h.bare
  refine ⟨?_, ?_⟩
  · intro k hk
    rw [← Array.mem_toList_iff, h.heap.mem_iff, Array.mem_toList_iff] at hk
    rw [hsize]
    exact hq.heap k hk
  · intro k hk
    rw [h.removals] at hk
    rw [hsize, isCancelled_of_bare h.bare]
    exact hq.removals k hk

theorem Shortened.armed (h : Shortened ks q q') (t : TaskId) :
    q.armed t = ks.countP (q.resumes t) + q'.armed t := by
  rw [TimerQueue.armed, TimerQueue.armed, resumes_of_bare h.bare, h.heap.countP_eq,
    List.countP_append]

theorem Shortened.tidy (h : Shortened ks q q') (hq : Tidy q) : Tidy q' := by
  have hsize := size_eq_of_bare h.bare
  refine ⟨?_, ?_⟩
  · intro k hk
    have hmem : k ∈ q.heap := by
      rw [← Array.mem_toList_iff, h.heap.mem_iff]
      exact List.mem_append_right _ (Array.mem_toList_iff.mpr hk)
    rw [hsize]
    exact hq.heap k hmem
  · intro k hk
    rw [h.removals] at hk
    rw [hsize, isCancelled_of_bare h.bare]
    exact hq.removals k hk

/-! ## Making timeouts -/

theorem resumes_create (x : Timeout) (t : TaskId) (hk : k < q.timeouts.size) :
    (q.create x).1.resumes t k = q.resumes t k := by
  rw [resumes, getElem?_bare_create x hk, resumes]

theorem armed_create (hq : Tidy q) (x : Timeout) (t : TaskId) :
    (q.create x).1.armed t = q.armed t := by
  unfold armed
  apply List.countP_congr
  intro k hk
  have hlt := hq.heap k (Array.mem_toList_iff.mp hk)
  rw [resumes_create x t hlt]

theorem Tidy.create (hq : Tidy q) (x : Timeout) : Tidy (q.create x).1 := by
  refine ⟨?_, ?_⟩
  · intro k hk
    rw [size_create]
    exact Nat.lt_succ_of_lt (hq.heap k hk)
  · intro k hk
    obtain ⟨hlt, hcancelled⟩ := hq.removals k hk
    rw [size_create, isCancelled, getElem?_bare_create x hlt]
    exact ⟨Nat.lt_succ_of_lt hlt, hcancelled⟩

/-! ## Insertion -/

theorem insert_cases (q : TimerQueue) (k : Nat) :
    (q.insert k).toOption.getD q = q ∨
      Rearranged { q with heap := q.heap.push k } ((q.insert k).toOption.getD q) := by
  unfold insert
  split
  · exact .inl rfl
  · split
    · exact .inr (rearranged_insert q k)
    · exact .inl rfl

theorem armed_push (q : TimerQueue) (k : Nat) (t : TaskId) :
    { q with heap := q.heap.push k }.armed t = q.armed t + (q.resumes t k).toNat := by
  simp only [armed, Array.toList_push, List.countP_append]
  have hsame : { q with heap := q.heap.push k }.resumes = q.resumes := resumes_of_bare rfl
  rw [hsame]
  cases h : q.resumes t k with
  | true => simp [h]
  | false => simp [h]

theorem Tidy.register (hq : Tidy q) (hk : k < q.timeouts.size) :
    Tidy ((q.insert k).toOption.getD q) := by
  rcases insert_cases q k with h | h
  · rw [h]; exact hq
  · refine h.tidy ⟨?_, hq.removals⟩
    intro j hj
    rcases Array.mem_push.mp hj with hj | rfl
    · exact hq.heap j hj
    · exact hk

theorem armed_register_of_not (h : q.resumes t k = false) :
    ((q.insert k).toOption.getD q).armed t = q.armed t := by
  rcases insert_cases q k with heq | hshift
  · rw [heq]
  · rw [hshift.armed, armed_push, h, Bool.toNat_false, Nat.add_zero]

theorem armed_register_of_owner (hx : q.bare[k]? = some x) (ho : x.owner = q.owner) :
    ((q.insert k).toOption.getD q).armed t = q.armed t + (q.resumes t k).toNat := by
  obtain ⟨y, hy, rfl⟩ := Option.map_eq_some_iff.mp ((Array.getElem?_map ..).symm.trans hx)
  rw [insert_of_owner hy ho, Except.toOption, Option.getD_some, (rearranged_insert q k).armed,
    armed_push]

/-! ## Cancellation -/

theorem isCancelled_mark (hk : k < q.timeouts.size) : (q.mark k).isCancelled k = true := by
  rw [← size_bare] at hk
  simp only [isCancelled, getElem?_bare_mark, ↓reduceIte, Array.getElem?_eq_getElem hk,
    Option.map_some, Option.getD_some]

theorem resumes_mark (q : TimerQueue) (k : Nat) (t : TaskId) (j : Nat) :
    (q.mark k).resumes t j = (q.resumes t j && !decide (k = j)) := by
  simp only [resumes, getElem?_bare_mark]
  split
  · cases q.bare[j]? <;> simp_all
  · simp_all

theorem cancel_cases (q : TimerQueue) (k : Nat) (byOwner : Bool) :
    ∃ ks, Shortened ks (q.mark k) { q.cancel k byOwner with removals := q.removals } ∧
      (∀ j ∈ ks, j = k) ∧ ∀ j ∈ (q.cancel k byOwner).removals, j ∈ q.removals ∨ j = k := by
  rw [cancel_eq]
  cases byOwner with
  | true =>
      obtain ⟨ks, hshort, hks⟩ := shortened_remove (q.mark k) k
      refine ⟨ks, ⟨hshort.owner, rfl, hshort.bare, hshort.heap⟩, hks, ?_⟩
      intro j hj
      simp only [↓reduceIte, hshort.removals] at hj
      exact .inl hj
  | false =>
      refine ⟨[], ⟨rfl, rfl, rfl, .refl _⟩, by simp, ?_⟩
      intro j hj
      rcases List.mem_append.mp hj with hj | hj
      · exact .inl hj
      · exact .inr (List.mem_singleton.mp hj)

theorem bare_cancel (q : TimerQueue) (k : Nat) (byOwner : Bool) :
    (q.cancel k byOwner).bare = (q.mark k).bare := by
  obtain ⟨ks, hshort, -, -⟩ := cancel_cases q k byOwner
  exact hshort.bare

@[simp] theorem owner_cancel (q : TimerQueue) (k : Nat) (byOwner : Bool) :
    (q.cancel k byOwner).owner = q.owner := by
  obtain ⟨ks, hshort, -, -⟩ := cancel_cases q k byOwner
  exact hshort.owner

theorem resumes_cancel (q : TimerQueue) (k : Nat) (byOwner : Bool) (t : TaskId) (j : Nat) :
    (q.cancel k byOwner).resumes t j = (q.resumes t j && !decide (k = j)) := by
  rw [resumes_of_bare (bare_cancel q k byOwner), resumes_mark]

theorem Tidy.cancel (hq : Tidy q) (k : Nat) (hk : k < q.timeouts.size) (byOwner : Bool) :
    Tidy (q.cancel k byOwner) := by
  obtain ⟨ks, hshort, -, hremovals⟩ := cancel_cases q k byOwner
  have hsize : (q.cancel k byOwner).timeouts.size = q.timeouts.size := by
    rw [size_eq_of_bare (bare_cancel q k byOwner), size_mark]
  refine ⟨?_, ?_⟩
  · intro j hj
    have hmem : j ∈ (q.mark k).heap := by
      rw [← Array.mem_toList_iff, hshort.heap.mem_iff]
      exact List.mem_append_right _ (Array.mem_toList_iff.mpr hj)
    rw [hsize]
    exact hq.heap j hmem
  · intro j hj
    rw [hsize, isCancelled_of_bare (bare_cancel q k byOwner)]
    rcases hremovals j hj with hj | rfl
    · obtain ⟨hlt, hcancelled⟩ := hq.removals j hj
      refine ⟨hlt, ?_⟩
      by_cases hkj : k = j
      · subst hkj; exact isCancelled_mark hlt
      · rw [isCancelled, getElem?_bare_mark, if_neg hkj]
        exact hcancelled
    · exact ⟨hk, isCancelled_mark hk⟩

/-- Cancelling a timeout of a task that has no armed resumption changes no number of ways. -/
theorem armed_cancel (hx : q.bare[k]? = some x) (h0 : q.armed x.task = 0) (byOwner : Bool)
    (t : TaskId) : (q.cancel k byOwner).armed t = q.armed t := by
  obtain ⟨ks, hshort, hks, -⟩ := cancel_cases q k byOwner
  have hcount := hshort.armed t
  have hlost : ks.countP ((q.mark k).resumes t) = 0 := by
    rw [List.countP_eq_zero]
    intro j hj
    rw [hks j hj, resumes_mark]
    simp
  have hmark : (q.mark k).armed t = q.armed t := by
    unfold armed
    apply List.countP_congr
    intro j hj
    rw [resumes_mark]
    by_cases hkj : k = j
    · subst hkj
      have hnone : q.resumes t k = false := by
        by_cases ht : x.task = t
        · subst ht
          rw [armed, List.countP_eq_zero] at h0
          simpa using h0 k hj
        · exact not_resumes hx ht
      simp only [hnone, Bool.false_and]
    · simp only [hkj, decide_false, Bool.not_false, Bool.and_true]
  have hend : { q.cancel k byOwner with removals := q.removals }.armed t =
      (q.cancel k byOwner).armed t := rfl
  omega

/-! ## Polling -/

/-- A poll loses no way: what is not pending any more is taken out to be fired. -/
theorem armed_poll (hq : Tidy q) (now : Nanos) (t : TaskId) :
    q.armed t = (q.poll now).1.armed t + (q.poll now).2.countP (q.resumes t) := by
  obtain ⟨ls, ks, hsub, hperm, -, hbare, -, hfilter, -⟩ := poll_spec q now
  have hcancelled : ls.countP (q.resumes t) = 0 := by
    rw [List.countP_eq_zero]
    intro k hk
    rw [resumes_of_isCancelled (hq.removals k (hsub k hk)).2 t]
    exact Bool.false_ne_true
  have hfired : (q.poll now).2.countP (q.resumes t) = ks.countP (q.resumes t) := by
    rw [hfilter, List.countP_filter]
    apply List.countP_congr
    intro k _
    cases hc : q.isCancelled k with
    | true => simp [resumes_of_isCancelled hc t]
    | false => simp
  rw [armed, hperm.countP_eq, List.countP_append, List.countP_append, hcancelled, hfired, armed,
    resumes_of_bare hbare]
  omega

theorem Tidy.poll (hq : Tidy q) (now : Nanos) :
    Tidy (q.poll now).1 ∧ ∀ k ∈ (q.poll now).2, k < q.timeouts.size := by
  obtain ⟨ls, ks, -, hperm, -, hbare, hremovals, hfilter, -⟩ := poll_spec q now
  have hsize := size_eq_of_bare hbare
  have hmem : ∀ k, k ∈ ls ++ ks ++ (q.poll now).1.heap.toList → k < q.timeouts.size := by
    intro k hk
    rw [← hperm.mem_iff] at hk
    exact hq.heap k (Array.mem_toList_iff.mp hk)
  refine ⟨⟨?_, ?_⟩, ?_⟩
  · intro k hk
    rw [hsize]
    exact hmem k (List.mem_append_right _ (Array.mem_toList_iff.mpr hk))
  · intro k hk
    rw [hremovals] at hk
    cases hk
  · intro k hk
    rw [hfilter] at hk
    exact hmem k (List.mem_append_left _ (List.mem_append_right _ (List.mem_filter.mp hk).1))

end GreenThreads.TimerQueue

import GreenThreads.Proofs.Timer.Positions

/-!
# The representation of a timer heap

Timeouts are made, added, cancelled and polled for in any order and at any readings of the clock.
The positions in the heap are right after each operation. No entry is before its parent if the
deadlines lie within half the circle; it is not enough that any two of them are less than half the
circle apart.
-/

namespace GreenThreads

namespace TimerQueue

variable {q q' : TimerQueue} {key : Nat → Int} {B : Int} {k : Nat}

/-! ## Deadlines within half the circle -/

/-- All deadlines come after `base`, by less than half the circle. -/
def Within (base : Nanos) (q : TimerQueue) : Prop := ∀ t ∈ q.timeouts, 0 ≤ t.deadline - base

instance (base : Nanos) (q : TimerQueue) : Decidable (Within base q) :=
  inferInstanceAs (Decidable (∀ t ∈ q.timeouts, 0 ≤ t.deadline - base))

/-- The time of a timeout, when all deadlines come after `base`. -/
def timeFrom (base : Nanos) (q : TimerQueue) (k : Nat) : Int :=
  base.toInt + ((q.deadlineOf? k).getD base - base).toInt

theorem instant_timeFrom (base d : Nanos) :
    Nanos.instant (base.toInt + (d - base).toInt) = d := by
  rw [Nanos.instant, Int64.ofInt_add, Int64.ofInt_toInt, Int64.ofInt_toInt, Int64.add_comm,
    Int64.sub_add_cancel]

theorem deadlineOf?_of_bare {t : Timeout} (h : q.bare[k]? = some t) :
    q.deadlineOf? k = some t.deadline := by
  obtain ⟨u, hu, rfl⟩ := Option.map_eq_some_iff.mp ((Array.getElem?_map ..).symm.trans h)
  rw [deadlineOf?, hu, Option.map_some]

theorem Within.timed {base : Nanos} (h : Within base q) :
    Timed base.toInt (q.timeFrom base) q := by
  refine ⟨?_, ?_⟩
  · intro k t ht
    rw [timeFrom, deadlineOf?_of_bare ht, Option.getD_some, instant_timeFrom]
  · intro k hk
    have ht := Array.getElem?_eq_getElem hk
    have hpos := Int64.le_iff_toInt_le.mp (h _ (Array.mem_of_getElem? ht))
    have hlt := Int64.toInt_lt (q.timeouts[k].deadline - base)
    rw [Int64.toInt_zero] at hpos
    rw [timeFrom, deadlineOf?, ht, Option.map_some, Option.getD_some]
    omega

theorem Timed.restrict (hT : Timed B key q') (hsize : q.timeouts.size ≤ q'.timeouts.size)
    (h : ∀ k, k < q.timeouts.size → q'.deadlineOf? k = q.deadlineOf? k) : Timed B key q := by
  refine ⟨?_, fun k hk => hT.window k (Nat.lt_of_lt_of_le hk hsize)⟩
  intro k t ht
  have hk : k < q.timeouts.size := by
    rw [← size_bare]
    exact (Array.getElem?_eq_some_iff.mp ht).1
  have hdeadline := hT.deadlineOf? (Nat.lt_of_lt_of_le hk hsize)
  rw [h k hk, deadlineOf?_of_bare ht, Option.some.injEq] at hdeadline
  exact hdeadline

theorem deadlineOf?_create (x : Timeout) (hk : k < q.timeouts.size) :
    (q.create x).1.deadlineOf? k = q.deadlineOf? k := by
  simp only [deadlineOf?, create, Array.getElem?_push_lt hk, Array.getElem?_eq_getElem hk]

theorem deadlineOf?_mark (q : TimerQueue) (k j : Nat) :
    (q.mark k).deadlineOf? j = q.deadlineOf? j := by
  simp only [deadlineOf?, mark, Array.getElem?_modify]
  split
  · cases q.timeouts[j]? <;> rfl
  · rfl

/-- The heap is in order for all times that the deadlines may stand for. -/
def OrderedWithin (q : TimerQueue) : Prop := ∀ B key, Timed B key q → Ordered key q.heap

theorem OrderedWithin.not_dueBefore (h : OrderedWithin q) (hp : Placed q) {base : Nanos}
    (hbase : Within base q) {i : Nat} (hi : 0 < i) : q.dueBefore i ((i - 1) / 2) = false := by
  have hT := hbase.timed
  cases hdue : q.dueBefore i ((i - 1) / 2) with
  | false => rfl
  | true =>
      obtain ⟨a, b, ha, hb, hlt⟩ := (dueBefore_iff hT hp).mp hdue
      have hchild : IsChild ((i - 1) / 2) i := by unfold IsChild; omega
      have hle := h _ _ hT _ _ hchild b a hb ha
      omega

end TimerQueue

/-- A timer queue and the timeouts that were added to it. -/
structure Rota where
  queue : TimerQueue
  added : List Nat := []

namespace Rota

/-- Makes a timeout at `now`. -/
def create (r : Rota) (task : TaskId) (now deadline : Nanos) (action : TimeoutAction)
    (owner : Nat) : Rota :=
  { r with queue := (r.queue.create (Timeout.make task now deadline action owner)).1 }

/-- Cancels the timeout with number `k`, at once or at the next poll. -/
def cancel (r : Rota) (k : Nat) (byOwner : Bool) : Rota :=
  { r with queue := r.queue.cancel k byOwner }

/-- Polls at `now`. -/
def poll (r : Rota) (now : Nanos) : Rota := { r with queue := (r.queue.poll now).1 }

/-- What becomes of an empty queue. Any timeout may be cancelled at any time and repeatedly. One
that belongs to the owner is added at most once. -/
inductive Reached (owner : Nat) : Rota → Prop where
  | start : Reached owner { queue := { owner } }
  | create {r : Rota} (task : TaskId) (now deadline : Nanos) (action : TimeoutAction) (o : Nat) :
      Reached owner r → Reached owner (r.create task now deadline action o)
  | add {r : Rota} {q : TimerQueue} {k : Nat} {t : Timeout} :
      Reached owner r → r.queue.timeouts[k]? = some t → t.owner = owner → k ∉ r.added →
      r.queue.insert k = .ok q → Reached owner { queue := q, added := k :: r.added }
  | cancel {r : Rota} (k : Nat) (byOwner : Bool) :
      Reached owner r → Reached owner (r.cancel k byOwner)
  | poll {r : Rota} (now : Nanos) : Reached owner r → Reached owner (r.poll now)

/-- The positions are right, and the heap is in order as far as the deadlines allow. -/
structure Sound (owner : Nat) (r : Rota) : Prop where
  owner : r.queue.owner = owner
  indexed : r.queue.Indexed
  ordered : r.queue.OrderedWithin
  heap_added : ∀ k ∈ r.queue.heap, k ∈ r.added

variable {owner k : Nat} {r : Rota} {t : Timeout} {now : Nanos}

/-! ## One operation -/

theorem sound_start (owner : Nat) : Sound owner { queue := { owner } } where
  owner := rfl
  indexed := by
    intro i k
    simp only [TimerQueue.slotOf?, List.getElem?_toArray, List.getElem?_nil, Option.bind_none,
      reduceCtorEq]
  ordered := by
    intro B key _ p c _ a b ha
    simp only [List.getElem?_toArray, List.getElem?_nil, reduceCtorEq] at ha
  heap_added := by
    intro k hk
    simp only [List.mem_toArray, List.not_mem_nil] at hk

theorem Sound.create (h : Sound owner r) (task : TaskId) (now deadline : Nanos)
    (action : TimeoutAction) (o : Nat) : Sound owner (r.create task now deadline action o) where
  owner := h.owner
  indexed := h.indexed.create rfl
  ordered := by
    intro B key hT
    refine h.ordered B key (hT.restrict ?_ fun k hk => TimerQueue.deadlineOf?_create _ hk)
    rw [Rota.create, TimerQueue.size_create]
    exact Nat.le_succ _
  heap_added := h.heap_added

theorem Sound.lt_size_of_add (h : Sound owner r) (ht : r.queue.timeouts[k]? = some t)
    (hnew : k ∉ r.added) : k < r.queue.timeouts.size ∧ k ∉ r.queue.heap :=
  ⟨(Array.getElem?_eq_some_iff.mp ht).1, fun hk => hnew (h.heap_added k hk)⟩

/-- An addition succeeds, and its sift ends within the heap. -/
theorem Sound.insert_eq (h : Sound owner r) (ht : r.queue.timeouts[k]? = some t)
    (ho : t.owner = owner) (hnew : k ∉ r.added) :
    ∃ q, r.queue.insert k = .ok q ∧ r.queue.insert? k = some q := by
  obtain ⟨hk, hout⟩ := h.lt_size_of_add ht hnew
  exact ⟨_, TimerQueue.insert_of_owner ht (ho.trans h.owner.symm),
    TimerQueue.insert?_eq h.indexed.placed hk hout⟩

theorem Sound.add (h : Sound owner r) {q : TimerQueue} (ht : r.queue.timeouts[k]? = some t)
    (ho : t.owner = owner) (hnew : k ∉ r.added) (hq : r.queue.insert k = .ok q) :
    Sound owner { queue := q, added := k :: r.added } := by
  obtain ⟨hk, hout⟩ := h.lt_size_of_add ht hnew
  rw [TimerQueue.insert_of_owner ht (ho.trans h.owner.symm)] at hq
  cases hq
  have hshift := TimerQueue.rearranged_insert r.queue k
  exact
    { owner := hshift.owner.trans h.owner
      indexed := (h.indexed.push hk hout).siftUp _
      ordered := by
        intro B key hT
        have hT' : TimerQueue.Timed B key r.queue := hT.of_bare hshift.bare.symm
        exact (h.ordered B key hT').insert hT' h.indexed.placed hk hout
      heap_added := by
        intro j hj
        rw [← Array.mem_toList_iff, hshift.heap.mem_iff, Array.mem_toList_iff,
          Array.mem_push] at hj
        rcases hj with hj | rfl
        · exact List.mem_cons_of_mem _ (h.heap_added j hj)
        · exact List.mem_cons_self }

theorem Sound.mark (h : Sound owner r) (k : Nat) :
    Sound owner { r with queue := r.queue.mark k } where
  owner := h.owner
  indexed := h.indexed.mark k
  ordered := by
    intro B key hT
    exact h.ordered B key (hT.restrict (Nat.le_of_eq (TimerQueue.size_mark _ _).symm)
      fun j _ => TimerQueue.deadlineOf?_mark _ _ _)
  heap_added := h.heap_added

theorem Sound.remove (h : Sound owner r) (k : Nat) :
    Sound owner { r with queue := r.queue.remove k } := by
  obtain ⟨ks, hshort, -⟩ := TimerQueue.shortened_remove r.queue k
  exact
    { owner := hshort.owner.trans h.owner
      indexed := h.indexed.remove k
      ordered := by
        intro B key hT
        have hT' := hT.of_bare hshort.bare.symm
        exact (h.ordered B key hT').remove hT' h.indexed.placed k
      heap_added := fun j hj =>
        h.heap_added j ((hshort.mem_heap h.indexed.placed j).mp hj).1 }

theorem Sound.cancel (h : Sound owner r) (k : Nat) (byOwner : Bool) :
    Sound owner (r.cancel k byOwner) := by
  rw [Rota.cancel, TimerQueue.cancel_eq]
  cases byOwner with
  | true => exact (h.mark k).remove k
  | false =>
      have hmark := h.mark k
      exact ⟨hmark.owner, hmark.indexed, fun B key hT => hmark.ordered B key (hT.of_bare rfl),
        hmark.heap_added⟩

theorem Sound.poll (h : Sound owner r) (now : Nanos) : Sound owner (r.poll now) := by
  obtain ⟨ls, ks, -, hperm, howner, hbare, -⟩ := TimerQueue.poll_spec r.queue now
  exact
    { owner := howner.trans h.owner
      indexed := h.indexed.poll now
      ordered := by
        intro B key hT
        have hT' := hT.of_bare hbare.symm
        exact (h.ordered B key hT').poll hT' h.indexed.placed now
      heap_added := by
        intro k hk
        refine h.heap_added k ?_
        rw [← Array.mem_toList_iff, hperm.mem_iff]
        exact List.mem_append_right _ (Array.mem_toList_iff.mpr hk) }

/-! ## A whole run -/

theorem Reached.sound (h : Reached owner r) : Sound owner r := by
  induction h with
  | start => exact sound_start owner
  | create task now deadline action o _ ih => exact ih.create task now deadline action o
  | add _ ht ho hnew hq ih => exact ih.add ht ho hnew hq
  | cancel k byOwner _ ih => exact ih.cancel k byOwner
  | poll now _ ih => exact ih.poll now

/-- After any operations no timeout is in the heap twice, the timeout at a position stores this
position, and one that is not in the heap stores −1. A removal takes out the timeout that it is
asked for if it is there, and otherwise changes nothing. All sifts end and look at positions of the
heap only. If the deadlines lie within half the circle, then no entry is before its parent. -/
theorem Reached.heap_kept (h : Reached owner r) :
    r.queue.heap.toList.Nodup ∧
    (∀ i k : Nat, r.queue.heap[i]? = some k →
      ∃ t : Timeout, r.queue.timeouts[k]? = some t ∧ t.position = i) ∧
    (∀ (k : Nat) (t : Timeout), r.queue.timeouts[k]? = some t → k ∉ r.queue.heap → t.position = -1) ∧
    (∀ base, r.queue.Within base → ∀ i, 0 < i → r.queue.dueBefore i ((i - 1) / 2) = false) ∧
    (∀ k, if k ∈ r.queue.heap then TimerQueue.Shortened [k] r.queue (r.queue.remove k)
      else r.queue.remove k = r.queue) ∧
    (∀ i, i < r.queue.heap.size →
      r.queue.siftUp? r.queue.turns i = some (r.queue.siftUp i) ∧
      r.queue.siftDown? r.queue.turns i = some (r.queue.siftDown i)) ∧
    (∀ (k : Nat) (t : Timeout), r.queue.timeouts[k]? = some t → t.owner = owner → k ∉ r.added →
      ∃ q, r.queue.insert k = .ok q ∧ r.queue.insert? k = some q) ∧
    (∀ k, r.queue.remove? k = some (r.queue.remove k) ∧
      (r.queue.mark k).remove? k = some (r.queue.cancel k true)) ∧
    ∀ now, r.queue.poll? now = some (r.queue.poll now).1 := by
  have hsound := h.sound
  have hindexed := hsound.indexed
  have hplaced := hindexed.placed
  refine ⟨hplaced.nodup, ?_, ?_, ?_, ?_, ?_, ?_, ?_, TimerQueue.poll?_eq hplaced⟩
  · intro i k hi
    obtain ⟨t, ht, hslot⟩ := Option.bind_eq_some_iff.mp (hplaced i k hi)
    exact ⟨t, ht, by rw [Timeout.position, hslot]⟩
  · intro k t ht hk
    have hslot := hindexed.slotOf?_eq_none hk
    rw [TimerQueue.slotOf?, ht, Option.bind_some] at hslot
    rw [Timeout.position, hslot]
  · intro base hbase i hi
    exact hsound.ordered.not_dueBefore hplaced hbase hi
  · intro k
    split
    · next hk => exact hindexed.shortened_remove hk
    · next hk => exact hindexed.remove_eq_self hk
  · intro i hi
    exact ⟨TimerQueue.siftUp?_turns hplaced hi, TimerQueue.siftDown?_turns hplaced hi⟩
  · intro k t ht ho hnew
    exact hsound.insert_eq ht ho hnew
  · intro k
    exact ⟨TimerQueue.remove?_eq hplaced k, TimerQueue.remove?_eq (hplaced.mark k) k⟩

/-! ## Two runs -/

/-- An addition is what its checked form gives. -/
theorem Reached.add_checked (h : Reached owner r) {q : TimerQueue}
    (ht : r.queue.timeouts[k]? = some t) (ho : t.owner = owner) (hnew : k ∉ r.added)
    (hq : r.queue.insert? k = some q) : Reached owner { queue := q, added := k :: r.added } := by
  obtain ⟨q', hinsert, hchecked⟩ := h.sound.insert_eq ht ho hnew
  rw [hq] at hchecked
  cases hchecked
  exact h.add ht ho hnew hinsert

/-- Timers on both sides of the end of the 64 bits, one of them cancelled from afar before it was
added, all within half the circle: no entry is before its parent. -/
theorem heap_kept_across_wrap :
    ∃ r : Rota, Reached 7 r ∧ r.queue.heap = #[1, 0, 2] ∧ r.queue.removals = [2] ∧
      r.queue.Within 9223372036854775800 ∧
      ∀ i, 0 < i → r.queue.dueBefore i ((i - 1) / 2) = false := by
  have h0 : Reached 7 { queue := { owner := 7 } } := .start
  have h1 := h0.create ⟨0⟩ 9223372036854775800 (-9223372036854775800) .resume 7
  have h2 := h1.create ⟨0⟩ 9223372036854775800 9223372036854775806 .resume 7
  have h3 := h2.create ⟨0⟩ (-9223372036854775807) (-9223372036854775000) .resume 7
  have h4 := h3.cancel 2 false
  have h5 := h4.add_checked (k := 0) rfl rfl (by decide) rfl
  have h6 := h5.add_checked (k := 1) rfl rfl (by decide) rfl
  have h7 := h6.add_checked (k := 2) rfl rfl (by decide) rfl
  obtain ⟨-, -, -, hordered, -⟩ := Reached.heap_kept h7
  exact ⟨_, h7, rfl, rfl, by decide, hordered 9223372036854775800 (by decide)⟩

/-- Any two of these deadlines are less than half the circle apart, but each comes before the next
one around the circle. The entry at position 2 is before its parent. -/
theorem order_lost_around_circle :
    ∃ r : Rota, Reached 0 r ∧ r.queue.heap = #[3, 0, 2, 1] ∧
      (∀ t ∈ r.queue.timeouts.toList, ∀ u ∈ r.queue.timeouts.toList,
        (t.deadline - u.deadline).toInt.natAbs < 2 ^ 63) ∧
      r.queue.dueBefore 2 ((2 - 1) / 2) = true := by
  have h0 : Reached 0 { queue := { owner := 0 } } := .start
  have h1 := h0.create ⟨0⟩ 0 0 .resume 0
  have h2 := h1.create ⟨0⟩ 0 0 .resume 0
  have h3 := h2.create ⟨0⟩ 6917529027641081856 6917529027641081856 .resume 0
  have h4 := h3.create ⟨0⟩ (-4611686018427387904) (-4611686018427387904) .resume 0
  have h5 := h4.add_checked (k := 0) rfl rfl (by decide) rfl
  have h6 := h5.add_checked (k := 1) rfl rfl (by decide) rfl
  have h7 := h6.add_checked (k := 2) rfl rfl (by decide) rfl
  have h8 := h7.add_checked (k := 3) rfl rfl (by decide) rfl
  exact ⟨_, h8, rfl, by decide, by decide⟩

end Rota

end GreenThreads

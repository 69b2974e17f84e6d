import GreenThreads.Timer.Queue
import Mathlib.Data.List.Nodup

/-!
# What a timer queue holds

The sifts only exchange positions of the heap, and every pending timeout knows where it is after
each exchange. So an insertion adds one number to the heap, and a removal takes one out, wherever
it is.
-/

namespace GreenThreads.TimerQueue

variable {q q' q'' : TimerQueue} {i j k : Nat}

/-- The timeouts without their positions. -/
def bare (q : TimerQueue) : Array Timeout := q.timeouts.map ({ · with slot := none })

/-- The position that the timeout with number `k` stores. -/
def slotOf? (q : TimerQueue) (k : Nat) : Option Nat := q.timeouts[k]?.bind (·.slot)

/-- The timeouts of `q'` are those of `q`, and its heap holds the same numbers in some order. -/
structure Rearranged (q q' : TimerQueue) : Prop where
  owner : q'.owner = q.owner
  removals : q'.removals = q.removals
  bare : q'.bare = q.bare
  heap : q'.heap.toList.Perm q.heap.toList

theorem Rearranged.refl (q : TimerQueue) : Rearranged q q := ⟨rfl, rfl, rfl, .refl _⟩

theorem Rearranged.trans (h : Rearranged q q') (h' : Rearranged q' q'') : Rearranged q q'' :=
  ⟨h'.owner.trans h.owner, h'.removals.trans h.removals, h'.bare.trans h.bare,
    h'.heap.trans h.heap⟩

theorem Rearranged.size (h : Rearranged q q') : q'.heap.size = q.heap.size := by
  simpa using h.heap.length_eq

/-! ## Positions -/

@[simp] theorem bare_setSlot (q : TimerQueue) (k : Nat) (s : Option Nat) :
    (q.setSlot k s).bare = q.bare := by
  unfold bare setSlot
  apply Array.ext_getElem?
  intro i
  simp only [Array.getElem?_map, Array.getElem?_modify]
  split
  · cases q.timeouts[i]? <;> rfl
  · rfl

@[simp] theorem size_bare (q : TimerQueue) : q.bare.size = q.timeouts.size := by
  simp only [bare, Array.size_map]

theorem size_create (q : TimerQueue) (x : Timeout) :
    (q.create x).1.timeouts.size = q.timeouts.size + 1 := Array.size_push _

theorem bare_create (q : TimerQueue) (x : Timeout) :
    (q.create x).1.bare = q.bare.push { x with slot := none } := by
  simp only [create, bare, Array.map_push]

theorem getElem?_bare_create (x : Timeout) (hk : k < q.timeouts.size) :
    (q.create x).1.bare[k]? = q.bare[k]? := by
  rw [bare_create, Array.getElem?_push_lt (by rw [size_bare]; exact hk),
    Array.getElem?_eq_getElem]

theorem getElem?_bare_create_new (q : TimerQueue) (x : Timeout) :
    (q.create x).1.bare[q.timeouts.size]? = some { x with slot := none } := by
  rw [bare_create, ← size_bare, Array.getElem?_push_size]

/-- The timeouts of a queue after one was made: the earlier ones and the new one. -/
theorem bare_create_cases {x y : Timeout} (h : (q.create x).1.bare[k]? = some y) :
    (k < q.timeouts.size ∧ q.bare[k]? = some y) ∨
      k = q.timeouts.size ∧ y = { x with slot := none } := by
  have hk : k < q.timeouts.size + 1 := by
    rw [← size_create q x, ← size_bare]
    exact (Array.getElem?_eq_some_iff.mp h).1
  by_cases hlt : k < q.timeouts.size
  · rw [getElem?_bare_create x hlt] at h
    exact .inl ⟨hlt, h⟩
  · have hlast : k = q.timeouts.size := by omega
    subst hlast
    rw [getElem?_bare_create_new] at h
    cases h
    exact .inr ⟨rfl, rfl⟩

theorem slotOf?_setSlot (q : TimerQueue) (k j : Nat) (s : Option Nat) :
    (q.setSlot k s).slotOf? j =
      if j = k ∧ k < q.timeouts.size then s else q.slotOf? j := by
  simp only [slotOf?, setSlot, Array.getElem?_modify]
  by_cases hjk : j = k
  · subst hjk
    by_cases hlt : j < q.timeouts.size
    · simp only [hlt, and_self, ↓reduceIte, Array.getElem?_eq_getElem hlt, Option.map_some,
        Option.bind_some]
    · simp only [hlt, and_false, ↓reduceIte, Array.getElem?_eq_none (Nat.le_of_not_lt hlt),
        Option.map_none, Option.bind_none]
  · simp only [hjk, false_and, ↓reduceIte, if_neg (Ne.symm hjk)]

theorem lt_size_of_slotOf? (h : q.slotOf? k = some i) : k < q.timeouts.size := by
  by_cases hlt : k < q.timeouts.size
  · exact hlt
  · rw [slotOf?, Array.getElem?_eq_none (Nat.le_of_not_lt hlt)] at h
    cases h

theorem rearranged_settle (q : TimerQueue) (i : Nat) : Rearranged q (q.settle i) := by
  unfold settle
  split
  · exact ⟨rfl, rfl, bare_setSlot _ _ _, .refl _⟩
  · exact .refl q

theorem rearranged_swap (q : TimerQueue) (i j : Nat) : Rearranged q (q.swap i j) := by
  have hheap : Rearranged q { q with heap := q.heap.swapIfInBounds i j } := by
    refine ⟨rfl, rfl, rfl, ?_⟩
    simp only [Array.swapIfInBounds_def]
    split
    · split
      · next hi hj => exact Array.perm_iff_toList_perm.mp (Array.swap_perm hi hj)
      · exact .refl _
    · exact .refl _
  exact (hheap.trans (rearranged_settle _ i)).trans (rearranged_settle _ j)

/-! ## Every pending timeout knows where it is -/

/-- Every pending timeout stores its position. -/
def Placed (q : TimerQueue) : Prop := ∀ i k, q.heap[i]? = some k → q.slotOf? k = some i

theorem Placed.lt_size (h : Placed q) (hi : q.heap[i]? = some k) : k < q.timeouts.size :=
  lt_size_of_slotOf? (h i k hi)

theorem Placed.lt_size_of_mem (h : Placed q) (hk : k ∈ q.heap) : k < q.timeouts.size := by
  obtain ⟨i, hi⟩ := Array.mem_iff_getElem?.mp hk
  exact h.lt_size hi

theorem Placed.inj (h : Placed q) (hi : q.heap[i]? = some k) (hj : q.heap[j]? = some k) :
    i = j := by
  have hij := (h i k hi).symm.trans (h j k hj)
  exact Option.some.inj hij

theorem Placed.nodup (h : Placed q) : q.heap.toList.Nodup := by
  rw [List.nodup_iff_getElem?_ne_getElem?]
  intro i j hij hj heq
  have hlast := List.getElem?_eq_getElem hj
  rw [hlast] at heq
  have hne := h.inj (i := i) (j := j) (by rw [← Array.getElem?_toList]; exact heq)
    (by rw [← Array.getElem?_toList]; exact hlast)
  omega

@[simp] theorem size_timeouts_settle (q : TimerQueue) (i : Nat) :
    (q.settle i).timeouts.size = q.timeouts.size := by
  rw [← size_bare, (rearranged_settle q i).bare, size_bare]

theorem slotOf?_settle (q : TimerQueue) (i j : Nat) :
    (q.settle i).slotOf? j =
      if q.heap[i]? = some j ∧ j < q.timeouts.size then some i else q.slotOf? j := by
  unfold settle
  split
  · next k hk =>
      rw [slotOf?_setSlot, hk]
      by_cases hjk : j = k
      · simp only [hjk, true_and]
      · simp only [hjk, false_and, ↓reduceIte, Option.some.injEq, Ne.symm hjk]
  · next hk => simp only [hk, reduceCtorEq, false_and, ↓reduceIte]

theorem slotOf?_swap (q : TimerQueue) (i j k : Nat) :
    (q.swap i j).slotOf? k =
      if (q.swap i j).heap[j]? = some k ∧ k < q.timeouts.size then some j
      else if (q.swap i j).heap[i]? = some k ∧ k < q.timeouts.size then some i
      else q.slotOf? k := by
  rw [heap_swap]
  simp only [swap, slotOf?_settle, heap_settle, size_timeouts_settle]
  rfl

theorem getElem?_heap_swap (hi : i < q.heap.size) (hj : j < q.heap.size) (x : Nat) :
    (q.swap i j).heap[x]? =
      if j = x then q.heap[i]? else if i = x then q.heap[j]? else q.heap[x]? := by
  rw [heap_swap, Array.swapIfInBounds_def, dif_pos hi, dif_pos hj, Array.getElem?_swap,
    Array.getElem?_eq_getElem hi, Array.getElem?_eq_getElem hj]

theorem Placed.swap (h : Placed q) (hi : i < q.heap.size) (hj : j < q.heap.size) :
    Placed (q.swap i j) := by
  intro x k hx
  have hmoved := getElem?_heap_swap hi hj
  -- The exchange is a permutation, so every number still has only one position.
  have hone : ∀ y, (q.swap i j).heap[y]? = some k → x = y := by
    intro y hy
    have hnodup := (rearranged_swap q i j).heap.nodup_iff.mpr h.nodup
    rw [← Array.getElem?_toList] at hx hy
    have hlt := (List.getElem?_eq_some_iff.mp hx).1
    exact (List.getElem?_inj hlt hnodup).mp (hx.trans hy.symm)
  have hk : k < q.timeouts.size := by
    have hmem := Array.mem_of_getElem? hx
    rw [← Array.mem_toList_iff, (rearranged_swap q i j).heap.mem_iff, Array.mem_toList_iff] at hmem
    exact h.lt_size_of_mem hmem
  rw [slotOf?_swap]
  by_cases hxj : (q.swap i j).heap[j]? = some k
  · rw [if_pos ⟨hxj, hk⟩, hone j hxj]
  · rw [if_neg fun hc => hxj hc.1]
    by_cases hxi : (q.swap i j).heap[i]? = some k
    · rw [if_pos ⟨hxi, hk⟩, hone i hxi]
    · rw [if_neg fun hc => hxi hc.1]
      have hjx : j ≠ x := by rintro rfl; exact hxj hx
      have hix : i ≠ x := by rintro rfl; exact hxi hx
      rw [hmoved, if_neg hjx, if_neg hix] at hx
      exact h x k hx

/-! ## Sifting -/

theorem rearranged_siftUp (q : TimerQueue) (i : Nat) : Rearranged q (q.siftUp i) := by
  induction q, i using siftUp.induct with
  | case1 q i hup ih =>
      rw [siftUp, if_pos hup]
      exact (rearranged_swap q i ((i - 1) / 2)).trans ih
  | case2 q i hstop =>
      rw [siftUp, if_neg hstop]
      exact .refl q

theorem rearranged_siftDown (q : TimerQueue) (i : Nat) : Rearranged q (q.siftDown i) := by
  induction q, i using siftDown.induct with
  | case1 q i hdown ih =>
      rw [siftDown, dif_pos hdown]
      exact (rearranged_swap q i (q.firstChild i)).trans ih
  | case2 q i hstop =>
      rw [siftDown, dif_neg hstop]
      exact .refl q

theorem lt_size_of_dueBefore_right (h : q.dueBefore i j = true) : j < q.heap.size := by
  unfold dueBefore at h
  split at h
  · next hb =>
      obtain ⟨k, hk, -⟩ := Option.bind_eq_some_iff.mp hb
      exact (Array.getElem?_eq_some_iff.mp hk).1
  · cases h

theorem Placed.siftUp (h : Placed q) (i : Nat) : Placed (q.siftUp i) := by
  induction q, i using siftUp.induct with
  | case1 q i hup ih =>
      rw [TimerQueue.siftUp, if_pos hup]
      exact ih (h.swap (lt_size_of_dueBefore hup.2) (lt_size_of_dueBefore_right hup.2))
  | case2 q i hstop =>
      rw [TimerQueue.siftUp, if_neg hstop]
      exact h

theorem Placed.siftDown (h : Placed q) (i : Nat) : Placed (q.siftDown i) := by
  induction q, i using siftDown.induct with
  | case1 q i hdown ih =>
      rw [TimerQueue.siftDown, dif_pos hdown]
      exact ih (h.swap (lt_size_of_dueBefore_right hdown) (lt_size_of_dueBefore hdown))
  | case2 q i hstop =>
      rw [TimerQueue.siftDown, dif_neg hstop]
      exact h

/-! ## Taking numbers out -/

/-- The timeouts of `q'` are those of `q`, and its heap has lost the numbers `ks`. -/
structure Shortened (ks : List Nat) (q q' : TimerQueue) : Prop where
  owner : q'.owner = q.owner
  removals : q'.removals = q.removals
  bare : q'.bare = q.bare
  heap : q.heap.toList.Perm (ks ++ q'.heap.toList)

variable {ks ls : List Nat}

theorem Shortened.refl (q : TimerQueue) : Shortened [] q q := ⟨rfl, rfl, rfl, .refl _⟩

theorem Shortened.trans (h : Shortened ks q q') (h' : Shortened ls q' q'') :
    Shortened (ks ++ ls) q q'' := by
  refine ⟨h'.owner.trans h.owner, h'.removals.trans h.removals, h'.bare.trans h.bare, ?_⟩
  rw [List.append_assoc]
  exact h.heap.trans (h'.heap.append_left ks)

theorem Rearranged.shortened (h : Rearranged q q') (h' : Shortened ks q' q'') :
    Shortened ks q q'' :=
  ⟨h'.owner.trans h.owner, h'.removals.trans h.removals, h'.bare.trans h.bare,
    h.heap.symm.trans h'.heap⟩

theorem Shortened.rearranged (h : Shortened ks q q') (h' : Rearranged q' q'') :
    Shortened ks q q'' :=
  ⟨h'.owner.trans h.owner, h'.removals.trans h.removals, h'.bare.trans h.bare,
    h.heap.trans (h'.heap.symm.append_left ks)⟩

theorem Shortened.mem_heap (h : Shortened ks q q') (hq : Placed q) (j : Nat) :
    j ∈ q'.heap ↔ j ∈ q.heap ∧ j ∉ ks := by
  have hnodup := h.heap.nodup_iff.mp hq.nodup
  rw [← Array.mem_toList_iff, ← Array.mem_toList_iff, h.heap.mem_iff, List.mem_append]
  constructor
  · intro hj
    exact ⟨.inr hj, fun hk => (List.disjoint_of_nodup_append hnodup) hk hj⟩
  · rintro ⟨hk | hj, hne⟩
    · exact absurd hk hne
    · exact hj

theorem Shortened.size (h : Shortened ks q q') : q.heap.size = ks.length + q'.heap.size := by
  simpa using h.heap.length_eq

theorem Shortened.mem_of_mem (h : Shortened ks q q') (hk : k ∈ ks) : k ∈ q.heap := by
  rw [← Array.mem_toList_iff, h.heap.mem_iff]
  exact List.mem_append_left _ hk

theorem getElem?_heap_dropLast (q : TimerQueue) (k x : Nat) :
    (q.dropLast k).heap[x]? = if x < q.heap.size - 1 then q.heap[x]? else none := by
  simp only [dropLast, heap_setSlot, Array.getElem?_pop]

theorem shortened_dropLast (hk : q.heap[q.heap.size - 1]? = some k) :
    Shortened [k] q (q.dropLast k) := by
  refine ⟨rfl, rfl, bare_setSlot _ _ _, ?_⟩
  have hlast : q.heap.toList.getLast? = some k := by
    rw [List.getLast?_eq_getElem?, Array.length_toList, Array.getElem?_toList]
    exact hk
  have happend : q.heap.toList.dropLast ++ [k] = q.heap.toList :=
    List.dropLast_append_getLast? k hlast
  simp only [dropLast, heap_setSlot, Array.toList_pop]
  conv => lhs; rw [← happend]
  exact List.perm_append_singleton k _

theorem Placed.dropLast (h : Placed q) (hk : q.heap[q.heap.size - 1]? = some k) :
    Placed (q.dropLast k) := by
  intro x j hx
  rw [getElem?_heap_dropLast] at hx
  split at hx
  · next hlt =>
      have hne : j ≠ k := by
        rintro rfl
        have hlast := h.inj hx hk
        omega
      have hslot : (q.dropLast k).slotOf? j = q.slotOf? j := by
        rw [TimerQueue.dropLast, slotOf?_setSlot, if_neg fun hc => hne hc.1]
        rfl
      rw [hslot]
      exact h x j hx
  · cases hx

/-- Takes out the number `k` at position `i`, whose place the last one takes. -/
def takeOut (q : TimerQueue) (i k : Nat) : TimerQueue :=
  (q.swap i (q.heap.size - 1)).dropLast k

theorem last_swap (hi : q.heap[i]? = some k) :
    (q.swap i (q.heap.size - 1)).heap[(q.swap i (q.heap.size - 1)).heap.size - 1]? = some k := by
  have hlt := (Array.getElem?_eq_some_iff.mp hi).1
  rw [(rearranged_swap q i _).size, getElem?_heap_swap hlt (by omega), if_pos rfl]
  exact hi

theorem shortened_takeOut (hi : q.heap[i]? = some k) : Shortened [k] q (q.takeOut i k) :=
  (rearranged_swap q i _).shortened (shortened_dropLast (last_swap hi))

theorem Placed.takeOut (h : Placed q) (hi : q.heap[i]? = some k) : Placed (q.takeOut i k) := by
  have hlt := (Array.getElem?_eq_some_iff.mp hi).1
  exact (h.swap hlt (by omega)).dropLast (last_swap hi)

/-- Only position `i` may hold another number than before. -/
theorem getElem?_heap_takeOut (hi : q.heap[i]? = some k) {x v : Nat} (hx : x ≠ i)
    (hv : (q.takeOut i k).heap[x]? = some v) : q.heap[x]? = some v := by
  have hlt := (Array.getElem?_eq_some_iff.mp hi).1
  rw [takeOut, getElem?_heap_dropLast, (rearranged_swap q i _).size] at hv
  split at hv
  · next hlast =>
      rw [getElem?_heap_swap hlt (by omega), if_neg (by omega), if_neg (Ne.symm hx)] at hv
      exact hv
  · cases hv

/-! ## Insertion and removal -/

/-- A timeout that is not pending is added to the heap of the queue that it belongs to. -/
theorem insert_of_owner {t : Timeout} (hk : q.timeouts[k]? = some t) (ho : t.owner = q.owner) :
    q.insert k =
      .ok (({ q with heap := q.heap.push k }.settle q.heap.size).siftUp q.heap.size) := by
  simp only [insert, hk, ho, ↓reduceIte]

theorem rearranged_insert (q : TimerQueue) (k : Nat) :
    Rearranged { q with heap := q.heap.push k }
      (({ q with heap := q.heap.push k }.settle q.heap.size).siftUp q.heap.size) :=
  (rearranged_settle _ _).trans (rearranged_siftUp _ _)

theorem Placed.push (h : Placed q) (hk : k < q.timeouts.size) (hnew : k ∉ q.heap) :
    Placed ({ q with heap := q.heap.push k }.settle q.heap.size) := by
  intro i j hj
  rw [heap_settle, Array.getElem?_push] at hj
  rw [slotOf?_settle]
  simp only [Array.getElem?_push_size, Option.some.injEq]
  split at hj
  · next hi =>
      cases hj
      rw [if_pos ⟨rfl, hk⟩, hi]
  · have hne : k ≠ j := by rintro rfl; exact hnew (Array.mem_of_getElem? hj)
    rw [if_neg fun hc => hne hc.1]
    exact h i j hj

/-- Takes out the number `k` at position `i` and sifts the entry that takes its place. -/
def cutOut (q : TimerQueue) (i k : Nat) : TimerQueue :=
  if i = q.heap.size - 1 then q.dropLast k else ((q.takeOut i k).siftDown i).siftUp i

theorem shortened_cutOut (hi : q.heap[i]? = some k) : Shortened [k] q (q.cutOut i k) := by
  unfold cutOut
  split
  · next hlast => exact shortened_dropLast (by rw [← hlast]; exact hi)
  · exact (shortened_takeOut hi).rearranged
      ((rearranged_siftDown _ i).trans (rearranged_siftUp _ i))

theorem Placed.cutOut (h : Placed q) (hi : q.heap[i]? = some k) : Placed (q.cutOut i k) := by
  unfold TimerQueue.cutOut
  split
  · next hlast => exact h.dropLast (by rw [← hlast]; exact hi)
  · exact ((h.takeOut hi).siftDown i).siftUp i

theorem remove_of_slotOf? (hslot : q.slotOf? k = some i) (hi : q.heap[i]? = some k) :
    q.remove k = q.cutOut i k := by
  have hlt := (Array.getElem?_eq_some_iff.mp hi).1
  rw [slotOf?] at hslot
  simp only [remove, cutOut, hslot, hi, ↓reduceIte]
  split
  · next hlast =>
      have hsize : (q.dropLast k).heap.size = q.heap.size - 1 := by
        simp only [dropLast, heap_setSlot, Array.size_pop]
      rw [if_neg (by omega)]
  · next hlast =>
      have hsize := (shortened_takeOut hi).size
      simp only [List.length_singleton] at hsize
      have hin : i < (q.takeOut i k).heap.size := by omega
      exact if_pos hin

/-- A removal takes out the number where it is, or nothing at all. -/
theorem remove_cases (q : TimerQueue) (k : Nat) :
    q.remove k = q ∨ ∃ i, q.heap[i]? = some k ∧ q.remove k = q.cutOut i k := by
  cases hslot : q.slotOf? k with
  | none =>
      rw [slotOf?] at hslot
      exact .inl (by simp only [remove, hslot])
  | some i =>
      by_cases hi : q.heap[i]? = some k
      · exact .inr ⟨i, hi, remove_of_slotOf? hslot hi⟩
      · rw [slotOf?] at hslot
        exact .inl (by simp only [remove, hslot, hi, ↓reduceIte])

theorem shortened_remove (q : TimerQueue) (k : Nat) :
    ∃ ks, Shortened ks q (q.remove k) ∧ ∀ j ∈ ks, j = k := by
  rcases remove_cases q k with h | ⟨i, hi, h⟩
  · rw [h]; exact ⟨[], .refl q, by simp⟩
  · rw [h]; exact ⟨[k], shortened_cutOut hi, by simp⟩

theorem Placed.remove (h : Placed q) (k : Nat) : Placed (q.remove k) := by
  rcases remove_cases q k with heq | ⟨i, hi, heq⟩
  · rw [heq]; exact h
  · rw [heq]; exact h.cutOut hi

/-- A sequence of removals takes out none but the numbers asked for. -/
theorem shortened_foldl_remove (q : TimerQueue) (rs : List Nat) :
    ∃ ks, Shortened ks q (rs.foldl remove q) ∧ ∀ k ∈ ks, k ∈ rs := by
  induction rs generalizing q with
  | nil => exact ⟨[], .refl q, by simp⟩
  | cons r rs ih =>
      obtain ⟨ks, hfirst, hks⟩ := shortened_remove q r
      obtain ⟨ls, hrest, hls⟩ := ih (q.remove r)
      refine ⟨ks ++ ls, hfirst.trans hrest, ?_⟩
      intro k hk
      rcases List.mem_append.mp hk with hk | hk
      · rw [hks k hk]; exact List.mem_cons_self
      · exact List.mem_cons_of_mem _ (hls k hk)

theorem Placed.foldl_remove (h : Placed q) (rs : List Nat) :
    Placed (rs.foldl TimerQueue.remove q) := by
  induction rs generalizing q with
  | nil => exact h
  | cons r rs ih => exact ih (h.remove r)

/-! ## Cancellation -/

/-- Marks the timeout with number `k` as cancelled. -/
def mark (q : TimerQueue) (k : Nat) : TimerQueue :=
  { q with timeouts := q.timeouts.modify k ({ · with cancelled := true }) }

theorem cancel_eq (q : TimerQueue) (k : Nat) (byOwner : Bool) :
    q.cancel k byOwner =
      if byOwner then (q.mark k).remove k
      else { q.mark k with removals := q.removals ++ [k] } := rfl

theorem bare_mark (q : TimerQueue) (k : Nat) :
    (q.mark k).bare = q.bare.modify k ({ · with cancelled := true }) := by
  apply Array.ext_getElem?
  intro i
  simp only [bare, mark, Array.getElem?_map, Array.getElem?_modify]
  split
  · cases q.timeouts[i]? <;> rfl
  · rfl

theorem getElem?_bare_mark (q : TimerQueue) (k j : Nat) :
    (q.mark k).bare[j]? =
      if k = j then q.bare[j]?.map ({ · with cancelled := true }) else q.bare[j]? := by
  rw [bare_mark, Array.getElem?_modify]

@[simp] theorem size_mark (q : TimerQueue) (k : Nat) :
    (q.mark k).timeouts.size = q.timeouts.size := Array.size_modify

@[simp] theorem slotOf?_mark (q : TimerQueue) (k j : Nat) :
    (q.mark k).slotOf? j = q.slotOf? j := by
  simp only [slotOf?, mark, Array.getElem?_modify]
  split
  · cases q.timeouts[j]? <;> rfl
  · rfl

theorem Placed.mark (h : Placed q) (k : Nat) : Placed (q.mark k) := by
  intro i j hj
  rw [slotOf?_mark]
  exact h i j hj

theorem Placed.cancel (h : Placed q) (k : Nat) (byOwner : Bool) :
    Placed (q.cancel k byOwner) := by
  rw [cancel_eq]
  split
  · exact (h.mark k).remove k
  · exact h.mark k

theorem pop?_eq (hk : q.heap[0]? = some k) :
    q.pop? = some (k, (q.takeOut 0 k).siftDown 0) := by
  simp only [pop?, hk, takeOut]

theorem shortened_pop (hk : q.heap[0]? = some k) :
    Shortened [k] q ((q.takeOut 0 k).siftDown 0) :=
  (shortened_takeOut hk).rearranged (rearranged_siftDown _ 0)

end GreenThreads.TimerQueue

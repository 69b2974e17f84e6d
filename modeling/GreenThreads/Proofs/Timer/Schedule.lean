import GreenThreads.Proofs.Timer.Poll

/-!
# A timer queue keeps a set of timers

Timeouts are made, added, cancelled and polled for in any order, with all readings of the clock
within a quarter of the circle. Whatever the heap looks like meanwhile, a poll fires exactly the
timers that were added, have not fired, were not cancelled and are due.
-/

namespace GreenThreads

/-- A timer queue with the record of what was done to it. -/
structure Schedule where
  queue : TimerQueue
  /-- The times for which the timeouts are due, by number. -/
  times : Array Int := #[]
  added : List Nat := []
  cancelled : List Nat := []
  /-- What the polls have fired, oldest first. -/
  fired : List Nat := []

namespace Schedule

/-- The time for which the timeout with number `k` is due. -/
def due (s : Schedule) (k : Nat) : Int := s.times[k]?.getD 0

/-- Makes a timeout at the time `n` for the time `d`. -/
def create (s : Schedule) (task : TaskId) (n d : Int) (action : TimeoutAction) : Schedule :=
  { s with
    queue := (s.queue.create
      (Timeout.make task (Nanos.instant n) (Nanos.instant d) action s.queue.owner)).1
    times := s.times.push (min d (n + (2 ^ 62 - 1))) }

/-- Adds the timeout with number `k`. -/
def add (s : Schedule) (k : Nat) : Schedule :=
  { s with queue := (s.queue.insert k).toOption.getD s.queue, added := k :: s.added }

/-- Cancels the timeout with number `k`, at once or at the next poll. -/
def cancel (s : Schedule) (k : Nat) (byOwner : Bool) : Schedule :=
  { s with queue := s.queue.cancel k byOwner, cancelled := k :: s.cancelled }

/-- Polls at the time `n`. -/
def poll (s : Schedule) (n : Int) : Schedule :=
  { s with
    queue := (s.queue.poll (Nanos.instant n)).1
    fired := s.fired ++ (s.queue.poll (Nanos.instant n)).2 }

/-- What becomes of an empty queue while all readings of the clock lie between `B` and a quarter of
the circle later. A deadline lies less than half the circle after the time at which it is asked for,
and a timeout is added at most once. -/
inductive Reached (B : Int) (owner : Nat) : Schedule → Prop where
  | start : Reached B owner { queue := { owner } }
  | create {s : Schedule} (task : TaskId) {n d : Int} (action : TimeoutAction) :
      Reached B owner s → B ≤ n → n ≤ B + 2 ^ 62 → B ≤ d → d ≤ n + (2 ^ 63 - 1) →
      Reached B owner (s.create task n d action)
  | add {s : Schedule} {k : Nat} :
      Reached B owner s → k < s.queue.timeouts.size → k ∉ s.added → Reached B owner (s.add k)
  | cancel {s : Schedule} {k : Nat} (byOwner : Bool) :
      Reached B owner s → k < s.queue.timeouts.size → Reached B owner (s.cancel k byOwner)
  | poll {s : Schedule} {n : Int} :
      Reached B owner s → B ≤ n → n ≤ B + 2 ^ 62 → Reached B owner (s.poll n)

/-- The heap holds what the record says. -/
structure Sound (B : Int) (s : Schedule) : Prop where
  size : s.times.size = s.queue.timeouts.size
  owner : ∀ (k : Nat) (t : Timeout), s.queue.bare[k]? = some t → t.owner = s.queue.owner
  isCancelled : ∀ k, k < s.queue.timeouts.size → (s.queue.isCancelled k = true ↔ k ∈ s.cancelled)
  timed : TimerQueue.Timed B s.due s.queue
  placed : s.queue.Placed
  ordered : TimerQueue.Ordered s.due s.queue.heap
  added_lt : ∀ k ∈ s.added, k < s.queue.timeouts.size
  cancelled_lt : ∀ k ∈ s.cancelled, k < s.queue.timeouts.size
  heap_added : ∀ k ∈ s.queue.heap, k ∈ s.added ∧ k ∉ s.fired
  /-- Whatever may still fire is in the heap. -/
  pending : ∀ k ∈ s.added, k ∉ s.fired → k ∉ s.cancelled → k ∈ s.queue.heap
  fired_added : ∀ k ∈ s.fired, k ∈ s.added
  fired_nodup : s.fired.Nodup
  removals : ∀ k ∈ s.queue.removals, k ∈ s.cancelled

variable {B n d : Int} {owner k : Nat} {s : Schedule}

/-! ## One operation -/

theorem sound_start (B : Int) (owner : Nat) : Sound B { queue := { owner } } where
  size := rfl
  owner := by simp [TimerQueue.bare]
  isCancelled := by simp
  timed := ⟨by simp [TimerQueue.bare], by simp⟩
  placed := by intro i k hi; simp at hi
  ordered := by intro p c _ a b ha; simp at ha
  added_lt := by simp
  cancelled_lt := by simp
  heap_added := by simp
  pending := by simp
  fired_added := by simp
  fired_nodup := .nil
  removals := by simp

theorem due_create_of_lt (task : TaskId) (action : TimeoutAction) (hk : k < s.times.size) :
    (s.create task n d action).due k = s.due k := by
  simp only [due, create, Array.getElem?_push_lt hk, Array.getElem?_eq_getElem hk]

theorem due_create_size (s : Schedule) (task : TaskId) (action : TimeoutAction) :
    (s.create task n d action).due s.times.size = min d (n + (2 ^ 62 - 1)) := by
  simp only [due, create, Array.getElem?_push_size, Option.getD_some]

/-- A timeout whose deadline is pulled in to half the circle after `B`. -/
theorem Sound.create (h : Sound B s) (task : TaskId) (action : TimeoutAction) (hn : B ≤ n)
    (hd : B ≤ d) (hl : n ≤ d + 2 ^ 63) (hu : d < n + 2 ^ 63)
    (hlast : min d (n + (2 ^ 62 - 1)) < B + 2 ^ 63) : Sound B (s.create task n d action) := by
  have hsize : (s.create task n d action).queue.timeouts.size = s.queue.timeouts.size + 1 :=
    TimerQueue.size_create _ _
  have hdue := due_create_size (n := n) (d := d) s task action
  rw [h.size] at hdue
  have hkey : ∀ k, k < s.queue.timeouts.size → (s.create task n d action).due k = s.due k :=
    fun k hk => due_create_of_lt task action (by rw [h.size]; exact hk)
  exact
    { size := by
        rw [hsize, ← h.size]
        exact Array.size_push _
      owner := by
        intro k t ht
        obtain ⟨-, hold⟩ | ⟨-, rfl⟩ := TimerQueue.bare_create_cases ht
        · exact h.owner k t hold
        · rfl
      isCancelled := by
        intro k hk
        by_cases hlt : k < s.queue.timeouts.size
        · rw [TimerQueue.isCancelled, Schedule.create, TimerQueue.getElem?_bare_create _ hlt]
          exact h.isCancelled k hlt
        · have hlast : k = s.queue.timeouts.size := by omega
          subst hlast
          rw [TimerQueue.isCancelled, Schedule.create, TimerQueue.getElem?_bare_create_new]
          have hnot : s.queue.timeouts.size ∉ s.cancelled := fun hc =>
            absurd (h.cancelled_lt _ hc) (Nat.lt_irrefl _)
          exact iff_of_false (by simp [Timeout.make]) hnot
      timed := by
        refine ⟨?_, ?_⟩
        · intro k t ht
          obtain ⟨hlt, hold⟩ | ⟨rfl, rfl⟩ := TimerQueue.bare_create_cases ht
          · rw [hkey k hlt]
            exact h.timed.deadline k t hold
          · rw [hdue]
            exact Nanos.normalize_instant (by omega) (by omega)
        · intro k hk
          by_cases hlt : k < s.queue.timeouts.size
          · rw [hkey k hlt]
            exact h.timed.window k hlt
          · have hlast : k = s.queue.timeouts.size := by omega
            rw [hlast, hdue]
            omega
      placed := by
        intro i k hi
        have hslot := h.placed i k hi
        have hk := TimerQueue.lt_size_of_slotOf? hslot
        rw [← hslot]
        simp only [TimerQueue.slotOf?, Schedule.create, TimerQueue.create,
          Array.getElem?_push_lt hk, Array.getElem?_eq_getElem hk]
      ordered := by
        intro p c hpc a b ha hb
        rw [hkey a (h.placed.lt_size ha), hkey b (h.placed.lt_size hb)]
        exact h.ordered p c hpc a b ha hb
      added_lt := fun k hk => by rw [hsize]; exact Nat.lt_succ_of_lt (h.added_lt k hk)
      cancelled_lt := fun k hk => by rw [hsize]; exact Nat.lt_succ_of_lt (h.cancelled_lt k hk)
      heap_added := h.heap_added
      pending := h.pending
      fired_added := h.fired_added
      fired_nodup := h.fired_nodup
      removals := h.removals }

/-- An addition always succeeds: every timeout was made for this queue. -/
theorem Sound.insert_eq (h : Sound B s) (hk : k < s.queue.timeouts.size) :
    s.queue.insert k =
      .ok (({ s.queue with heap := s.queue.heap.push k }.settle s.queue.heap.size).siftUp
        s.queue.heap.size) := by
  have ht := Array.getElem?_eq_getElem hk
  refine TimerQueue.insert_of_owner ht ?_
  have hbare : s.queue.bare[k]? = some { s.queue.timeouts[k] with slot := none } := by
    rw [TimerQueue.bare, Array.getElem?_map, ht, Option.map_some]
  have howner := h.owner k _ hbare
  exact howner

theorem Sound.queue_add (h : Sound B s) (hk : k < s.queue.timeouts.size) :
    (s.add k).queue =
      ({ s.queue with heap := s.queue.heap.push k }.settle s.queue.heap.size).siftUp
        s.queue.heap.size := by
  simp only [Schedule.add, h.insert_eq hk, Except.toOption, Option.getD_some]

theorem Sound.mem_heap_add (h : Sound B s) (hk : k < s.queue.timeouts.size) (j : Nat) :
    j ∈ (s.add k).queue.heap ↔ j ∈ s.queue.heap ∨ j = k := by
  have hshift := TimerQueue.rearranged_insert s.queue k
  rw [h.queue_add hk, ← Array.mem_toList_iff, hshift.heap.mem_iff, Array.mem_toList_iff,
    Array.mem_push]

theorem Sound.add (h : Sound B s) (hk : k < s.queue.timeouts.size) (hnew : k ∉ s.added) :
    Sound B (s.add k) := by
  have hout : k ∉ s.queue.heap := fun hc => hnew (h.heap_added k hc).1
  have hshift := TimerQueue.rearranged_insert s.queue k
  have hqueue := h.queue_add hk
  have hmem := h.mem_heap_add hk
  have hbare : (s.add k).queue.bare = s.queue.bare := by rw [hqueue]; exact hshift.bare
  have hsize : (s.add k).queue.timeouts.size = s.queue.timeouts.size := by
    rw [← TimerQueue.size_bare, hbare, TimerQueue.size_bare]
  exact
    { size := by rw [hsize]; exact h.size
      owner := by
        intro j t ht
        rw [hbare] at ht
        rw [hqueue, hshift.owner]
        exact h.owner j t ht
      isCancelled := by
        intro j hj
        rw [TimerQueue.isCancelled_of_bare hbare]
        exact h.isCancelled j (by rw [← hsize]; exact hj)
      timed := h.timed.of_bare hbare
      placed := by rw [hqueue]; exact (h.placed.push hk hout).siftUp _
      ordered := by rw [hqueue]; exact h.ordered.insert h.timed h.placed hk hout
      added_lt := by
        intro j hj
        rw [hsize]
        rcases List.mem_cons.mp hj with rfl | hj
        · exact hk
        · exact h.added_lt j hj
      cancelled_lt := fun j hj => by rw [hsize]; exact h.cancelled_lt j hj
      heap_added := by
        intro j hj
        rcases (hmem j).mp hj with hj | rfl
        · exact ⟨List.mem_cons_of_mem _ (h.heap_added j hj).1, (h.heap_added j hj).2⟩
        · exact ⟨List.mem_cons_self, fun hc => hnew (h.fired_added j hc)⟩
      pending := by
        intro j hj hfired hcancelled
        rw [hmem]
        rcases List.mem_cons.mp hj with rfl | hj
        · exact .inr rfl
        · exact .inl (h.pending j hj hfired hcancelled)
      fired_added := fun j hj => List.mem_cons_of_mem _ (h.fired_added j hj)
      fired_nodup := h.fired_nodup
      removals := by
        rw [hqueue, hshift.removals]
        exact h.removals }

theorem Sound.mark (h : Sound B s) (hk : k < s.queue.timeouts.size) :
    Sound B { s with queue := s.queue.mark k, cancelled := k :: s.cancelled } where
  size := by rw [TimerQueue.size_mark]; exact h.size
  owner := by
    intro j t ht
    rw [TimerQueue.getElem?_bare_mark] at ht
    split at ht
    · obtain ⟨t', ht', rfl⟩ := Option.map_eq_some_iff.mp ht
      have howner := h.owner j t' ht'
      exact howner
    · exact h.owner j t ht
  isCancelled := by
    intro j hj
    rw [TimerQueue.size_mark] at hj
    rw [TimerQueue.isCancelled, TimerQueue.getElem?_bare_mark, List.mem_cons]
    split
    · next hkj =>
        rw [← TimerQueue.size_bare] at hj
        simp [hkj, Array.getElem?_eq_getElem hj]
    · next hkj =>
        have hold := h.isCancelled j hj
        rw [TimerQueue.isCancelled] at hold
        rw [hold]
        exact ⟨.inr, fun hc => hc.resolve_left (Ne.symm hkj)⟩
  timed := by
    refine ⟨?_, ?_⟩
    · intro j t ht
      rw [TimerQueue.getElem?_bare_mark] at ht
      split at ht
      · obtain ⟨t', ht', rfl⟩ := Option.map_eq_some_iff.mp ht
        have hdeadline := h.timed.deadline j t' ht'
        exact hdeadline
      · exact h.timed.deadline j t ht
    · intro j hj
      rw [TimerQueue.size_mark] at hj
      exact h.timed.window j hj
  placed := h.placed.mark k
  ordered := h.ordered
  added_lt := fun j hj => by rw [TimerQueue.size_mark]; exact h.added_lt j hj
  cancelled_lt := by
    intro j hj
    rw [TimerQueue.size_mark]
    rcases List.mem_cons.mp hj with rfl | hj
    · exact hk
    · exact h.cancelled_lt j hj
  heap_added := h.heap_added
  pending := by
    intro j hj hfired hcancelled
    exact h.pending j hj hfired fun hc => hcancelled (List.mem_cons_of_mem _ hc)
  fired_added := h.fired_added
  fired_nodup := h.fired_nodup
  removals := fun j hj => List.mem_cons_of_mem _ (h.removals j hj)

theorem Sound.remove (h : Sound B s) (hk : k ∈ s.cancelled) :
    Sound B { s with queue := s.queue.remove k } := by
  obtain ⟨ks, hshort, hks⟩ := TimerQueue.shortened_remove s.queue k
  have hsize : (s.queue.remove k).timeouts.size = s.queue.timeouts.size := by
    rw [← TimerQueue.size_bare, hshort.bare, TimerQueue.size_bare]
  have hheap := hshort.mem_heap h.placed
  exact
    { size := by rw [hsize]; exact h.size
      owner := by rw [hshort.bare, hshort.owner]; exact h.owner
      isCancelled := by
        intro j hj
        rw [hsize] at hj
        rw [TimerQueue.isCancelled_of_bare hshort.bare]
        exact h.isCancelled j hj
      timed := h.timed.of_bare hshort.bare
      placed := h.placed.remove k
      ordered := h.ordered.remove h.timed h.placed k
      added_lt := by rw [hsize]; exact h.added_lt
      cancelled_lt := by rw [hsize]; exact h.cancelled_lt
      heap_added := fun j hj => h.heap_added j ((hheap j).mp hj).1
      pending := by
        intro j hj hfired hcancelled
        rw [hheap]
        refine ⟨h.pending j hj hfired hcancelled, ?_⟩
        intro hout
        rw [hks j hout] at hcancelled
        exact hcancelled hk
      fired_added := h.fired_added
      fired_nodup := h.fired_nodup
      removals := by rw [hshort.removals]; exact h.removals }

theorem Sound.cancel (h : Sound B s) (hk : k < s.queue.timeouts.size) (byOwner : Bool) :
    Sound B (s.cancel k byOwner) := by
  rw [Schedule.cancel, TimerQueue.cancel_eq]
  cases byOwner with
  | true => exact (h.mark hk).remove List.mem_cons_self
  | false =>
      have hmarked := h.mark hk
      exact
        { hmarked with
          timed := hmarked.timed.of_bare rfl
          removals := by
            intro j hj
            rcases List.mem_append.mp hj with hj | hj
            · exact hmarked.removals j hj
            · rw [List.mem_singleton.mp hj]
              exact List.mem_cons_self }

/-! ## Polls -/

/-- What a poll of a schedule does to its heap: it loses `ls`, whose removal was asked for, and
`ks`, which are due. -/
structure Polled (s : Schedule) (n : Int) (ls ks : List Nat) (q : TimerQueue) (fired : List Nat) :
    Prop where
  removed : ∀ k ∈ ls, k ∈ s.cancelled
  mem_heap : ∀ k, k ∈ s.queue.heap ↔ k ∈ ls ∨ k ∈ ks ∨ k ∈ q.heap
  nodup : (ls ++ ks ++ q.heap.toList).Nodup
  fired_eq : fired = ks.filter fun k => !s.queue.isCancelled k
  drained : TimerQueue.Drained s.due n ks q
  owner : q.owner = s.queue.owner
  bare : q.bare = s.queue.bare
  removals : q.removals = []
  placed : q.Placed

theorem Sound.polled_of_lt (h : Sound B s) (hn : B ≤ n) (hn' : n < B + 2 ^ 63) :
    ∃ ls ks, Polled s n ls ks (s.queue.poll (Nanos.instant n)).1
      (s.queue.poll (Nanos.instant n)).2 := by
  obtain ⟨ls, ks, hsub, hperm, howner, hbare, hremovals, hfilter, hrest⟩ :=
    TimerQueue.poll_spec s.queue (Nanos.instant n)
  obtain ⟨hplaced, hdrained⟩ := hrest h.placed
  refine ⟨ls, ks, fun k hk => h.removals k (hsub k hk), ?_, hperm.nodup_iff.mp h.placed.nodup,
    hfilter, hdrained rfl hn hn' h.timed h.ordered, howner, hbare, hremovals, hplaced⟩
  intro k
  have hleft : k ∈ (s.queue.poll (Nanos.instant n)).1.heap.toList ↔
      k ∈ (s.queue.poll (Nanos.instant n)).1.heap := Array.mem_toList_iff
  rw [← Array.mem_toList_iff, hperm.mem_iff, List.mem_append, List.mem_append, or_assoc, hleft]

theorem Sound.polled (h : Sound B s) (hn : B ≤ n) (hn' : n ≤ B + 2 ^ 62) :
    ∃ ls ks, Polled s n ls ks (s.queue.poll (Nanos.instant n)).1
      (s.queue.poll (Nanos.instant n)).2 := h.polled_of_lt hn (by omega)

variable {ls ks fired : List Nat} {q : TimerQueue}

theorem Polled.lt_size (hp : Polled s n ls ks q fired) (h : Sound B s) (hk : k ∈ ks) :
    k < s.queue.timeouts.size :=
  h.added_lt k (h.heap_added k ((hp.mem_heap k).mpr (.inr (.inl hk)))).1

/-- A poll fires what was added, has not fired, was not cancelled and is due. -/
theorem Polled.mem_fired (hp : Polled s n ls ks q fired) (h : Sound B s) (k : Nat) :
    k ∈ fired ↔ k ∈ s.added ∧ k ∉ s.fired ∧ k ∉ s.cancelled ∧ s.due k ≤ n := by
  rw [hp.fired_eq, List.mem_filter]
  constructor
  · rintro ⟨hk, hlive⟩
    obtain ⟨hadded, hfired⟩ := h.heap_added k ((hp.mem_heap k).mpr (.inr (.inl hk)))
    refine ⟨hadded, hfired, ?_, hp.drained.due k hk⟩
    intro hc
    rw [(h.isCancelled k (hp.lt_size h hk)).mpr hc] at hlive
    cases hlive
  · rintro ⟨hadded, hfired, hcancelled, hdue⟩
    rcases (hp.mem_heap k).mp (h.pending k hadded hfired hcancelled) with hk | hk | hk
    · exact absurd (hp.removed k hk) hcancelled
    · refine ⟨hk, ?_⟩
      have hlive := mt (h.isCancelled k (hp.lt_size h hk)).mp hcancelled
      simpa using hlive
    · have hlater := hp.drained.later k hk
      omega

theorem Polled.nodup_fired (hp : Polled s n ls ks q fired) (h : Sound B s) :
    (s.fired ++ fired).Nodup := by
  refine List.nodup_append.mpr ⟨h.fired_nodup, ?_, ?_⟩
  · rw [hp.fired_eq]
    exact (List.nodup_append.mp (List.nodup_append.mp hp.nodup).1).2.1.filter _
  · rintro a ha b hb rfl
    exact ((hp.mem_fired h a).mp hb).2.1 ha

/-- Everything that may still fire stays in the heap. -/
theorem Polled.pending (hp : Polled s n ls ks q fired) (h : Sound B s) (hk : k ∈ s.added)
    (hfired : k ∉ s.fired ++ fired) (hcancelled : k ∉ s.cancelled) : k ∈ q.heap := by
  simp only [List.mem_append, not_or] at hfired
  rcases (hp.mem_heap k).mp (h.pending k hk hfired.1 hcancelled) with hmem | hmem | hmem
  · exact absurd (hp.removed k hmem) hcancelled
  · refine absurd ?_ hfired.2
    exact (hp.mem_fired h k).mpr ⟨hk, hfired.1, hcancelled, hp.drained.due k hmem⟩
  · exact hmem

theorem Sound.poll (h : Sound B s) (hn : B ≤ n) (hn' : n < B + 2 ^ 63) : Sound B (s.poll n) := by
  obtain ⟨ls, ks, hp⟩ := h.polled_of_lt hn hn'
  have hsize : (s.poll n).queue.timeouts.size = s.queue.timeouts.size := by
    rw [← TimerQueue.size_bare, ← TimerQueue.size_bare]
    exact congrArg Array.size hp.bare
  exact
    { size := by rw [hsize]; exact h.size
      owner := by
        intro k t ht
        rw [show (s.poll n).queue.bare = s.queue.bare from hp.bare] at ht
        exact (h.owner k t ht).trans hp.owner.symm
      isCancelled := by
        intro k hk
        rw [hsize] at hk
        have hsame := TimerQueue.isCancelled_of_bare hp.bare k
        exact (iff_of_eq (congrArg (· = true) hsame)).trans (h.isCancelled k hk)
      timed := h.timed.of_bare hp.bare
      placed := hp.placed
      ordered := hp.drained.ordered
      added_lt := by rw [hsize]; exact h.added_lt
      cancelled_lt := by rw [hsize]; exact h.cancelled_lt
      heap_added := by
        intro k hk
        obtain ⟨hadded, hfired⟩ := h.heap_added k ((hp.mem_heap k).mpr (.inr (.inr hk)))
        refine ⟨hadded, ?_⟩
        intro hc
        rcases List.mem_append.mp hc with hc | hc
        · exact hfired hc
        · -- A fired timeout was taken out, and the heap has no second entry for it.
          rw [hp.fired_eq] at hc
          have hdisjoint := (List.nodup_append.mp hp.nodup).2.2
          exact hdisjoint k (List.mem_append_right _ (List.mem_filter.mp hc).1) k
            (Array.mem_toList_iff.mpr hk) rfl
      pending := fun k hk hfired hcancelled => hp.pending h hk hfired hcancelled
      fired_added := by
        intro k hk
        rcases List.mem_append.mp hk with hk | hk
        · exact h.fired_added k hk
        · exact ((hp.mem_fired h k).mp hk).1
      fired_nodup := hp.nodup_fired h
      removals := by
        intro k hk
        rw [show (s.poll n).queue.removals = [] from hp.removals] at hk
        cases hk }

/-! ## A whole run -/

theorem Reached.sound (h : Reached B owner s) : Sound B s := by
  induction h with
  | start => exact sound_start B owner
  | create task action _ hn hn' hd hd' ih =>
      exact ih.create task action hn hd (by omega) (by omega) (by omega)
  | add _ hk hnew ih => exact ih.add hk hnew
  | cancel byOwner _ hk ih => exact ih.cancel hk byOwner
  | poll _ hn hn' ih => exact ih.poll hn (by omega)

/-- A poll of a queue fires exactly the timers that were added, have not fired, were not cancelled
and are due, in the order of their times and none for a second time. What it leaves holds every
timer that may still fire, the next deadline is the least of those, and no removal is left over. -/
theorem poll_fires_due (h : Reached B owner s) (hn : B ≤ n) (hn' : n ≤ B + 2 ^ 62) :
    (∀ k, k < s.queue.timeouts.size → ∃ q, s.queue.insert k = .ok q) ∧
    (∀ k, k ∈ (s.queue.poll (Nanos.instant n)).2 ↔
      k ∈ s.added ∧ k ∉ s.fired ∧ k ∉ s.cancelled ∧ s.due k ≤ n) ∧
    (s.queue.poll (Nanos.instant n)).2.Pairwise (fun i j => s.due i ≤ s.due j) ∧
    (s.fired ++ (s.queue.poll (Nanos.instant n)).2).Nodup ∧
    (∀ k ∈ s.added, k ∉ s.fired ++ (s.queue.poll (Nanos.instant n)).2 → k ∉ s.cancelled →
      k ∈ (s.queue.poll (Nanos.instant n)).1.heap) ∧
    ((s.queue.poll (Nanos.instant n)).1.next? = none ↔
      (s.queue.poll (Nanos.instant n)).1.heap = #[]) ∧
    (∀ deadline, (s.queue.poll (Nanos.instant n)).1.next? = some deadline →
      ∃ r ∈ (s.queue.poll (Nanos.instant n)).1.heap, deadline = Nanos.instant (s.due r) ∧
        ∀ k ∈ (s.queue.poll (Nanos.instant n)).1.heap, s.due r ≤ s.due k) ∧
    (s.queue.poll (Nanos.instant n)).1.removals = [] := by
  have hsound := h.sound
  obtain ⟨ls, ks, hp⟩ := hsound.polled hn hn'
  have htimed := hsound.timed.of_bare hp.bare
  refine ⟨fun k hk => ⟨_, hsound.insert_eq hk⟩, hp.mem_fired hsound, ?_, hp.nodup_fired hsound,
    fun k hk hfired hcancelled => hp.pending hsound hk hfired hcancelled, ?_, ?_, hp.removals⟩
  · rw [hp.fired_eq]
    exact hp.drained.sorted.filter _
  · exact TimerQueue.next?_eq_none_iff hp.placed
  · intro deadline hnext
    exact hp.drained.ordered.next?_le htimed hp.placed hnext

/-- Three timers around the end of the 64 bits: the first one fires after the clock has wrapped, the
second one lies a quarter of the circle ahead, and the third one was cancelled before it was
added. -/
theorem poll_fires_due_across_wrap :
    ∃ s : Schedule, Reached (2 ^ 63 - 3) 7 s ∧ s.added = [2, 1, 0] ∧
      0 ∈ (s.queue.poll (Nanos.instant (2 ^ 63 + 3))).2 ∧
      1 ∉ (s.queue.poll (Nanos.instant (2 ^ 63 + 3))).2 ∧
      2 ∉ (s.queue.poll (Nanos.instant (2 ^ 63 + 3))).2 := by
  have h0 : Reached (2 ^ 63 - 3) 7 { queue := { owner := 7 } } := .start
  have h1 := h0.create (n := 2 ^ 63 - 3) (d := 2 ^ 63 + 2) ⟨0⟩ .resume
    (by decide) (by decide) (by decide) (by decide)
  have h2 := h1.create (n := 2 ^ 63 - 2) (d := 2 ^ 63 - 2 + (2 ^ 63 - 1)) ⟨0⟩ .resume
    (by decide) (by decide) (by decide) (by decide)
  have h3 := h2.create (n := 2 ^ 63 - 2) (d := 2 ^ 63 + 1) ⟨0⟩ .resume
    (by decide) (by decide) (by decide) (by decide)
  have h4 := h3.cancel (k := 2) false (by rw [← h3.sound.size]; decide)
  have h5 := h4.add (k := 0) (by rw [← h4.sound.size]; decide) (by decide)
  have h6 := h5.add (k := 1) (by rw [← h5.sound.size]; decide) (by decide)
  have h7 := h6.add (k := 2) (by rw [← h6.sound.size]; decide) (by decide)
  obtain ⟨-, hfired, -⟩ := poll_fires_due h7 (n := 2 ^ 63 + 3) (by decide) (by decide)
  refine ⟨_, h7, rfl, ?_, ?_, ?_⟩
  · rw [hfired]; decide
  · rw [hfired]; decide
  · rw [hfired]; decide

end Schedule

end GreenThreads

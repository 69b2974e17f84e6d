import GreenThreads.Proofs.Timer.Order

/-!
# What a poll takes out

Every operation of a timer queue keeps its heap in order. So a poll takes out exactly the timeouts
that are due, the earliest first, and leaves a heap whose root is the next one.
-/

namespace GreenThreads.TimerQueue

variable {q q' : TimerQueue} {key : Nat → Int} {B m : Int} {i k : Nat}

/-! ## The order that the operations keep -/

theorem Ordered.around_of_agree {h h' : Array Nat} (o : Ordered key h)
    (hagree : ∀ x v, x ≠ i → h'[x]? = some v → h[x]? = some v) : OrderedAround key h' i := by
  refine ⟨?_, ?_⟩
  · intro p c hpc hp hc a b ha hb
    exact o p c hpc a b (hagree p a hp ha) (hagree c b hc hb)
  · intro p c hp hc a b ha hb
    have hpi : p ≠ i := by unfold IsChild at hp; omega
    have hci : c ≠ i := by unfold IsChild at hc; omega
    exact (o.around i).across p c hp hc a b (hagree p a hpi ha) (hagree c b hci hb)

theorem Ordered.of_agree {h h' : Array Nat} (o : Ordered key h)
    (hagree : ∀ (x v : Nat), h'[x]? = some v → h[x]? = some v) : Ordered key h' := by
  intro p c hpc a b ha hb
  exact o p c hpc a b (hagree p a ha) (hagree c b hb)

theorem Ordered.dropLast (o : Ordered key q.heap) (k : Nat) : Ordered key (q.dropLast k).heap := by
  refine o.of_agree ?_
  intro x v hv
  rw [getElem?_heap_dropLast] at hv
  split at hv
  · exact hv
  · cases hv

theorem Ordered.remove (o : Ordered key q.heap) (hT : Timed B key q) (hp : Placed q) (k : Nat) :
    Ordered key (q.remove k).heap := by
  rcases remove_cases q k with heq | ⟨i, hi, heq⟩
  · rw [heq]; exact o
  · rw [heq, cutOut]
    split
    · exact o.dropLast k
    · refine OrderedAround.sift (hT.of_bare (shortened_takeOut hi).bare) (hp.takeOut hi) ?_
      exact o.around_of_agree fun x v hx hv => getElem?_heap_takeOut hi hx hv

theorem Ordered.insert (o : Ordered key q.heap) (hT : Timed B key q) (hp : Placed q)
    (hk : k < q.timeouts.size) (hnew : k ∉ q.heap) :
    Ordered key
      (({ q with heap := q.heap.push k }.settle q.heap.size).siftUp q.heap.size).heap := by
  refine UpOrder.siftUp (hT.of_bare (rearranged_settle _ _).bare) (hp.push hk hnew) ⟨?_, ?_⟩
  · refine o.around_of_agree ?_
    intro x v hx hv
    rw [heap_settle, Array.getElem?_push, if_neg hx] at hv
    exact hv
  · intro c hc a b _ hb
    rw [heap_settle] at hb
    have hlt := (Array.getElem?_eq_some_iff.mp hb).1
    simp only [Array.size_push] at hlt
    unfold IsChild at hc
    omega

theorem Ordered.pop (o : Ordered key q.heap) (hT : Timed B key q) (hp : Placed q)
    (hk : q.heap[0]? = some k) : Ordered key ((q.takeOut 0 k).siftDown 0).heap := by
  refine DownOrder.siftDown (hT.of_bare (shortened_takeOut hk).bare) (hp.takeOut hk) ⟨?_, ?_⟩
  · exact o.around_of_agree fun x v hx hv => getElem?_heap_takeOut hk hx hv
  · intro p hp0
    unfold IsChild at hp0
    omega

theorem Ordered.foldl_remove (o : Ordered key q.heap) (hT : Timed B key q) (hp : Placed q)
    (rs : List Nat) : Ordered key (rs.foldl TimerQueue.remove q).heap := by
  induction rs generalizing q with
  | nil => exact o
  | cons r rs ih =>
      obtain ⟨ks, hshort, -⟩ := shortened_remove q r
      exact ih (o.remove hT hp r) (hT.of_bare hshort.bare) (hp.remove r)

/-- The root of the heap is the earliest of its entries. -/
theorem Ordered.root_le (o : Ordered key q.heap) {r : Nat} (hr : q.heap[0]? = some r)
    (hi : q.heap[i]? = some k) : key r ≤ key k := by
  induction i using Nat.strongRecOn generalizing k with
  | ind i ih =>
      by_cases hzero : i = 0
      · subst hzero
        rw [hr] at hi
        cases hi
        exact Int.le_refl _
      · have hlt := (Array.getElem?_eq_some_iff.mp hi).1
        have hparent : q.heap[(i - 1) / 2]? = some q.heap[(i - 1) / 2] :=
          Array.getElem?_eq_getElem (by omega)
        have hchild : IsChild ((i - 1) / 2) i := by unfold IsChild; omega
        exact Int.le_trans (ih _ (by omega) hparent) (o _ _ hchild _ _ hparent hi)

theorem exists_deadlineOf? (hk : k < q.timeouts.size) : ∃ d, q.deadlineOf? k = some d :=
  ⟨_, by rw [deadlineOf?, Array.getElem?_eq_getElem hk, Option.map_some]⟩

theorem next?_eq_none_iff (hp : Placed q) : q.next? = none ↔ q.heap = #[] := by
  constructor
  · intro hnone
    cases hroot : q.heap[0]? with
    | none =>
        rw [Array.getElem?_eq_none_iff] at hroot
        exact Array.eq_empty_of_size_eq_zero (by omega)
    | some r =>
        obtain ⟨d, hd⟩ := exists_deadlineOf? (hp.lt_size hroot)
        rw [next?, hroot, Option.bind_some, hd] at hnone
        cases hnone
  · intro hempty
    rw [next?, hempty]
    rfl

theorem Ordered.next?_le (o : Ordered key q.heap) (hT : Timed B key q) (hp : Placed q) {d : Nanos}
    (hd : q.next? = some d) :
    ∃ r ∈ q.heap, d = Nanos.instant (key r) ∧ ∀ k ∈ q.heap, key r ≤ key k := by
  obtain ⟨r, hroot, hr⟩ := Option.bind_eq_some_iff.mp hd
  rw [hT.deadlineOf? (hp.lt_size hroot)] at hr
  refine ⟨r, Array.mem_of_getElem? hroot, (Option.some.inj hr).symm, ?_⟩
  intro k hk
  obtain ⟨i, hi⟩ := Array.mem_iff_getElem?.mp hk
  exact o.root_le hroot hi

/-! ## Polling -/

/-- Whether the timeout with number `k` was cancelled. -/
def isCancelled (q : TimerQueue) (k : Nat) : Bool := (q.bare[k]?.map (·.cancelled)).getD true

theorem isCancelled_eq (q : TimerQueue) (k : Nat) :
    (q.timeouts[k]?.map (·.cancelled)).getD true = q.isCancelled k := by
  simp only [isCancelled, bare, Array.getElem?_map, Option.map_map]
  rfl

theorem isCancelled_of_bare (h : q'.bare = q.bare) (k : Nat) :
    q'.isCancelled k = q.isCancelled k := by
  rw [isCancelled, h, isCancelled]

theorem popDue_of_empty (now : Nanos) (n : Nat) (hroot : q.heap[0]? = none) :
    popDue now n q = (q, []) := by
  cases n with
  | zero => rfl
  | succ n => simp only [popDue, next?, hroot, Option.bind_none]

theorem popDue_of_later {now d : Nanos} {r : Nat} (n : Nat) (hroot : q.heap[0]? = some r)
    (hd : q.deadlineOf? r = some d) (hlater : now.before d = true) :
    popDue now n q = (q, []) := by
  cases n with
  | zero => rfl
  | succ n =>
      simp only [popDue, next?, hroot, Option.bind_some, hd, pop?_eq hroot, hlater, ↓reduceIte]

theorem popDue_of_due {now d : Nanos} {r : Nat} (n : Nat) (hroot : q.heap[0]? = some r)
    (hd : q.deadlineOf? r = some d) (hdue : ¬now.before d = true) :
    popDue now (n + 1) q =
      ((popDue now n ((q.takeOut 0 r).siftDown 0)).1,
        if q.isCancelled r then (popDue now n ((q.takeOut 0 r).siftDown 0)).2
        else r :: (popDue now n ((q.takeOut 0 r).siftDown 0)).2) := by
  have hcancel := isCancelled_of_bare (shortened_pop hroot).bare
  simp only [popDue, next?, hroot, Option.bind_some, hd, pop?_eq hroot, hdue,
    Bool.false_eq_true, ↓reduceIte, isCancelled_eq, hcancel]
  split <;> rfl

/-- What a poll has taken out: in order of their times, those that are due at `m`. -/
structure Drained (key : Nat → Int) (m : Int) (ks : List Nat) (q' : TimerQueue) : Prop where
  ordered : Ordered key q'.heap
  due : ∀ k ∈ ks, key k ≤ m
  later : ∀ k ∈ q'.heap, m < key k
  sorted : ks.Pairwise fun i j => key i ≤ key j

theorem Drained.stop (o : Ordered key q.heap) (h : ∀ r, q.heap[0]? = some r → m < key r) :
    Drained key m [] q := by
  refine ⟨o, by simp, ?_, .nil⟩
  intro k hk
  obtain ⟨i, hi⟩ := Array.mem_iff_getElem?.mp hk
  have hlt := (Array.getElem?_eq_some_iff.mp hi).1
  have hroot : q.heap[0]? = some q.heap[0] := Array.getElem?_eq_getElem (by omega)
  have hmin := o.root_le hroot hi
  have hfuture := h _ hroot
  omega

theorem Drained.cons {ks : List Nat} {r : Nat} (o : Ordered key q.heap) (hp : Placed q)
    (hroot : q.heap[0]? = some r) (hdue : key r ≤ m)
    (hshort : Shortened ks ((q.takeOut 0 r).siftDown 0) q') (h : Drained key m ks q') :
    Drained key m ([r] ++ ks) q' := by
  refine ⟨h.ordered, ?_, h.later, ?_⟩
  · intro k hk
    rcases List.mem_append.mp hk with hk | hk
    · rw [List.mem_singleton.mp hk]
      exact hdue
    · exact h.due k hk
  · refine List.pairwise_append.mpr ⟨by simp, h.sorted, ?_⟩
    intro a ha b hb
    rw [List.mem_singleton.mp ha]
    have hmem := ((shortened_pop hroot).mem_heap hp b).mp (hshort.mem_of_mem hb)
    obtain ⟨i, hi⟩ := Array.mem_iff_getElem?.mp hmem.1
    exact o.root_le hroot hi

/-- The wrapped comparison tells whether a pending timeout is due. -/
theorem before_deadline {d : Nanos} (hT : Timed B key q) (hk : k < q.timeouts.size)
    (hd : q.deadlineOf? k = some d) (hl : B ≤ m) (hu : m < B + 2 ^ 63) :
    (Nanos.instant m).before d = true ↔ m < key k := by
  have hwindow := hT.window k hk
  rw [hT.deadlineOf? hk] at hd
  cases hd
  rw [Nanos.before_instant (by omega) (by omega), decide_eq_true_eq]

theorem popDue_spec (q : TimerQueue) (now : Nanos) (n : Nat) :
    ∃ ks, Shortened ks q (popDue now n q).1 ∧
      (popDue now n q).2 = ks.filter (fun k => !q.isCancelled k) ∧
      (Placed q → Placed (popDue now n q).1 ∧
        ∀ {B m : Int} {key : Nat → Int}, now = Nanos.instant m → B ≤ m → m < B + 2 ^ 63 →
          Timed B key q → Ordered key q.heap → q.heap.size ≤ n →
          Drained key m ks (popDue now n q).1) := by
  induction n generalizing q with
  | zero =>
      refine ⟨[], .refl q, rfl, fun hp => ⟨hp, ?_⟩⟩
      intro B m key _ _ _ _ o hsize
      refine .stop o ?_
      intro r hr
      have hlt : 0 < q.heap.size := (Array.getElem?_eq_some_iff.mp hr).1
      omega
  | succ n ih =>
      cases hroot : q.heap[0]? with
      | none =>
          rw [popDue_of_empty now (n + 1) hroot]
          refine ⟨[], .refl q, rfl, fun hp => ⟨hp, ?_⟩⟩
          intro B m key _ _ _ _ o _
          refine .stop o ?_
          intro r hr
          rw [hroot] at hr
          cases hr
      | some r =>
          cases hd : q.deadlineOf? r with
          | none =>
              have hstop : popDue now (n + 1) q = (q, []) := by
                simp only [popDue, next?, hroot, Option.bind_some, hd]
              rw [hstop]
              refine ⟨[], .refl q, rfl, fun hp => ?_⟩
              obtain ⟨d, hd'⟩ := exists_deadlineOf? (hp.lt_size hroot)
              rw [hd] at hd'
              cases hd'
          | some d =>
              by_cases hlater : now.before d = true
              · rw [popDue_of_later (n + 1) hroot hd hlater]
                refine ⟨[], .refl q, rfl, fun hp => ⟨hp, ?_⟩⟩
                intro B m key hnow hl hu hT o _
                refine .stop o ?_
                intro s hs
                rw [hroot] at hs
                cases hs
                rw [hnow] at hlater
                exact (before_deadline hT (hp.lt_size hroot) hd hl hu).mp hlater
              · rw [popDue_of_due n hroot hd hlater]
                have hpop := shortened_pop hroot
                obtain ⟨ks, hshort, hfilter, hrest⟩ := ih ((q.takeOut 0 r).siftDown 0)
                refine ⟨[r] ++ ks, hpop.trans hshort, ?_, fun hp => ?_⟩
                · simp only [hfilter, isCancelled_of_bare hpop.bare, List.singleton_append,
                    List.filter_cons]
                  cases q.isCancelled r <;> rfl
                · obtain ⟨hplaced, hdrained⟩ := hrest ((hp.takeOut hroot).siftDown 0)
                  refine ⟨hplaced, ?_⟩
                  intro B m key hnow hl hu hT o hsize
                  have hless := hpop.size
                  simp only [List.length_singleton] at hless
                  have hdue : key r ≤ m := by
                    rw [hnow] at hlater
                    have hpast := mt (before_deadline hT (hp.lt_size hroot) hd hl hu).mpr hlater
                    omega
                  exact .cons o hp hroot hdue hshort
                    (hdrained hnow hl hu (hT.of_bare hpop.bare) (o.pop hT hp hroot) (by omega))

/-- A poll first takes out what others asked to remove, then what is due. -/
theorem poll_spec (q : TimerQueue) (now : Nanos) :
    ∃ ls ks, (∀ k ∈ ls, k ∈ q.removals) ∧
      q.heap.toList.Perm (ls ++ ks ++ (q.poll now).1.heap.toList) ∧
      (q.poll now).1.owner = q.owner ∧ (q.poll now).1.bare = q.bare ∧
      (q.poll now).1.removals = [] ∧
      (q.poll now).2 = ks.filter (fun k => !q.isCancelled k) ∧
      (Placed q → Placed (q.poll now).1 ∧
        ∀ {B m : Int} {key : Nat → Int}, now = Nanos.instant m → B ≤ m → m < B + 2 ^ 63 →
          Timed B key q → Ordered key q.heap → Drained key m ks (q.poll now).1) := by
  obtain ⟨ls, hls, hsub⟩ := shortened_foldl_remove q q.removals
  obtain ⟨ks, hks, hfilter, hrest⟩ := popDue_spec q.drainRemovals now q.drainRemovals.heap.size
  have hbare : q.drainRemovals.bare = q.bare := hls.bare
  refine ⟨ls, ks, hsub, ?_, hks.owner.trans hls.owner, hks.bare.trans hbare, hks.removals, ?_, ?_⟩
  · rw [List.append_assoc]
    exact hls.heap.trans (hks.heap.append_left ls)
  · rw [poll, hfilter]
    simp only [isCancelled_of_bare hbare]
  · intro hp
    obtain ⟨hplaced, hdrained⟩ := hrest (hp.foldl_remove q.removals)
    refine ⟨hplaced, ?_⟩
    intro B m key hnow hl hu hT o
    exact hdrained hnow hl hu (hT.of_bare hbare) (o.foldl_remove hT hp q.removals) (Nat.le_refl _)

end GreenThreads.TimerQueue

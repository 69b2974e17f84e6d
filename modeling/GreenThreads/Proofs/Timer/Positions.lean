import GreenThreads.Proofs.Timer.Poll
import Mathlib.Algebra.GroupWithZero.Nat

/-!
# Positions in a timer heap

The entries of a heap store their positions. A timeout stores a position exactly as long as it has
one, through every exchange, insertion, removal and poll, whatever the deadlines are. So a removal
finds the entry that it is asked for, and the sifts never look outside of the heap. The order of the
heap needs more: the deadlines have to lie within half the circle.
-/

namespace GreenThreads

namespace TimerQueue

variable {q q' : TimerQueue} {i j k n : Nat} {now : Nanos}

/-- A timeout stores the position that it has in the heap, and none if it is not there. -/
def Indexed (q : TimerQueue) : Prop := ∀ i k, q.slotOf? k = some i ↔ q.heap[i]? = some k

theorem Indexed.placed (h : Indexed q) : Placed q := fun i k hi => (h i k).mpr hi

/-- What every position knows, and no timeout believes more. -/
theorem Placed.indexed (h : Placed q) (hstored : ∀ i k, q.slotOf? k = some i → q.heap[i]? = some k) :
    Indexed q := fun i k => ⟨hstored i k, h i k⟩

theorem Indexed.slotOf?_eq_none (h : Indexed q) (hk : k ∉ q.heap) : q.slotOf? k = none := by
  cases hslot : q.slotOf? k with
  | none => rfl
  | some i => exact absurd (Array.mem_of_getElem? ((h i k).mp hslot)) hk

/-! ## Exchanges -/

theorem Indexed.swap (h : Indexed q) (hi : i < q.heap.size) (hj : j < q.heap.size) :
    Indexed (q.swap i j) := by
  refine (h.placed.swap hi hj).indexed ?_
  intro x k hslot
  rw [slotOf?_swap] at hslot
  split at hslot
  · next hc => cases hslot; exact hc.1
  · next hout =>
      split at hslot
      · next hc => cases hslot; exact hc.1
      · next hout' =>
          have hx := (h x k).mp hslot
          have hk := h.placed.lt_size hx
          have hmoved := getElem?_heap_swap hi hj
          -- Had the entry been exchanged, one of the two positions would hold it now.
          have hxi : i ≠ x := by
            rintro rfl
            exact hout ⟨by rw [hmoved, if_pos rfl]; exact hx, hk⟩
          have hxj : j ≠ x := by
            rintro rfl
            refine hout' ⟨?_, hk⟩
            rw [hmoved, if_neg hxi.symm, if_pos rfl]
            exact hx
          rw [hmoved, if_neg hxj, if_neg hxi]
          exact hx

/-- Whatever the exchanges within the heap keep, sifting up keeps. -/
theorem siftUp_keeps {P : TimerQueue → Prop}
    (hswap : ∀ q i j, P q → i < q.heap.size → j < q.heap.size → P (q.swap i j)) (h : P q)
    (i : Nat) : P (q.siftUp i) := by
  induction q, i using siftUp.induct with
  | case1 q i hup ih =>
      rw [siftUp, if_pos hup]
      exact ih (hswap q _ _ h (lt_size_of_dueBefore hup.2) (lt_size_of_dueBefore_right hup.2))
  | case2 q i hstop =>
      rw [siftUp, if_neg hstop]
      exact h

/-- Whatever the exchanges within the heap keep, sifting down keeps. -/
theorem siftDown_keeps {P : TimerQueue → Prop}
    (hswap : ∀ q i j, P q → i < q.heap.size → j < q.heap.size → P (q.swap i j)) (h : P q)
    (i : Nat) : P (q.siftDown i) := by
  induction q, i using siftDown.induct with
  | case1 q i hdown ih =>
      rw [siftDown, dif_pos hdown]
      exact ih (hswap q _ _ h (lt_size_of_dueBefore_right hdown) (lt_size_of_dueBefore hdown))
  | case2 q i hstop =>
      rw [siftDown, dif_neg hstop]
      exact h

theorem Indexed.siftUp (h : Indexed q) (i : Nat) : Indexed (q.siftUp i) :=
  siftUp_keeps (fun _ _ _ h hi hj => h.swap hi hj) h i

theorem Indexed.siftDown (h : Indexed q) (i : Nat) : Indexed (q.siftDown i) :=
  siftDown_keeps (fun _ _ _ h hi hj => h.swap hi hj) h i

/-! ## Insertion and removal -/

theorem Indexed.push (h : Indexed q) (hk : k < q.timeouts.size) (hnew : k ∉ q.heap) :
    Indexed ({ q with heap := q.heap.push k }.settle q.heap.size) := by
  refine (h.placed.push hk hnew).indexed ?_
  intro i j hslot
  rw [slotOf?_settle] at hslot
  rw [heap_settle]
  split at hslot
  · next hc => cases hslot; exact hc.1
  · have hi := (h i j).mp hslot
    have hlt := (Array.getElem?_eq_some_iff.mp hi).1
    rw [Array.getElem?_push_lt hlt, ← hi, Array.getElem?_eq_getElem hlt]

theorem Indexed.dropLast (h : Indexed q) (hk : q.heap[q.heap.size - 1]? = some k) :
    Indexed (q.dropLast k) := by
  refine (h.placed.dropLast hk).indexed ?_
  intro i j hslot
  rw [TimerQueue.dropLast, slotOf?_setSlot] at hslot
  split at hslot
  · cases hslot
  · next hother =>
      have hi := (h i j).mp hslot
      have hlt := (Array.getElem?_eq_some_iff.mp hi).1
      have hne : i ≠ q.heap.size - 1 := by
        rintro rfl
        rw [hk] at hi
        cases hi
        exact hother ⟨rfl, h.placed.lt_size hk⟩
      rw [getElem?_heap_dropLast, if_pos (by omega)]
      exact hi

theorem Indexed.takeOut (h : Indexed q) (hi : q.heap[i]? = some k) : Indexed (q.takeOut i k) := by
  have hlt := (Array.getElem?_eq_some_iff.mp hi).1
  exact (h.swap hlt (by omega)).dropLast (last_swap hi)

theorem Indexed.cutOut (h : Indexed q) (hi : q.heap[i]? = some k) : Indexed (q.cutOut i k) := by
  unfold TimerQueue.cutOut
  split
  · next hlast => exact h.dropLast (by rw [← hlast]; exact hi)
  · exact ((h.takeOut hi).siftDown i).siftUp i

theorem Indexed.remove (h : Indexed q) (k : Nat) : Indexed (q.remove k) := by
  rcases remove_cases q k with heq | ⟨i, hi, heq⟩
  · rw [heq]; exact h
  · rw [heq]; exact h.cutOut hi

/-- A timeout that is there is taken out, and nothing else. -/
theorem Indexed.shortened_remove (h : Indexed q) (hk : k ∈ q.heap) :
    Shortened [k] q (q.remove k) := by
  obtain ⟨i, hi⟩ := Array.mem_iff_getElem?.mp hk
  rw [remove_of_slotOf? ((h i k).mpr hi) hi]
  exact shortened_cutOut hi

/-- Without the timeout there is nothing to take out. -/
theorem Indexed.remove_eq_self (h : Indexed q) (hk : k ∉ q.heap) : q.remove k = q := by
  have hslot := h.slotOf?_eq_none hk
  rw [slotOf?] at hslot
  simp only [TimerQueue.remove, hslot]

theorem Indexed.foldl_remove (h : Indexed q) (rs : List Nat) :
    Indexed (rs.foldl TimerQueue.remove q) := by
  induction rs generalizing q with
  | nil => exact h
  | cons r rs ih => exact ih (h.remove r)

theorem Indexed.create (h : Indexed q) {x : Timeout} (hx : x.slot = none) :
    Indexed (q.create x).1 := by
  have hnew : ∀ k, (q.create x).1.slotOf? k = q.slotOf? k := by
    intro k
    simp only [slotOf?, TimerQueue.create, Array.getElem?_push]
    split
    · next hk => simp only [hk, Option.bind_some, hx, Array.getElem?_size, Option.bind_none]
    · rfl
  intro i k
  rw [hnew]
  exact h i k

theorem Indexed.mark (h : Indexed q) (k : Nat) : Indexed (q.mark k) := by
  intro i j
  rw [slotOf?_mark]
  exact h i j

theorem Indexed.cancel (h : Indexed q) (k : Nat) (byOwner : Bool) :
    Indexed (q.cancel k byOwner) := by
  rw [cancel_eq]
  split
  · exact (h.mark k).remove k
  · exact h.mark k

/-! ## Polls -/

/-- What is kept when the root is taken out is kept by a loop that does nothing else. -/
theorem popDue_keeps {P : TimerQueue → Prop}
    (hpop : ∀ q r, P q → q.heap[0]? = some r → P ((q.takeOut 0 r).siftDown 0)) (now : Nanos) (n : Nat)
    (h : P q) : P (popDue now n q).1 := by
  induction n generalizing q with
  | zero => exact h
  | succ n ih =>
      cases hroot : q.heap[0]? with
      | none =>
          rw [popDue_of_empty now (n + 1) hroot]
          exact h
      | some r =>
          cases hd : q.deadlineOf? r with
          | none =>
              have hstop : popDue now (n + 1) q = (q, []) := by
                simp only [popDue, next?, hroot, Option.bind_some, hd]
              rw [hstop]
              exact h
          | some d =>
              by_cases hlater : now.before d = true
              · rw [popDue_of_later (n + 1) hroot hd hlater]
                exact h
              · rw [popDue_of_due n hroot hd hlater]
                exact ih (hpop q r h hroot)

theorem Indexed.poll (h : Indexed q) (now : Nanos) : Indexed (q.poll now).1 :=
  popDue_keeps (P := Indexed) (fun _ _ h hr => (h.takeOut hr).siftDown 0) now _
    (h.foldl_remove q.removals)

/-- A poll keeps the heap in order, whenever it is. -/
theorem Ordered.poll {key : Nat → Int} {B : Int} (o : Ordered key q.heap) (hT : Timed B key q)
    (hp : Placed q) (now : Nanos) : Ordered key (q.poll now).1.heap := by
  obtain ⟨ls, hls, -⟩ := shortened_foldl_remove q q.removals
  have hdrained : Ordered key q.drainRemovals.heap ∧ Timed B key q.drainRemovals ∧
      Placed q.drainRemovals :=
    ⟨o.foldl_remove hT hp q.removals, hT.of_bare hls.bare, hp.foldl_remove q.removals⟩
  refine (popDue_keeps (P := fun q => Ordered key q.heap ∧ Timed B key q ∧ Placed q) ?_ now _
    hdrained).1
  rintro q r ⟨ho, hT, hp⟩ hr
  exact ⟨ho.pop hT hp hr, hT.of_bare (shortened_pop hr).bare, (hp.takeOut hr).siftDown 0⟩

/-! ## Sifts that are checked -/

/-- Compares two positions, both of which have to be in the heap. -/
def compare? (q : TimerQueue) (i j : Nat) : Option Bool := do
  let a ← q.heap[i]?.bind q.deadlineOf?
  let b ← q.heap[j]?.bind q.deadlineOf?
  return a.before b

/-- Exchanges two positions, both of which have to be in the heap. -/
def swap? (q : TimerQueue) (i j : Nat) : Option TimerQueue :=
  if i < q.heap.size ∧ j < q.heap.size then some (q.swap i j) else none

/-- The loop that sifts up. It gives nothing if it looks outside of the heap, or takes more than `n`
turns. -/
def siftUp? : Nat → TimerQueue → Nat → Option TimerQueue
  | 0, _, _ => none
  | n + 1, q, i =>
    if i = 0 then some q
    else do
      if ← q.compare? i ((i - 1) / 2) then siftUp? n (← q.swap? i ((i - 1) / 2)) ((i - 1) / 2)
      else return q

/-- The child that is due first. The right one is only looked at if it is there. -/
def firstChild? (q : TimerQueue) (i : Nat) : Option Nat :=
  if 2 * i + 2 < q.heap.size then do
    return if ← q.compare? (2 * i + 2) (2 * i + 1) then 2 * i + 2 else 2 * i + 1
  else some (2 * i + 1)

/-- The loop that sifts down. It gives nothing if it looks outside of the heap, or takes more than
`n` turns. -/
def siftDown? : Nat → TimerQueue → Nat → Option TimerQueue
  | 0, _, _ => none
  | n + 1, q, i =>
    if q.heap.size ≤ 2 * i + 1 then some q
    else do
      let c ← q.firstChild? i
      if ← q.compare? c i then siftDown? n (← q.swap? i c) c else return q

theorem compare?_eq (hp : Placed q) (hi : i < q.heap.size) (hj : j < q.heap.size) :
    q.compare? i j = some (q.dueBefore i j) := by
  have ha := Array.getElem?_eq_getElem hi
  have hb := Array.getElem?_eq_getElem hj
  obtain ⟨d, hd⟩ := exists_deadlineOf? (hp.lt_size ha)
  obtain ⟨d', hd'⟩ := exists_deadlineOf? (hp.lt_size hb)
  simp only [compare?, dueBefore, ha, hb, Option.bind_some, hd, hd', Option.bind_eq_bind,
    Option.pure_def]

theorem swap?_eq (hi : i < q.heap.size) (hj : j < q.heap.size) :
    q.swap? i j = some (q.swap i j) := if_pos ⟨hi, hj⟩

/-- Sifting up from a position of the heap ends after as many turns as there are levels above it,
and looks at positions of the heap only. -/
theorem siftUp?_eq (hp : Placed q) (hi : i < q.heap.size) (hn : i + 1 < 2 ^ n) :
    q.siftUp? n i = some (q.siftUp i) := by
  induction n generalizing q i with
  | zero => omega
  | succ n ih =>
      rw [Nat.pow_succ] at hn
      by_cases hzero : i = 0
      · subst hzero
        rw [siftUp?, if_pos rfl, siftUp, if_neg fun h => Nat.lt_irrefl 0 h.1]
      · have hparent : (i - 1) / 2 < q.heap.size := by omega
        have hcompare := compare?_eq hp hi hparent
        rw [siftUp?, if_neg hzero]
        cases hdue : q.dueBefore i ((i - 1) / 2) with
        | true =>
            have hsize := (rearranged_swap q i ((i - 1) / 2)).size
            have hrest := ih (hp.swap hi hparent) (i := (i - 1) / 2) (by omega) (by omega)
            rw [siftUp, if_pos ⟨by omega, hdue⟩]
            simp only [hcompare, hdue, swap?_eq hi hparent, Option.bind_eq_bind, Option.bind_some,
              ↓reduceIte, hrest]
        | false =>
            rw [siftUp, if_neg (by simp [hdue])]
            simp only [hcompare, hdue, Option.bind_eq_bind, Option.bind_some, Bool.false_eq_true,
              ↓reduceIte, Option.pure_def]

theorem firstChild?_eq (hp : Placed q) (hi : 2 * i + 1 < q.heap.size) :
    q.firstChild? i = some (q.firstChild i) := by
  unfold firstChild? firstChild
  split
  · next hright =>
      simp only [compare?_eq hp hright hi, Option.bind_eq_bind, Option.bind_some, Option.pure_def]
  · next hright =>
      rw [if_neg fun hdue => hright (lt_size_of_dueBefore hdue)]

/-- Sifting down from a position of the heap ends after as many turns as there are levels below it,
and looks at positions of the heap only. -/
theorem siftDown?_eq (hp : Placed q) (hi : i < q.heap.size) (hn : q.heap.size < (i + 1) * 2 ^ n) :
    q.siftDown? n i = some (q.siftDown i) := by
  induction n generalizing q i with
  | zero => omega
  | succ n ih =>
      by_cases hleaf : q.heap.size ≤ 2 * i + 1
      · have hstop : ¬ q.dueBefore (q.firstChild i) i = true := by
          intro hdue
          have hlt := lt_size_of_dueBefore hdue
          have hchild := isChild_firstChild q i
          unfold IsChild at hchild
          omega
        rw [siftDown?, if_pos hleaf, siftDown, dif_neg hstop]
      · have hfirst := firstChild?_eq hp (Nat.lt_of_not_le hleaf)
        rw [siftDown?, if_neg hleaf]
        have hc : q.firstChild i < q.heap.size := by
          unfold firstChild
          split
          · next hdue => exact lt_size_of_dueBefore hdue
          · omega
        have hcompare := compare?_eq hp hc hi
        cases hdue : q.dueBefore (q.firstChild i) i with
        | true =>
            have hsize := (rearranged_swap q i (q.firstChild i)).size
            have hdeep : (2 * (i + 1)) * 2 ^ n ≤ (q.firstChild i + 1) * 2 ^ n := by
              refine Nat.mul_le_mul_right _ ?_
              have hchild := isChild_firstChild q i
              unfold IsChild at hchild
              omega
            have hpow : (i + 1) * 2 ^ (n + 1) = (2 * (i + 1)) * 2 ^ n := by
              rw [Nat.pow_succ, Nat.mul_comm (2 ^ n) 2, ← Nat.mul_assoc, Nat.mul_comm (i + 1) 2]
            have hrest := ih (hp.swap hi hc) (i := q.firstChild i) (by omega) (by omega)
            rw [siftDown, dif_pos hdue]
            simp only [hfirst, hcompare, hdue, swap?_eq hi hc, Option.bind_eq_bind,
              Option.bind_some, ↓reduceIte, hrest]
        | false =>
            rw [siftDown, dif_neg (by simp [hdue])]
            simp only [hfirst, hcompare, hdue, Option.bind_eq_bind, Option.bind_some,
              Bool.false_eq_true, ↓reduceIte, Option.pure_def]

/-! ## Operations that are checked -/

/-- The number of turns that are enough for a sift. -/
def turns (q : TimerQueue) : Nat := q.heap.size.log2 + 1

theorem siftUp?_turns (hp : Placed q) (hi : i < q.heap.size) :
    q.siftUp? q.turns i = some (q.siftUp i) :=
  siftUp?_eq hp hi (Nat.lt_of_le_of_lt hi Nat.lt_log2_self)

theorem siftDown?_turns (hp : Placed q) (hi : i < q.heap.size) :
    q.siftDown? q.turns i = some (q.siftDown i) :=
  siftDown?_eq hp hi
    (Nat.lt_of_lt_of_le Nat.lt_log2_self (Nat.le_mul_of_pos_left _ (Nat.succ_pos i)))

/-- An insertion with a checked sift. -/
def insert? (q : TimerQueue) (k : Nat) : Option TimerQueue :=
  let p := { q with heap := q.heap.push k }.settle q.heap.size
  p.siftUp? p.turns q.heap.size

/-- A removal with checked exchanges and sifts. -/
def remove? (q : TimerQueue) (k : Nat) : Option TimerQueue :=
  match q.slotOf? k with
  | none => some q
  | some i =>
    if q.heap[i]? = some k then do
      let p ← if i = q.heap.size - 1 then some q else q.swap? i (q.heap.size - 1)
      let p := p.dropLast k
      if i < p.heap.size then do
        let p ← p.siftDown? p.turns i
        p.siftUp? p.turns i
      else return p
    else some q

/-- Takes out the root with a checked exchange and a checked sift. -/
def popRoot? (q : TimerQueue) (r : Nat) : Option TimerQueue := do
  let p ← q.swap? 0 (q.heap.size - 1)
  let p := p.dropLast r
  if p.heap.size = 0 then return p else p.siftDown? p.turns 0

/-- Takes out what is due, with checked exchanges and sifts. -/
def popDue? (now : Nanos) : Nat → TimerQueue → Option TimerQueue
  | 0, q => some q
  | n + 1, q =>
    match q.heap[0]? with
    | none => some q
    | some r =>
      match q.deadlineOf? r with
      | none => some q
      | some d => if now.before d then some q else (q.popRoot? r).bind (popDue? now n)

/-- A poll with checked exchanges and sifts. -/
def poll? (q : TimerQueue) (now : Nanos) : Option TimerQueue := do
  let p ← q.removals.foldlM remove? q
  popDue? now p.heap.size { p with removals := [] }

theorem insert?_eq (hp : Placed q) (hk : k < q.timeouts.size) (hnew : k ∉ q.heap) :
    q.insert? k = some (({ q with heap := q.heap.push k }.settle q.heap.size).siftUp q.heap.size) :=
  siftUp?_turns (hp.push hk hnew) (by rw [heap_settle, Array.size_push]; exact Nat.lt_succ_self _)

theorem remove?_eq (hp : Placed q) (k : Nat) : q.remove? k = some (q.remove k) := by
  cases hslot : q.slotOf? k with
  | none =>
      have hbelieved := hslot
      rw [slotOf?] at hbelieved
      simp only [remove?, hslot, remove, hbelieved]
  | some i =>
      by_cases hi : q.heap[i]? = some k
      · have hlt := (Array.getElem?_eq_some_iff.mp hi).1
        rw [remove_of_slotOf? hslot hi]
        simp only [remove?, cutOut, hslot, hi, ↓reduceIte]
        split
        · have hsize : (q.dropLast k).heap.size = q.heap.size - 1 := by
            simp only [dropLast, heap_setSlot, Array.size_pop]
          simp only [Option.bind_eq_bind, Option.bind_some]
          rw [if_neg (by omega)]
          rfl
        · have hsize := (shortened_takeOut hi).size
          simp only [List.length_singleton] at hsize
          have hdown : i < ((q.takeOut i k).siftDown i).heap.size := by
            rw [(rearranged_siftDown _ i).size]
            omega
          have hin : i < (q.takeOut i k).heap.size := by omega
          have htaken := hp.takeOut hi
          rw [swap?_eq hlt (by omega)]
          simp only [Option.bind_eq_bind, Option.bind_some]
          rw [← takeOut, if_pos hin, siftDown?_turns htaken hin, Option.bind_some,
            siftUp?_turns (htaken.siftDown i) hdown]
      · have hbelieved := hslot
        rw [slotOf?] at hbelieved
        simp only [remove?, hslot, remove, hbelieved, hi, ↓reduceIte]

theorem popRoot?_eq (hp : Placed q) {r : Nat} (hr : q.heap[0]? = some r) :
    q.popRoot? r = some ((q.takeOut 0 r).siftDown 0) := by
  have hlt := (Array.getElem?_eq_some_iff.mp hr).1
  rw [popRoot?, swap?_eq hlt (by omega)]
  simp only [Option.bind_eq_bind, Option.bind_some]
  rw [← takeOut]
  split
  · next hempty =>
      have hstop : ¬ (q.takeOut 0 r).dueBefore ((q.takeOut 0 r).firstChild 0) 0 = true := by
        intro hdue
        have hroot := lt_size_of_dueBefore_right hdue
        omega
      rw [siftDown, dif_neg hstop]
      rfl
  · next hleft => exact siftDown?_turns (hp.takeOut hr) (Nat.pos_of_ne_zero hleft)

theorem popDue?_eq (hp : Placed q) (now : Nanos) (n : Nat) :
    popDue? now n q = some (popDue now n q).1 := by
  induction n generalizing q with
  | zero => rfl
  | succ n ih =>
      cases hroot : q.heap[0]? with
      | none =>
          rw [popDue_of_empty now (n + 1) hroot]
          simp only [popDue?, hroot]
      | some r =>
          obtain ⟨d, hd⟩ := exists_deadlineOf? (hp.lt_size hroot)
          by_cases hlater : now.before d = true
          · rw [popDue_of_later (n + 1) hroot hd hlater]
            simp only [popDue?, hroot, hd, hlater, ↓reduceIte]
          · rw [popDue_of_due n hroot hd hlater]
            simp only [popDue?, hroot, hd, hlater, Bool.false_eq_true, ↓reduceIte,
              popRoot?_eq hp hroot, Option.bind_some]
            exact ih ((hp.takeOut hroot).siftDown 0)

theorem foldlM_remove?_eq (hp : Placed q) (rs : List Nat) :
    rs.foldlM remove? q = some (rs.foldl remove q) := by
  induction rs generalizing q with
  | nil => rfl
  | cons r rs ih =>
      rw [List.foldlM_cons, remove?_eq hp, Option.bind_eq_bind, Option.bind_some, ih (hp.remove r),
        List.foldl_cons]

theorem poll?_eq (hp : Placed q) (now : Nanos) : q.poll? now = some (q.poll now).1 := by
  rw [poll?, foldlM_remove?_eq hp, Option.bind_eq_bind, Option.bind_some]
  exact popDue?_eq (q := q.drainRemovals) (hp.foldl_remove q.removals) now _

end TimerQueue

end GreenThreads

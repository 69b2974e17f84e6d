import GreenThreads.Proofs.Line
import GreenThreads.Proofs.Timer.Heap

/-!
# The order of a timer heap

The deadlines of a queue stand for integer times that lie within half the circle, so that the
wrapped comparison is that of the times. Each sift mends the one place where the heap is not in
order, and the first position holds the least time.
-/

namespace GreenThreads.TimerQueue

variable {key : Nat → Int} {h h' : Array Nat} {i j p c : Nat}

/-! ## Heap order -/

/-- `c` is a child of `p` in a binary heap. -/
def IsChild (p c : Nat) : Prop := c = 2 * p + 1 ∨ c = 2 * p + 2

/-- The entry at `p` is not due after the one at `c`. -/
def InOrder (key : Nat → Int) (h : Array Nat) (p c : Nat) : Prop :=
  ∀ a b, h[p]? = some a → h[c]? = some b → key a ≤ key b

/-- No entry is due before its parent. -/
def Ordered (key : Nat → Int) (h : Array Nat) : Prop := ∀ p c, IsChild p c → InOrder key h p c

/-- The heap is in order but for the entry at `i`, for which its neighbours leave room. -/
structure OrderedAround (key : Nat → Int) (h : Array Nat) (i : Nat) : Prop where
  others : ∀ p c, IsChild p c → p ≠ i → c ≠ i → InOrder key h p c
  across : ∀ p c, IsChild p i → IsChild i c → InOrder key h p c

/-- Only the entry at `i` may be due before its parent. -/
structure UpOrder (key : Nat → Int) (h : Array Nat) (i : Nat) : Prop extends
    OrderedAround key h i where
  below : ∀ c, IsChild i c → InOrder key h i c

/-- Only the children of the entry at `i` may be due before it. -/
structure DownOrder (key : Nat → Int) (h : Array Nat) (i : Nat) : Prop extends
    OrderedAround key h i where
  above : ∀ p, IsChild p i → InOrder key h p i

theorem Ordered.around (o : Ordered key h) (i : Nat) : OrderedAround key h i := by
  refine ⟨fun p c hpc _ _ => o p c hpc, ?_⟩
  intro p c hp hc a b ha hb
  have hi : i < h.size := by
    have hlt := (Array.getElem?_eq_some_iff.mp hb).1
    unfold IsChild at hc
    omega
  have hmid := Array.getElem?_eq_getElem hi
  exact Int.le_trans (o p i hp a _ ha hmid) (o i c hc _ b hmid hb)

theorem UpOrder.ordered (o : UpOrder key h i) (hup : ∀ p, IsChild p i → InOrder key h p i) :
    Ordered key h := by
  intro p c hpc
  by_cases hc : c = i
  · subst hc; exact hup p hpc
  · by_cases hp : p = i
    · subst hp; exact o.below c hpc
    · exact o.others p c hpc hp hc

theorem DownOrder.ordered (o : DownOrder key h i)
    (hdown : ∀ c, IsChild i c → InOrder key h i c) : Ordered key h := by
  intro p c hpc
  by_cases hp : p = i
  · subst hp; exact hdown c hpc
  · by_cases hc : c = i
    · subst hc; exact o.above p hpc
    · exact o.others p c hpc hp hc

/-! ## One exchange -/

/-- `h'` is `h` with the entries at `i` and `j` exchanged. -/
def Swapped (h h' : Array Nat) (i j : Nat) : Prop :=
  ∀ x, h'[x]? = if j = x then h[i]? else if i = x then h[j]? else h[x]?

theorem Swapped.left (s : Swapped h h' i j) : h'[i]? = h[j]? := by
  rw [s i]
  split
  · next hji => rw [hji]
  · rw [if_pos rfl]

theorem Swapped.right (s : Swapped h h' i j) : h'[j]? = h[i]? := by
  rw [s j, if_pos rfl]

theorem Swapped.other (s : Swapped h h' i j) {x : Nat} (hi : x ≠ i) (hj : x ≠ j) :
    h'[x]? = h[x]? := by
  rw [s x, if_neg (Ne.symm hj), if_neg (Ne.symm hi)]

/-- An entry that is due before its parent moves up, and the place to mend with it. -/
theorem UpOrder.swap (o : UpOrder key h i) (hp : IsChild p i) {a b : Nat} (ha : h[p]? = some a)
    (hb : h[i]? = some b) (hlt : key b < key a) (s : Swapped h h' i p) : UpOrder key h' p := by
  have hpi : p ≠ i := by unfold IsChild at hp; omega
  have hleft : h'[i]? = some a := s.left.trans ha
  have hright : h'[p]? = some b := s.right.trans hb
  -- The other child of `p` is due no earlier than the entry that moved down.
  have hsibling : ∀ c v, IsChild p c → c ≠ i → h[c]? = some v → key a ≤ key v := by
    intro c v hc hci hv
    exact o.others p c hc hpi hci a v ha hv
  constructor
  · constructor
    · intro x c hxc hx hc u v hu hv
      by_cases hci : c = i
      · subst hci
        unfold IsChild at hp hxc
        omega
      · rw [s.other hci hc] at hv
        by_cases hxi : x = i
        · subst hxi
          rw [hleft] at hu
          cases hu
          exact o.across p c hp hxc a v ha hv
        · rw [s.other hxi hx] at hu
          exact o.others x c hxc hxi hci u v hu hv
    · intro x c hx hc u v hu hv
      have hxi : x ≠ i := by unfold IsChild at hp hx; omega
      have hxp : x ≠ p := by unfold IsChild at hx; omega
      rw [s.other hxi hxp] at hu
      have hup : key u ≤ key a := o.others x p hx hxi hpi u a hu ha
      by_cases hci : c = i
      · subst hci
        rw [hleft] at hv
        cases hv
        exact hup
      · have hcp : c ≠ p := by unfold IsChild at hc; omega
        rw [s.other hci hcp] at hv
        exact Int.le_trans hup (hsibling c v hc hci hv)
  · intro c hc u v hu hv
    rw [hright] at hu
    cases hu
    by_cases hci : c = i
    · subst hci
      rw [hleft] at hv
      cases hv
      omega
    · have hcp : c ≠ p := by unfold IsChild at hc; omega
      rw [s.other hci hcp] at hv
      have hle := hsibling c v hc hci hv
      omega

/-- An entry that is due after its first child moves down, and the place to mend with it. -/
theorem DownOrder.swap (o : DownOrder key h i) (hc : IsChild i c) {a b : Nat} (ha : h[i]? = some a)
    (hb : h[c]? = some b) (hlt : key b < key a) (hfirst : ∀ d v, IsChild i d → h[d]? = some v →
      key b ≤ key v) (s : Swapped h h' i c) : DownOrder key h' c := by
  have hci : c ≠ i := by unfold IsChild at hc; omega
  have hleft : h'[i]? = some b := s.left.trans hb
  have hright : h'[c]? = some a := s.right.trans ha
  constructor
  · constructor
    · intro x d hxd hx hd u v hu hv
      by_cases hdi : d = i
      · subst hdi
        have hxd' : x ≠ d := by unfold IsChild at hxd; omega
        rw [s.other hxd' hx] at hu
        rw [hleft] at hv
        cases hv
        exact o.across x c hxd hc u b hu hb
      · rw [s.other hdi hd] at hv
        by_cases hxi : x = i
        · subst hxi
          rw [hleft] at hu
          cases hu
          exact hfirst d v hxd hv
        · rw [s.other hxi hx] at hu
          exact o.others x d hxd hxi hdi u v hu hv
    · intro x d hx hd u v hu hv
      have hxi : x = i := by unfold IsChild at hx hc; omega
      subst hxi
      have hdx : d ≠ x := by unfold IsChild at hd hc; omega
      have hdc : d ≠ c := by unfold IsChild at hd; omega
      rw [hleft] at hu
      cases hu
      rw [s.other hdx hdc] at hv
      exact o.others c d hd hci hdx b v hb hv
  · intro x hx u v hu hv
    have hxi : x = i := by unfold IsChild at hx hc; omega
    subst hxi
    rw [hleft] at hu
    rw [hright] at hv
    cases hu
    cases hv
    omega

/-! ## Times -/

variable {q q' : TimerQueue} {B now : Int} {k : Nat}

/-- The deadlines stand for the times `key`, which lie within half the circle after `B`. -/
structure Timed (B : Int) (key : Nat → Int) (q : TimerQueue) : Prop where
  deadline : ∀ k t, q.bare[k]? = some t → t.deadline = Nanos.instant (key k)
  window : ∀ k, k < q.timeouts.size → B ≤ key k ∧ key k < B + 2 ^ 63

theorem Timed.of_bare (hT : Timed B key q) (hb : q'.bare = q.bare) : Timed B key q' := by
  have hsize : q'.timeouts.size = q.timeouts.size := by rw [← size_bare, hb, size_bare]
  refine ⟨?_, ?_⟩
  · rw [hb]; exact hT.deadline
  · rw [hsize]; exact hT.window

theorem Timed.deadlineOf? (hT : Timed B key q) (hk : k < q.timeouts.size) :
    q.deadlineOf? k = some (Nanos.instant (key k)) := by
  have hbare : q.bare[k]? = some { q.timeouts[k] with slot := none } := by
    rw [bare, Array.getElem?_map, Array.getElem?_eq_getElem hk, Option.map_some]
  have hdeadline := hT.deadline k _ hbare
  rw [TimerQueue.deadlineOf?, Array.getElem?_eq_getElem hk, Option.map_some, ← hdeadline]

theorem before_key (hT : Timed B key q) (hi : i < q.timeouts.size) (hj : j < q.timeouts.size) :
    (Nanos.instant (key i)).before (Nanos.instant (key j)) = decide (key i < key j) := by
  have hwi := hT.window i hi
  have hwj := hT.window j hj
  exact Nanos.before_instant (by omega) (by omega)

/-- The wrapped comparison of two positions is that of their times. -/
theorem dueBefore_iff (hT : Timed B key q) (hp : Placed q) :
    q.dueBefore i j = true ↔
      ∃ a b, q.heap[i]? = some a ∧ q.heap[j]? = some b ∧ key a < key b := by
  constructor
  · intro hdue
    have ha := Array.getElem?_eq_getElem (lt_size_of_dueBefore hdue)
    have hb := Array.getElem?_eq_getElem (lt_size_of_dueBefore_right hdue)
    refine ⟨_, _, ha, hb, ?_⟩
    have hka := hp.lt_size ha
    have hkb := hp.lt_size hb
    simp only [dueBefore, ha, hb, Option.bind_some, hT.deadlineOf? hka, hT.deadlineOf? hkb,
      before_key hT hka hkb, decide_eq_true_eq] at hdue
    exact hdue
  · rintro ⟨a, b, ha, hb, hlt⟩
    have hka := hp.lt_size ha
    have hkb := hp.lt_size hb
    simp only [dueBefore, ha, hb, Option.bind_some, hT.deadlineOf? hka, hT.deadlineOf? hkb,
      before_key hT hka hkb, hlt, decide_true]

theorem inOrder_of_not_dueBefore (hT : Timed B key q) (hp : Placed q)
    (h : ¬q.dueBefore j i = true) : InOrder key q.heap i j := by
  intro a b ha hb
  rw [dueBefore_iff hT hp] at h
  by_cases hlt : key b < key a
  · exact absurd ⟨b, a, hb, ha, hlt⟩ h
  · omega

/-! ## Sifting -/

theorem swapped_swap (hi : i < q.heap.size) (hj : j < q.heap.size) :
    Swapped q.heap (q.swap i j).heap i j := getElem?_heap_swap hi hj

theorem UpOrder.siftUp (hT : Timed B key q) (hp : Placed q) (o : UpOrder key q.heap i) :
    Ordered key (q.siftUp i).heap := by
  induction q, i using siftUp.induct with
  | case1 q i hup ih =>
      rw [TimerQueue.siftUp, if_pos hup]
      have hi := lt_size_of_dueBefore hup.2
      have hj := lt_size_of_dueBefore_right hup.2
      have hchild : IsChild ((i - 1) / 2) i := by unfold IsChild; omega
      obtain ⟨b, a, hb, ha, hlt⟩ := (dueBefore_iff hT hp).mp hup.2
      exact ih (hT.of_bare (rearranged_swap q _ _).bare) (hp.swap hi hj)
        (o.swap hchild ha hb hlt (swapped_swap hi hj))
  | case2 q i hstop =>
      rw [TimerQueue.siftUp, if_neg hstop]
      refine o.ordered ?_
      intro p hpi
      have hparent : p = (i - 1) / 2 := by unfold IsChild at hpi; omega
      have hpos : 0 < i := by unfold IsChild at hpi; omega
      rw [hparent]
      exact inOrder_of_not_dueBefore hT hp fun hdue => hstop ⟨hpos, hdue⟩

theorem isChild_firstChild (q : TimerQueue) (i : Nat) : IsChild i (q.firstChild i) := by
  unfold IsChild firstChild
  split <;> omega

/-- No child is due before the first one. -/
theorem firstChild_le (hT : Timed B key q) (hp : Placed q) {v : Nat} (hc : IsChild i c)
    (hv : q.heap[c]? = some v) : ∃ b, q.heap[q.firstChild i]? = some b ∧ key b ≤ key v := by
  have hlt := (Array.getElem?_eq_some_iff.mp hv).1
  unfold firstChild
  split
  · next hdue =>
      obtain ⟨b, a, hb, ha, hba⟩ := (dueBefore_iff hT hp).mp hdue
      refine ⟨b, hb, ?_⟩
      rcases hc with rfl | rfl
      · rw [ha] at hv; cases hv; omega
      · rw [hb] at hv; cases hv; exact Int.le_refl _
  · next hdue =>
      have hleft : 2 * i + 1 < q.heap.size := by unfold IsChild at hc; omega
      have ha := Array.getElem?_eq_getElem hleft
      refine ⟨_, ha, ?_⟩
      rcases hc with rfl | rfl
      · rw [ha] at hv; cases hv; exact Int.le_refl _
      · exact inOrder_of_not_dueBefore hT hp hdue _ _ ha hv

theorem DownOrder.siftDown (hT : Timed B key q) (hp : Placed q) (o : DownOrder key q.heap i) :
    Ordered key (q.siftDown i).heap := by
  induction q, i using siftDown.induct with
  | case1 q i hdown ih =>
      rw [TimerQueue.siftDown, dif_pos hdown]
      have hi := lt_size_of_dueBefore_right hdown
      have hj := lt_size_of_dueBefore hdown
      obtain ⟨b, a, hb, ha, hlt⟩ := (dueBefore_iff hT hp).mp hdown
      refine ih (hT.of_bare (rearranged_swap q _ _).bare) (hp.swap hi hj)
        (o.swap (isChild_firstChild q i) ha hb hlt ?_ (swapped_swap hi hj))
      intro d v hd hv
      obtain ⟨b', hb', hle⟩ := firstChild_le hT hp hd hv
      rw [hb] at hb'
      cases hb'
      exact hle
  | case2 q i hstop =>
      rw [TimerQueue.siftDown, dif_neg hstop]
      refine o.ordered ?_
      intro c hc a v ha hv
      obtain ⟨b, hb, hle⟩ := firstChild_le hT hp hc hv
      exact Int.le_trans (inOrder_of_not_dueBefore hT hp hstop a b ha hb) hle

theorem siftUp_of_ordered (hT : Timed B key q) (hp : Placed q) (o : Ordered key q.heap) (i : Nat) :
    q.siftUp i = q := by
  rw [TimerQueue.siftUp, if_neg]
  rintro ⟨hpos, hdue⟩
  obtain ⟨b, a, hb, ha, hlt⟩ := (dueBefore_iff hT hp).mp hdue
  have hle := o ((i - 1) / 2) i (by unfold IsChild; omega) a b ha hb
  omega

/-- Sifting an entry down and then up mends its place, wherever it belongs. -/
theorem OrderedAround.sift (hT : Timed B key q) (hp : Placed q)
    (o : OrderedAround key q.heap i) : Ordered key ((q.siftDown i).siftUp i).heap := by
  by_cases hup : ∀ p, IsChild p i → InOrder key q.heap p i
  · have hdown := DownOrder.siftDown hT hp ⟨o, hup⟩
    have hshift := rearranged_siftDown q i
    rw [siftUp_of_ordered (hT.of_bare hshift.bare) (hp.siftDown i) hdown]
    exact hdown
  · simp only [InOrder, Classical.not_forall] at hup
    obtain ⟨p, hpi, a, b, ha, hb, hlt⟩ := hup
    -- The entry is due before its parent, hence before its children, which come after that one.
    have hbelow : ∀ c, IsChild i c → InOrder key q.heap i c := by
      intro c hc u v hu hv
      rw [hb] at hu
      cases hu
      have hle := o.across p c hpi hc a v ha hv
      omega
    have hstop : q.siftDown i = q := by
      rw [TimerQueue.siftDown, dif_neg]
      intro hdue
      obtain ⟨v, u, hv, hu, hvu⟩ := (dueBefore_iff hT hp).mp hdue
      have hle := hbelow _ (isChild_firstChild q i) u v hu hv
      omega
    rw [hstop]
    exact UpOrder.siftUp hT hp ⟨o, hbelow⟩

end GreenThreads.TimerQueue

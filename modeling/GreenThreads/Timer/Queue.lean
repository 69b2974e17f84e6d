import GreenThreads.Timer.Timeout

/-!
# Timer queues

A timer queue keeps its pending timeouts in a binary min-heap by deadline. Every timeout stores
its position in the heap, so that one can be taken out of the middle. The owner of the queue
cancels directly; anybody else leaves the removal in a list that the owner works off at its next
poll.
-/

namespace GreenThreads

/-- The timeouts of one owner. -/
structure TimerQueue where
  /-- The number of the owner. -/
  owner : Nat
  /-- All timeouts made for this queue, by number. -/
  timeouts : Array Timeout := #[]
  /-- The numbers of the pending timeouts, as a binary min-heap by deadline. -/
  heap : Array Nat := #[]
  /-- The numbers that others asked to remove, oldest first. -/
  removals : List Nat := []
deriving Repr

namespace TimerQueue

/-- The deadline of the timeout with number `k`. -/
def deadlineOf? (q : TimerQueue) (k : Nat) : Option Nanos := q.timeouts[k]?.map (·.deadline)

/-- The earliest pending deadline. -/
def next? (q : TimerQueue) : Option Nanos := q.heap[0]?.bind q.deadlineOf?

/-- The timeout at position `i` of the heap is due strictly before the one at position `j`. -/
def dueBefore (q : TimerQueue) (i j : Nat) : Bool :=
  match q.heap[i]?.bind q.deadlineOf?, q.heap[j]?.bind q.deadlineOf? with
  | some a, some b => a.before b
  | _, _ => false

/-! ## Positions -/

/-- Stores a new position in the timeout with number `k`. -/
def setSlot (q : TimerQueue) (k : Nat) (slot : Option Nat) : TimerQueue :=
  { q with timeouts := q.timeouts.modify k ({ · with slot := slot }) }

/-- Tells the timeout at position `i` where it is. -/
def settle (q : TimerQueue) (i : Nat) : TimerQueue :=
  match q.heap[i]? with
  | some k => q.setSlot k (some i)
  | none => q

/-- Exchanges two positions of the heap. -/
def swap (q : TimerQueue) (i j : Nat) : TimerQueue :=
  ({ q with heap := q.heap.swapIfInBounds i j }.settle i).settle j

@[simp] theorem heap_setSlot (q : TimerQueue) (k : Nat) (s : Option Nat) :
    (q.setSlot k s).heap = q.heap := rfl

@[simp] theorem heap_settle (q : TimerQueue) (i : Nat) : (q.settle i).heap = q.heap := by
  unfold settle; split <;> rfl

@[simp] theorem heap_swap (q : TimerQueue) (i j : Nat) :
    (q.swap i j).heap = q.heap.swapIfInBounds i j := by
  simp [swap]

/-! ## Sifting -/

/-- Moves the entry at position `i` up while it is due before its parent. -/
def siftUp (q : TimerQueue) (i : Nat) : TimerQueue :=
  if 0 < i ∧ q.dueBefore i ((i - 1) / 2) then (q.swap i ((i - 1) / 2)).siftUp ((i - 1) / 2) else q
termination_by i
decreasing_by omega

/-- The child of position `i` that is due first: the left one unless the right one is strictly
before it. -/
def firstChild (q : TimerQueue) (i : Nat) : Nat :=
  if q.dueBefore (2 * i + 2) (2 * i + 1) then 2 * i + 2 else 2 * i + 1

theorem lt_size_of_dueBefore {q : TimerQueue} {i j : Nat} (h : q.dueBefore i j = true) :
    i < q.heap.size := by
  unfold dueBefore at h
  split at h
  · rename_i a b ha _
    rcases Option.bind_eq_some_iff.1 ha with ⟨k, hk, _⟩
    exact (Array.getElem?_eq_some_iff.1 hk).1
  · simp at h

theorem lt_firstChild (q : TimerQueue) (i : Nat) : i < q.firstChild i := by
  unfold firstChild; split <;> omega

/-- Moves the entry at position `i` down while a child is due before it. -/
def siftDown (q : TimerQueue) (i : Nat) : TimerQueue :=
  if _ : q.dueBefore (q.firstChild i) i = true then
    (q.swap i (q.firstChild i)).siftDown (q.firstChild i)
  else q
termination_by q.heap.size - i
decreasing_by
  have := lt_size_of_dueBefore ‹q.dueBefore (q.firstChild i) i = true›
  have := q.lt_firstChild i
  simp only [heap_swap, Array.size_swapIfInBounds]
  omega

/-! ## Insertion and removal -/

/-- Makes a timeout that is not pending yet, and gives its number. -/
def create (q : TimerQueue) (t : Timeout) : TimerQueue × Nat :=
  ({ q with timeouts := q.timeouts.push t }, q.timeouts.size)

/-- Makes the timeout with number `k` pending. -/
def insert (q : TimerQueue) (k : Nat) : Except Fault TimerQueue :=
  match q.timeouts[k]? with
  | none => .ok q
  | some t =>
    if t.owner = q.owner then
      .ok (({ q with heap := q.heap.push k }.settle q.heap.size).siftUp q.heap.size)
    else .error .foreignTimeout

/-- Takes out the last position of the heap. -/
def dropLast (q : TimerQueue) (k : Nat) : TimerQueue :=
  { q with heap := q.heap.pop }.setSlot k none

/-- Takes the timeout with number `k` out of the heap, if it is there. -/
def remove (q : TimerQueue) (k : Nat) : TimerQueue :=
  match q.timeouts[k]?.bind (·.slot) with
  | none => q
  | some i =>
    if q.heap[i]? = some k then
      let last := q.heap.size - 1
      let q := (if i = last then q else q.swap i last).dropLast k
      if i < q.heap.size then (q.siftDown i).siftUp i else q
    else q

/-- Takes out the timeout that is due first. -/
def pop? (q : TimerQueue) : Option (Nat × TimerQueue) :=
  match q.heap[0]? with
  | none => none
  | some k => some (k, ((q.swap 0 (q.heap.size - 1)).dropLast k).siftDown 0)

/-- Cancels the timeout with number `k`: at once, or at the owner's next poll. -/
def cancel (q : TimerQueue) (k : Nat) (byOwner : Bool) : TimerQueue :=
  let q := { q with timeouts := q.timeouts.modify k ({ · with cancelled := true }) }
  if byOwner then q.remove k else { q with removals := q.removals ++ [k] }

/-! ## Polling -/

/-- Works off the removals that others asked for, oldest first. -/
def drainRemovals (q : TimerQueue) : TimerQueue :=
  { q.removals.foldl remove q with removals := [] }

/-- Takes out at most `n` timeouts that are due at `now`, in the order in which they are due; the
cancelled ones among them are dropped. -/
def popDue (now : Nanos) : Nat → TimerQueue → TimerQueue × List Nat
  | 0, q => (q, [])
  | n + 1, q =>
    match q.next?, q.pop? with
    | some d, some (k, q') =>
      if now.before d then (q, [])
      else
        let (q'', due) := popDue now n q'
        if (q'.timeouts[k]?.map (·.cancelled)).getD true then (q'', due) else (q'', k :: due)
    | _, _ => (q, [])

/-- A poll at `now`: the numbers of the timeouts to fire, in order. -/
def poll (q : TimerQueue) (now : Nanos) : TimerQueue × List Nat :=
  let q := q.drainRemovals
  popDue now q.heap.size q

/-- Whether the queue still refers to the timeout with number `k`. -/
def holds (q : TimerQueue) (k : Nat) : Bool := q.heap.contains k || q.removals.contains k

/-- The queue in one line. -/
def describe (q : TimerQueue) : String :=
  "TimerManager \x7b owner: " ++ toString q.owner ++ ", len: " ++ toString q.heap.size
    ++ ", pending_removals: " ++ toString q.removals.length ++ " \x7d"

end TimerQueue

end GreenThreads

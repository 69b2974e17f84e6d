import GreenThreads.Proofs.Timer.Schedule
import Mathlib.Logic.Relation

/-!
# Timers that a thread of their own fires

One thread polls a timer queue and sleeps until the next deadline. Any thread may add a timeout to
the queue, which has a lock of its own; it then counts the registration under a second lock, and
notifies. The thread that sleeps reads the count before it polls and looks again under the lock
before it goes to sleep, so that it does not miss what was added after the poll. Between any two of
these steps others can do theirs.
-/

namespace GreenThreads

/-- What a thread comes for. -/
inductive Purpose where
  /-- It registers the timeout with this number. -/
  | register (k : Nat)
  /-- It stops the thread that fires timeouts. -/
  | stop
deriving DecidableEq

/-- How far a thread is that came to register, to stop or to cancel. -/
inductive Guest where
  /-- It has added its timeout, or asked to stop, and waits for the lock. -/
  | arriving (p : Purpose)
  /-- It has the lock and is about to count its registration. -/
  | counting (k : Nat)
  /-- It has the lock and is about to notify. -/
  | notifying (p : Purpose)
  /-- It has notified and has the lock. -/
  | leaving (p : Purpose)
  | returned (p : Purpose)
  /-- It has marked a timeout as cancelled and is about to take it out of the queue, or to leave
  that to the next poll. -/
  | withdrawing (k : Nat) (byOwner : Bool)
  | withdrawn
deriving DecidableEq

namespace Guest

/-- It has the lock. -/
def holds : Guest → Bool
  | counting _ | notifying _ | leaving _ => true
  | arriving _ | returned _ | withdrawing _ _ | withdrawn => false

/-- It has counted the registration of the timeout with number `k`. -/
def counted (k : Nat) : Guest → Bool
  | notifying p | leaving p | returned p => p = .register k
  | arriving _ | counting _ | withdrawing _ _ | withdrawn => false

/-- It has notified. -/
def notified (p : Purpose) : Guest → Bool
  | leaving q | returned q => q = p
  | arriving _ | counting _ | notifying _ | withdrawing _ _ | withdrawn => false

theorem counted_of_notified {k : Nat} {x : Guest} (h : x.notified (.register k) = true) :
    x.counted k = true := by
  cases x with
  | leaving | returned => exact h
  | _ => cases h

end Guest

/-- How far the thread is that fires timeouts. -/
inductive Sexton where
  /-- It is about to see whether it was asked to stop. -/
  | starting
  /-- It is about to read the count. -/
  | marking
  /-- It has read the count and is about to poll. -/
  | polling (seen : Nat)
  /-- It has polled; the next deadline is `limit`, and it has these timeouts to fire before it takes
  the lock. -/
  | firing (seen : Nat) (limit : Option Nanos) (due : List Nat)
  /-- It has the lock and is about to see whether it was asked to stop. -/
  | weighing (seen : Nat) (limit : Option Nanos)
  /-- It has the lock and is about to compare the count with what it has read. -/
  | comparing (seen : Nat) (limit : Option Nanos)
  /-- It sleeps until `limit`, if there is one; it may have been notified. -/
  | asleep (limit : Option Nanos) (notified : Bool)
  | gone
deriving DecidableEq

namespace Sexton

/-- It has the lock. -/
def holds : Sexton → Bool
  | weighing _ _ | comparing _ _ => true
  | starting | marking | polling _ | firing _ _ _ | asleep _ _ | gone => false

/-- The timeouts that it is about to fire. -/
def due : Sexton → List Nat
  | firing _ _ ks => ks
  | starting | marking | polling _ | weighing _ _ | comparing _ _ | asleep _ _ | gone => []

/-- A notification reaches a thread that sleeps. -/
def notify : Sexton → Sexton
  | asleep limit _ => asleep limit true
  | x => x

@[simp] theorem holds_notify (x : Sexton) : x.notify.holds = x.holds := by
  cases x <;> rfl

@[simp] theorem due_notify (x : Sexton) : x.notify.due = x.due := by
  cases x <;> rfl

end Sexton

/-- A timer queue, the thread that fires its timeouts, and the threads that come to it. -/
structure Belfry where
  schedule : Schedule
  /-- How many registrations have been counted. -/
  count : Nat := 0
  /-- Whether anybody has the lock of the count. -/
  locked : Bool := false
  /-- The thread was asked to stop. -/
  closing : Bool := false
  /-- The engine for which timeouts are fired is gone. -/
  orphaned : Bool := false
  sexton : Sexton := .starting
  guests : List Guest := []
  /-- The timeouts that have been fired, oldest first. -/
  fired : List Nat := []

namespace Schedule

/-- Marks the timeout with number `k` as cancelled. -/
def mark (s : Schedule) (k : Nat) : Schedule :=
  { s with queue := s.queue.mark k, cancelled := k :: s.cancelled }

/-- Takes the timeout with number `k` out of the queue, or leaves that to the next poll. -/
def withdraw (s : Schedule) (k : Nat) (byOwner : Bool) : Schedule :=
  { s with queue :=
      if byOwner then s.queue.remove k else { s.queue with removals := s.queue.removals ++ [k] } }

theorem withdraw_mark (s : Schedule) (k : Nat) (byOwner : Bool) :
    (s.mark k).withdraw k byOwner = s.cancel k byOwner := by
  cases byOwner <;> rfl

theorem Sound.withdraw {B : Int} {s : Schedule} {k : Nat} (h : Sound B s) (hk : k ∈ s.cancelled)
    (byOwner : Bool) : Sound B (s.withdraw k byOwner) := by
  cases byOwner with
  | true => exact h.remove hk
  | false =>
      exact
        { h with
          timed := h.timed.of_bare rfl
          removals := fun j hj => by
            rcases List.mem_append.mp hj with hj | hj
            · exact h.removals j hj
            · rw [List.mem_singleton.mp hj]
              exact hk }

theorem Sound.mem_heap_of_withdraw {B : Int} {s : Schedule} {j k : Nat} {byOwner : Bool}
    (h : Sound B s) (hj : j ∈ (s.withdraw k byOwner).queue.heap) : j ∈ s.queue.heap := by
  cases byOwner with
  | true =>
      obtain ⟨ks, hshort, -⟩ := TimerQueue.shortened_remove s.queue k
      exact ((hshort.mem_heap h.placed j).mp hj).1
  | false => exact hj

end Schedule

namespace Belfry

/-- A thread that came gets on. -/
def advance (v : Belfry) (x y : Guest) : Belfry := { v with guests := y :: v.guests.erase x }

/-- What can happen at once, when the clock reads between `B` and half the circle later. -/
inductive Step (B : Int) : Belfry → Belfry → Prop
  /-- A timeout is made whose deadline is pulled in to the range of the clock. -/
  | make {v : Belfry} (task : TaskId) {n d : Int} (action : TimeoutAction)
      (now : B ≤ n) (later : B ≤ d) (near : n ≤ d + 2 ^ 63 ∧ d < n + 2 ^ 63)
      (range : min d (n + (2 ^ 62 - 1)) < B + 2 ^ 63) :
      Step B v { v with schedule := v.schedule.create task n d action }
  | orphan {v : Belfry} : Step B v { v with orphaned := true }
  -- Threads that register or stop
  | add {v : Belfry} {k : Nat} (made : k < v.schedule.queue.timeouts.size)
      (new : k ∉ v.schedule.added) :
      Step B v { v with
        schedule := v.schedule.add k
        guests := .arriving (.register k) :: v.guests }
  | close {v : Belfry} :
      Step B v { v with closing := true, guests := .arriving .stop :: v.guests }
  | enterCounting {v : Belfry} {k : Nat} (on : .arriving (.register k) ∈ v.guests)
      (free : v.locked = false) :
      Step B v { v.advance (.arriving (.register k)) (.counting k) with locked := true }
  | enterNotifying {v : Belfry} (on : .arriving .stop ∈ v.guests) (free : v.locked = false) :
      Step B v { v.advance (.arriving .stop) (.notifying .stop) with locked := true }
  | count {v : Belfry} {k : Nat} (on : .counting k ∈ v.guests) :
      Step B v { v.advance (.counting k) (.notifying (.register k)) with count := v.count + 1 }
  | notify {v : Belfry} {p : Purpose} (on : .notifying p ∈ v.guests) :
      Step B v { v.advance (.notifying p) (.leaving p) with sexton := v.sexton.notify }
  | leave {v : Belfry} {p : Purpose} (on : .leaving p ∈ v.guests) :
      Step B v { v.advance (.leaving p) (.returned p) with locked := false }
  -- Threads that cancel
  | mark {v : Belfry} {k : Nat} (byOwner : Bool) (made : k < v.schedule.queue.timeouts.size) :
      Step B v { v with
        schedule := v.schedule.mark k
        guests := .withdrawing k byOwner :: v.guests }
  | withdraw {v : Belfry} {k : Nat} {byOwner : Bool} (on : .withdrawing k byOwner ∈ v.guests) :
      Step B v { v.advance (.withdrawing k byOwner) .withdrawn with
        schedule := v.schedule.withdraw k byOwner }
  -- The thread that fires timeouts
  | look {v : Belfry} (at_ : v.sexton = .starting) (open_ : v.closing = false) :
      Step B v { v with sexton := .marking }
  | quit {v : Belfry} (at_ : v.sexton = .starting) (closed : v.closing = true) :
      Step B v { v with sexton := .gone }
  | read {v : Belfry} (at_ : v.sexton = .marking) (free : v.locked = false) :
      Step B v { v with sexton := .polling v.count }
  | lapse {v : Belfry} {seen : Nat} (at_ : v.sexton = .polling seen) (alone : v.orphaned = true) :
      Step B v { v with sexton := .gone }
  | poll {v : Belfry} {seen : Nat} {n : Int} (at_ : v.sexton = .polling seen)
      (served : v.orphaned = false) (since : B ≤ n) (range : n < B + 2 ^ 63) :
      Step B v { v with
        schedule := v.schedule.poll n
        sexton := .firing seen (v.schedule.queue.poll (Nanos.instant n)).1.next?
          (v.schedule.queue.poll (Nanos.instant n)).2 }
  | fire {v : Belfry} {seen k : Nat} {limit : Option Nanos} {ks : List Nat}
      (at_ : v.sexton = .firing seen limit (k :: ks)) :
      Step B v { v with sexton := .firing seen limit ks, fired := v.fired ++ [k] }
  | lock {v : Belfry} {seen : Nat} {limit : Option Nanos} (at_ : v.sexton = .firing seen limit [])
      (free : v.locked = false) :
      Step B v { v with sexton := .weighing seen limit, locked := true }
  | shut {v : Belfry} {seen : Nat} {limit : Option Nanos} (at_ : v.sexton = .weighing seen limit)
      (closed : v.closing = true) : Step B v { v with sexton := .gone, locked := false }
  | weigh {v : Belfry} {seen : Nat} {limit : Option Nanos} (at_ : v.sexton = .weighing seen limit)
      (open_ : v.closing = false) : Step B v { v with sexton := .comparing seen limit }
  | again {v : Belfry} {seen : Nat} {limit : Option Nanos}
      (at_ : v.sexton = .comparing seen limit) (other : v.count ≠ seen) :
      Step B v { v with sexton := .starting, locked := false }
  /-- The next deadline has passed by `now`. -/
  | late {v : Belfry} {seen : Nat} {deadline now : Nanos}
      (at_ : v.sexton = .comparing seen (some deadline)) (same : v.count = seen)
      (passed : ¬0 < deadline - now) :
      Step B v { v with sexton := .starting, locked := false }
  | sleep {v : Belfry} {seen : Nat} {limit : Option Nanos} {now : Nanos}
      (at_ : v.sexton = .comparing seen limit) (same : v.count = seen)
      (early : ∀ deadline ∈ limit, 0 < deadline - now) :
      Step B v { v with sexton := .asleep limit false, locked := false }
  /-- The thread was notified, its deadline is over, or it wakes for no reason. -/
  | stir {v : Belfry} {limit : Option Nanos} {notified : Bool}
      (at_ : v.sexton = .asleep limit notified) (free : v.locked = false) :
      Step B v { v with sexton := .starting }

/-- What becomes of an empty queue. -/
inductive Reached (B : Int) (owner : Nat) : Belfry → Prop
  | start : Reached B owner { schedule := { queue := { owner } } }
  | step {v v' : Belfry} (h : Reached B owner v) (s : Step B v v') : Reached B owner v'

variable {B : Int} {owner : Nat} {v v' : Belfry} {x y : Guest} {k : Nat}

/-! ## What holds between any two steps -/

/-- The timeout with number `k` is in the heap, and its registration has been counted. -/
def Counted (v : Belfry) (k : Nat) : Prop :=
  k ∈ v.schedule.queue.heap ∧ ∃ x ∈ v.guests, x.counted k = true

/-- Somebody has notified who came for this. -/
def Notified (v : Belfry) (p : Purpose) : Prop := ∃ x ∈ v.guests, x.notified p = true

/-- A thread that sleeps until `limit` wakes up in time for the timeout with number `k`. -/
def InTime (B : Int) (v : Belfry) (limit : Option Nanos) (k : Nat) : Prop :=
  ∃ r : Int, B ≤ r ∧ limit = some (Nanos.instant r) ∧ r ≤ v.schedule.due k

/-- What the thread that fires timeouts relies on as far as it is. -/
def Keeps (B : Int) (v : Belfry) : Sexton → Prop
  | .starting | .marking | .asleep _ true => True
  | .polling seen => seen ≤ v.count
  | .firing seen limit _ | .weighing seen limit => seen ≤ v.count ∧
      (v.count = seen → ∀ k, v.Counted k → InTime B v limit k)
  | .comparing seen limit => seen ≤ v.count ∧
      (v.count = seen → ∀ k, v.Counted k → InTime B v limit k) ∧ ¬v.Notified .stop
  | .asleep limit false =>
      (∀ k ∈ v.schedule.queue.heap, v.Notified (.register k) → InTime B v limit k) ∧
        ¬v.Notified .stop
  | .gone => v.closing = true ∨ v.orphaned = true

/-- What a thread has done that comes for this. -/
def Begun (v : Belfry) : Purpose → Prop
  | .register k => k ∈ v.schedule.added
  | .stop => v.closing = true

/-- What a thread that came relies on as far as it is. -/
def Comes (v : Belfry) : Guest → Prop
  | .counting k => v.Begun (.register k)
  | .arriving p | .notifying p | .leaving p | .returned p => v.Begun p
  | .withdrawing k _ => k ∈ v.schedule.cancelled
  | .withdrawn => True

structure Sound (B : Int) (v : Belfry) : Prop where
  schedule : v.schedule.Sound B
  /-- Whoever has the lock is the only one. -/
  lock : v.sexton.holds.toNat + v.guests.countP Guest.holds = v.locked.toNat
  sexton : Keeps B v v.sexton
  guests : ∀ x ∈ v.guests, Comes v x
  /-- What the polls have taken out to be fired. -/
  fired : ∀ k ∈ v.schedule.fired, k ∈ v.fired ∨ k ∈ v.sexton.due

theorem countP_advance (on : x ∈ v.guests) (y : Guest) :
    (v.advance x y).guests.countP Guest.holds + x.holds.toNat =
      v.guests.countP Guest.holds + y.holds.toNat := by
  have hone (z : Guest) : (if z.holds then 1 else 0) = z.holds.toNat := by
    cases z.holds <;> rfl
  rw [(List.perm_cons_erase on).countP_eq, advance, List.countP_cons, List.countP_cons, hone, hone]
  omega

theorem mem_advance {z : Guest} (h : z ∈ (v.advance x y).guests) : z = y ∨ z ∈ v.guests := by
  cases h with
  | head => exact .inl rfl
  | tail _ h => exact .inr (List.mem_of_mem_erase h)

theorem exists_advance {p : Guest → Bool} (on : x ∈ v.guests) (hy : p y = true → p x = true)
    (h : ∃ z ∈ (v.advance x y).guests, p z = true) : ∃ z ∈ v.guests, p z = true := by
  obtain ⟨z, hz, hp⟩ := h
  rcases mem_advance hz with rfl | hz
  · exact ⟨x, on, hy hp⟩
  · exact ⟨z, hz, hp⟩

theorem Notified.counted (h : v.Notified (.register k)) (hk : k ∈ v.schedule.queue.heap) :
    v.Counted k := by
  obtain ⟨x, hx, hp⟩ := h
  exact ⟨hk, x, hx, Guest.counted_of_notified hp⟩

/-- From `v` to `v'` nobody has counted a registration, and nobody has notified. -/
structure Quiet (v v' : Belfry) : Prop where
  count : v'.count = v.count
  counted : ∀ k, v'.Counted k → v.Counted k
  notified : ∀ p, v'.Notified p → v.Notified p
  due : ∀ k ∈ v.schedule.queue.heap, v'.schedule.due k = v.schedule.due k
  closing : v.closing = true → v'.closing = true
  orphaned : v.orphaned = true → v'.orphaned = true

theorem InTime.quiet {limit : Option Nanos} (h : InTime B v limit k) (hq : Quiet v v')
    (hk : k ∈ v.schedule.queue.heap) : InTime B v' limit k := by
  obtain ⟨r, hr, hlimit, hle⟩ := h
  exact ⟨r, hr, hlimit, by rw [hq.due k hk]; exact hle⟩

theorem Keeps.quiet {a : Sexton} (h : Keeps B v a) (hq : Quiet v v') : Keeps B v' a := by
  have hcounted {limit : Option Nanos} {seen : Nat}
      (ht : v.count = seen → ∀ k, v.Counted k → InTime B v limit k) (hc : v'.count = seen) (k : Nat)
      (hk : v'.Counted k) : InTime B v' limit k :=
    (ht (hq.count ▸ hc) k (hq.counted k hk)).quiet hq (hq.counted k hk).1
  have hstop (hno : ¬v.Notified .stop) : ¬v'.Notified .stop := fun hs => hno (hq.notified _ hs)
  cases a with
  | starting | marking => trivial
  | polling seen => exact (hq.count.symm ▸ h : seen ≤ v'.count)
  | firing seen limit ks => exact ⟨hq.count.symm ▸ h.1, hcounted h.2⟩
  | weighing seen limit => exact ⟨hq.count.symm ▸ h.1, hcounted h.2⟩
  | comparing seen limit => exact ⟨hq.count.symm ▸ h.1, hcounted h.2.1, hstop h.2.2⟩
  | asleep limit notified =>
      cases notified with
      | true => trivial
      | false =>
          refine ⟨fun k hk hn => ?_, hstop h.2⟩
          have hold := (hq.counted k (hn.counted hk)).1
          exact (h.1 k hold (hq.notified _ hn)).quiet hq hold
  | gone => exact h.imp hq.closing hq.orphaned

theorem Comes.mono (h : Comes v x) (hadded : ∀ k ∈ v.schedule.added, k ∈ v'.schedule.added)
    (hcancelled : ∀ k ∈ v.schedule.cancelled, k ∈ v'.schedule.cancelled)
    (hclosing : v.closing = true → v'.closing = true) : Comes v' x := by
  have hbegun (p : Purpose) (hp : v.Begun p) : v'.Begun p := by
    cases p with
    | register k => exact hadded k hp
    | stop => exact hclosing hp
  cases x with
  | counting k => exact hbegun (.register k) h
  | arriving p | notifying p | leaving p | returned p => exact hbegun p h
  | withdrawing k byOwner => exact hcancelled k h
  | withdrawn => trivial

namespace Sound

variable {a a' : Sexton} {l : Bool}

theorem start (B : Int) (owner : Nat) : Sound B { schedule := { queue := { owner } } } where
  schedule := Schedule.sound_start B owner
  lock := rfl
  sexton := trivial
  guests := fun _ hx => (List.not_mem_nil hx).elim
  fired := fun _ hk => (List.not_mem_nil hk).elim

theorem locked_of_sexton (h : Sound B v) (hs : v.sexton.holds = true) :
    v.locked = true ∧ ∀ x ∈ v.guests, x.holds = false := by
  have hlock := h.lock
  have hone := v.locked.toNat_le
  rw [hs, Bool.toNat_true] at hlock
  refine ⟨Bool.toNat_eq_one.mp (by omega), fun x hx => ?_⟩
  have hnone : v.guests.countP Guest.holds = 0 := by omega
  simpa using List.countP_eq_zero.mp hnone x hx

theorem locked_of_mem (h : Sound B v) (on : x ∈ v.guests) (hx : x.holds = true) :
    v.locked = true ∧ v.sexton.holds = false := by
  have hlock := h.lock
  have hbusy : 0 < v.guests.countP Guest.holds := List.countP_pos_iff.mpr ⟨x, on, hx⟩
  have hone := v.locked.toNat_le
  exact ⟨Bool.toNat_eq_one.mp (by omega), Bool.toNat_eq_zero.mp (by omega)⟩

theorem keeps (h : Sound B v) (at_ : v.sexton = a) : Keeps B v a := at_ ▸ h.sexton

theorem turn (h : Sound B v) (at_ : v.sexton = a)
    (hl : a'.holds.toNat + v.locked.toNat = a.holds.toNat + l.toNat)
    (hkeeps : Keeps B v a') (hdue : a.due = []) :
    Sound B { v with sexton := a', locked := l } where
  schedule := h.schedule
  lock := by
    have hlock := h.lock
    rw [at_] at hlock
    simp only
    omega
  sexton := hkeeps
  guests := h.guests
  fired := fun k hk => by
    refine (h.fired k hk).imp_right fun hk' => ?_
    rw [at_, hdue] at hk'
    cases hk'

theorem advance (h : Sound B v) (on : x ∈ v.guests)
    (hl : y.holds.toNat + v.locked.toNat = x.holds.toNat + l.toNat) (hy : Comes v y)
    (hcounted : ∀ k, y.counted k = true → x.counted k = true)
    (hnotified : ∀ p, y.notified p = true → x.notified p = true) :
    Sound B { v.advance x y with locked := l } where
  schedule := h.schedule
  lock := by
    have hlock := h.lock
    have hcount := countP_advance on y
    simp only [Belfry.advance] at *
    omega
  sexton := h.sexton.quiet
    { count := rfl
      counted := fun k hk => ⟨hk.1, exists_advance on (hcounted k) hk.2⟩
      notified := fun p hp => exists_advance on (hnotified p) hp
      due := fun _ _ => rfl
      closing := id
      orphaned := id }
  guests := fun z hz => (mem_advance hz).elim (fun hz => hz ▸ hy) (h.guests z)
  fired := h.fired

theorem join (h : Sound B v) (hl : x.holds = false) (hx : Comes v x)
    (hcounted : ∀ k, x.counted k = false) (hnotified : ∀ p, x.notified p = false) :
    Sound B { v with guests := x :: v.guests } where
  schedule := h.schedule
  lock := by
    have hlock := h.lock
    simp only [List.countP_cons, hl, Bool.false_eq_true, ↓reduceIte, Nat.add_zero]
    exact hlock
  sexton := h.sexton.quiet
    { count := rfl
      counted := fun k ⟨hk, hc⟩ => ⟨hk, by simpa [hcounted k] using hc⟩
      notified := fun p hp => by simpa [Notified, hnotified p] using hp
      due := fun _ _ => rfl
      closing := id
      orphaned := id }
  guests := fun z hz => by
    cases hz with
    | head => exact hx
    | tail _ hz => exact h.guests z hz
  fired := h.fired

/-- The queue changes, but for what was registered before and is in the heap. -/
theorem reschedule (h : Sound B v) {s : Schedule} (hs : s.Sound B)
    (hadded : ∀ k ∈ v.schedule.added, k ∈ s.added)
    (hcancelled : ∀ k ∈ v.schedule.cancelled, k ∈ s.cancelled)
    (hfired : s.fired = v.schedule.fired)
    (hheap : ∀ k ∈ s.queue.heap, k ∈ v.schedule.added → k ∈ v.schedule.queue.heap)
    (hdue : ∀ k ∈ v.schedule.queue.heap, s.due k = v.schedule.due k) :
    Sound B { v with schedule := s } where
  schedule := hs
  lock := h.lock
  sexton := h.sexton.quiet
    { count := rfl
      counted := fun k ⟨hk, x, hx, hc⟩ => by
        refine ⟨hheap k hk ?_, x, hx, hc⟩
        have hcomes := h.guests x hx
        cases x with
        | notifying p | leaving p | returned p =>
            rw [of_decide_eq_true hc] at hcomes
            exact hcomes
        | _ => cases hc
      notified := fun _ hp => hp
      due := hdue
      closing := id
      orphaned := id }
  guests := fun x hx => (h.guests x hx).mono hadded hcancelled id
  fired := by rw [hfired]; exact h.fired

theorem flag (h : Sound B v) {c o : Bool} (hc : v.closing = true → c = true)
    (ho : v.orphaned = true → o = true) : Sound B { v with closing := c, orphaned := o } where
  schedule := h.schedule
  lock := h.lock
  sexton := h.sexton.quiet
    { count := rfl
      counted := fun _ hk => hk
      notified := fun _ hp => hp
      due := fun _ _ => rfl
      closing := hc
      orphaned := ho }
  guests := fun x hx => (h.guests x hx).mono (fun _ hk => hk) (fun _ hk => hk) hc
  fired := h.fired

/-- A registration is counted, which whoever has read the count before will see. -/
theorem count (h : Sound B v) (on : .counting k ∈ v.guests) :
    Sound B { v.advance (.counting k) (.notifying (.register k)) with count := v.count + 1 } where
  schedule := h.schedule
  lock := by
    have hlock := h.lock
    have hcount := countP_advance on (.notifying (.register k))
    simp only [Guest.holds, Belfry.advance] at *
    omega
  sexton := by
    have hkeeps := h.sexton
    have hnotified (p : Purpose) (hp : Notified { v.advance (.counting k)
        (.notifying (.register k)) with count := v.count + 1 } p) : v.Notified p :=
      exists_advance (y := .notifying (.register k)) on nofun hp
    have hlater {seen : Nat} (hs : seen ≤ v.count) : seen ≤ v.count + 1 ∧ v.count + 1 ≠ seen := by
      omega
    simp only [Belfry.advance] at *
    cases hs : v.sexton with
    | starting | marking => trivial
    | polling seen => rw [hs] at hkeeps; exact (hlater hkeeps).1
    | firing seen limit ks =>
        rw [hs] at hkeeps
        exact ⟨(hlater hkeeps.1).1, fun hc => absurd hc (hlater hkeeps.1).2⟩
    | weighing seen limit =>
        rw [hs] at hkeeps
        exact ⟨(hlater hkeeps.1).1, fun hc => absurd hc (hlater hkeeps.1).2⟩
    | comparing seen limit =>
        rw [hs] at hkeeps
        exact ⟨(hlater hkeeps.1).1, fun hc => absurd hc (hlater hkeeps.1).2,
          fun hp => hkeeps.2.2 (hnotified _ hp)⟩
    | asleep limit notified =>
        rw [hs] at hkeeps
        cases notified with
        | true => trivial
        | false => exact ⟨fun j hj hp => hkeeps.1 j hj (hnotified _ hp),
            fun hp => hkeeps.2 (hnotified _ hp)⟩
    | gone => rw [hs] at hkeeps; exact hkeeps
  guests := fun z hz => by
    have hon : Comes v (.notifying (.register k)) := h.guests (.counting k) on
    exact (mem_advance hz).elim (fun hz => hz ▸ hon) (h.guests z)
  fired := h.fired

theorem notify (h : Sound B v) {p : Purpose} (on : .notifying p ∈ v.guests) :
    Sound B { v.advance (.notifying p) (.leaving p) with sexton := v.sexton.notify } where
  schedule := h.schedule
  lock := by
    have hlock := h.lock
    have hcount := countP_advance on (.leaving p)
    simp only [Guest.holds, Belfry.advance, Sexton.holds_notify] at *
    omega
  sexton := by
    have hkeeps := h.sexton
    have hfree := (h.locked_of_mem on rfl).2
    have hcounted (j : Nat) (hj : Counted { v.advance (.notifying p) (.leaving p) with
        sexton := v.sexton.notify } j) : v.Counted j :=
      ⟨hj.1, exists_advance (y := .leaving p) on id hj.2⟩
    cases hs : v.sexton with
    | starting | marking | asleep => trivial
    | polling seen => rw [hs] at hkeeps; exact hkeeps
    | firing seen limit ks =>
        rw [hs] at hkeeps
        exact ⟨hkeeps.1, fun hc j hj => hkeeps.2 hc j (hcounted j (hs ▸ hj))⟩
    | weighing | comparing => rw [hs] at hfree; cases hfree
    | gone => rw [hs] at hkeeps; exact hkeeps
  guests := fun z hz => by
    have hon : Comes v (.leaving p) := h.guests (.notifying p) on
    exact (mem_advance hz).elim (fun hz => hz ▸ hon) (h.guests z)
  fired := fun k hk => by rw [Sexton.due_notify]; exact h.fired k hk

/-- A poll takes out what is due, and finds the next deadline. -/
theorem poll (h : Sound B v) {seen : Nat} {n : Int} (at_ : v.sexton = .polling seen) (hn : B ≤ n)
    (hn' : n < B + 2 ^ 63) :
    Sound B { v with
      schedule := v.schedule.poll n
      sexton := .firing seen (v.schedule.queue.poll (Nanos.instant n)).1.next?
        (v.schedule.queue.poll (Nanos.instant n)).2 } := by
  have hschedule := h.schedule.poll hn hn'
  exact
    { schedule := hschedule
      lock := by
        have hlock := h.lock
        rw [at_] at hlock
        exact hlock
      sexton := by
        refine ⟨h.keeps at_, fun _ k hk => ?_⟩
        cases hnext : (v.schedule.poll n).queue.next? with
        | none =>
            have hempty := (TimerQueue.next?_eq_none_iff hschedule.placed).mp hnext
            exact absurd (hempty ▸ hk.1 :) (Array.not_mem_empty k)
        | some deadline =>
            obtain ⟨r, hr, rfl, hle⟩ :=
              hschedule.ordered.next?_le hschedule.timed hschedule.placed hnext
            have hsize := hschedule.added_lt r (hschedule.heap_added r hr).1
            have hwindow := hschedule.timed.window r hsize
            exact ⟨_, hwindow.1, hnext, hle k hk.1⟩
      guests := fun x hx => (h.guests x hx).mono (fun _ hk => hk) (fun _ hk => hk) id
      fired := fun k hk => by
        rcases List.mem_append.mp hk with hk | hk
        · refine (h.fired k hk).imp_right fun hk' => ?_
          rw [at_] at hk'
          cases hk'
        · exact .inr hk }

theorem fire (h : Sound B v) {seen j : Nat} {limit : Option Nanos} {ks : List Nat}
    (at_ : v.sexton = .firing seen limit (j :: ks)) :
    Sound B { v with sexton := .firing seen limit ks, fired := v.fired ++ [j] } where
  schedule := h.schedule
  lock := by
    have hlock := h.lock
    rw [at_] at hlock
    exact hlock
  sexton := h.keeps at_
  guests := h.guests
  fired := fun k hk => by
    rcases h.fired k hk with hk | hk
    · exact .inl (List.mem_append_left _ hk)
    · rw [at_] at hk
      cases hk with
      | head => exact .inl List.mem_concat_self
      | tail _ hk => exact .inr hk

theorem step (h : Sound B v) (hs : Step B v v') : Sound B v' := by
  cases hs with
  | make task action now later near range =>
      refine h.reschedule (h.schedule.create task action now later near.1 near.2 range)
        (fun _ hk => hk) (fun _ hk => hk) rfl (fun _ hk _ => hk) fun k hk => ?_
      exact Schedule.due_create_of_lt task action (by
        rw [h.schedule.size]
        exact h.schedule.added_lt k (h.schedule.heap_added k hk).1)
  | orphan => exact h.flag id fun _ => rfl
  | @add k made new =>
      have hmem := h.schedule.mem_heap_add made
      have hadd := h.reschedule (h.schedule.add made new) (fun _ hk => .tail _ hk)
        (fun _ hk => hk) rfl
        (fun j hj hold => ((hmem j).mp hj).resolve_right fun hjk => new (hjk ▸ hold)) fun _ _ => rfl
      exact hadd.join rfl (List.mem_cons_self : k ∈ k :: _) (fun _ => rfl) fun _ => rfl
  | close => exact (h.flag (fun _ => rfl) id).join rfl rfl (fun _ => rfl) fun _ => rfl
  | enterCounting on free =>
      exact h.advance on (by rw [free]; rfl) (h.guests _ on :) nofun nofun
  | enterNotifying on free =>
      exact h.advance on (by rw [free]; rfl) (h.guests _ on :) nofun nofun
  | count on => exact h.count on
  | notify on => exact h.notify on
  | leave on =>
      exact h.advance on (by rw [(h.locked_of_mem on rfl).1]; rfl) (h.guests _ on :)
        (fun _ hc => hc) fun _ hn => hn
  | @mark k byOwner made =>
      have hmark := h.reschedule (h.schedule.mark made) (fun _ hk => hk) (fun _ hk => .tail _ hk)
        rfl (fun _ hk _ => hk) fun _ _ => rfl
      exact hmark.join rfl (List.mem_cons_self : k ∈ k :: _) (fun _ => rfl) fun _ => rfl
  | @withdraw k byOwner on =>
      have hcancelled : k ∈ v.schedule.cancelled := h.guests _ on
      have hwithdraw := h.reschedule (h.schedule.withdraw hcancelled byOwner) (fun _ hk => hk)
        (fun _ hk => hk) rfl (fun j hj _ => h.schedule.mem_heap_of_withdraw hj) fun _ _ => rfl
      exact hwithdraw.advance on rfl trivial nofun nofun
  | look at_ open_ => exact h.turn at_ rfl trivial rfl
  | quit at_ closed => exact h.turn at_ rfl (.inl closed) rfl
  | read at_ free => exact h.turn at_ rfl (Nat.le_refl _ : v.count ≤ v.count) rfl
  | lapse at_ alone => exact h.turn at_ rfl (.inr alone) rfl
  | poll at_ served since range => exact h.poll at_ since range
  | fire at_ => exact h.fire at_
  | lock at_ free => exact h.turn at_ (by rw [free]; rfl) (h.keeps at_ :) rfl
  | shut at_ closed =>
      exact h.turn at_ (by rw [(h.locked_of_sexton (by rw [at_]; rfl)).1]; rfl) (.inl closed) rfl
  | weigh at_ open_ =>
      -- Nobody has notified yet who asks to stop, as the flag is raised before.
      have hopen : ¬v.Notified .stop := fun ⟨x, hx, hp⟩ => by
        have hcomes := h.guests x hx
        cases x with
        | leaving p | returned p =>
            rw [of_decide_eq_true hp] at hcomes
            exact Bool.false_ne_true (open_.symm.trans hcomes)
        | _ => cases hp
      have hkeeps := h.keeps at_
      exact h.turn at_ rfl ⟨hkeeps.1, hkeeps.2, hopen⟩ rfl
  | again at_ other =>
      exact h.turn at_ (by rw [(h.locked_of_sexton (by rw [at_]; rfl)).1]; rfl) trivial rfl
  | late at_ same passed =>
      exact h.turn at_ (by rw [(h.locked_of_sexton (by rw [at_]; rfl)).1]; rfl) trivial rfl
  | sleep at_ same early =>
      obtain ⟨-, hcounted, hopen⟩ := h.keeps at_
      refine h.turn at_ (by rw [(h.locked_of_sexton (by rw [at_]; rfl)).1]; rfl) ⟨?_, hopen⟩ rfl
      exact fun k hk hn => hcounted same k (hn.counted hk)
  | stir at_ free => exact h.turn at_ rfl trivial rfl

end Sound

theorem Reached.sound (h : Reached B owner v) : Sound B v := by
  induction h with
  | start => exact .start B owner
  | step _ hs ih => exact ih.step hs

/-! ## What a thread does that nobody interrupts -/

theorem advance_cons {xs : List Guest} (h : v.guests = x :: xs) (y : Guest) :
    v.advance x y = { v with guests := y :: xs } := by
  rw [advance, h, List.erase_cons_head]

theorem Reached.notified {p : Purpose} (h : Reached B owner { v with
      locked := true, guests := .notifying p :: v.guests }) (hl : v.locked = false) :
    Reached B owner { v with sexton := v.sexton.notify, guests := .returned p :: v.guests } := by
  have hnotify := h.step (.notify (.head _))
  rw [advance_cons rfl] at hnotify
  have hleave := hnotify.step (.leave (.head _))
  rw [advance_cons rfl, ← hl] at hleave
  exact hleave

/-- A registration adds the timeout and rouses the thread if it sleeps. -/
theorem Reached.register (h : Reached B owner v) (hk : k < v.schedule.queue.timeouts.size)
    (hnew : k ∉ v.schedule.added) (hl : v.locked = false) : Reached B owner { v with
      schedule := v.schedule.add k
      count := v.count + 1
      sexton := v.sexton.notify
      guests := .returned (.register k) :: v.guests } := by
  have hadd := h.step (.add hk hnew)
  have henter := hadd.step (.enterCounting (.head _) hl)
  rw [advance_cons rfl] at henter
  have hcount := henter.step (.count (.head _))
  rw [advance_cons rfl] at hcount
  exact Reached.notified (v := { v with schedule := v.schedule.add k, count := v.count + 1 })
    hcount hl

/-- A stop raises the flag and rouses the thread if it sleeps. -/
theorem Reached.stop (h : Reached B owner v) (hl : v.locked = false) : Reached B owner { v with
    closing := true
    sexton := v.sexton.notify
    guests := .returned .stop :: v.guests } := by
  have henter := (h.step .close).step (.enterNotifying (.head _) hl)
  rw [advance_cons rfl] at henter
  exact Reached.notified (v := { v with closing := true }) henter hl

theorem Reached.cancel (h : Reached B owner v) (hk : k < v.schedule.queue.timeouts.size)
    (byOwner : Bool) : Reached B owner { v with
      schedule := v.schedule.cancel k byOwner
      guests := .withdrawn :: v.guests } := by
  have hwithdraw := (h.step (.mark byOwner hk)).step (.withdraw (.head _))
  rw [advance_cons rfl, Schedule.withdraw_mark] at hwithdraw
  exact hwithdraw

/-! ## Nothing is overslept -/

/-- A thread that sleeps until `limit` does not sleep beyond the deadline of the timeout with number
`k`. -/
def WakesFor (v : Belfry) (limit : Option Nanos) (k : Nat) : Prop :=
  ∃ l d, limit = some l ∧ v.schedule.queue.deadlineOf? k = some d ∧ d.before l = false

theorem InTime.wakesFor {limit : Option Nanos} (ht : InTime B v limit k) (h : Sound B v)
    (hk : k ∈ v.schedule.queue.heap) : v.WakesFor limit k := by
  obtain ⟨r, hr, hlimit, hle⟩ := ht
  have hsize := h.schedule.added_lt k (h.schedule.heap_added k hk).1
  have hwindow := h.schedule.timed.window k hsize
  refine ⟨_, _, hlimit, h.schedule.timed.deadlineOf? hsize, ?_⟩
  rw [Nanos.before_instant (by omega) (by omega), decide_eq_false_iff_not]
  omega

/-- A timeout that was registered has been fired or cancelled, or will be fired in this round, or is
in the heap. -/
theorem Sound.registered (h : Sound B v) (hn : v.Notified (.register k)) :
    k ∈ v.fired ∨ k ∈ v.schedule.cancelled ∨ k ∈ v.sexton.due ∨ k ∈ v.schedule.queue.heap := by
  obtain ⟨x, hx, hp⟩ := hn
  have hadded : k ∈ v.schedule.added := by
    have hcomes := h.guests x hx
    cases x with
    | leaving p | returned p =>
        rw [of_decide_eq_true hp] at hcomes
        exact hcomes
    | _ => cases hp
  by_cases hfired : k ∈ v.schedule.fired
  · exact (h.fired k hfired).imp_right fun hdue => .inr (.inl hdue)
  by_cases hcancelled : k ∈ v.schedule.cancelled
  · exact .inr (.inl hcancelled)
  · exact .inr (.inr (.inr (h.schedule.pending k hadded hfired hcancelled)))

/-- While the thread that fires timeouts sleeps and was not notified, nobody has notified it to
stop, and it wakes up in time for each timeout in the heap whose registration is over; each other
one that was registered has been fired or cancelled. While it does not sleep it may also be about to
fire it. The thread ends only when it is asked to or its engine is gone. -/
theorem Reached.never_oversleeps (h : Reached B owner v) :
    (∀ limit, v.sexton = .asleep limit false →
      ¬v.Notified .stop ∧
      (∀ k ∈ v.schedule.queue.heap, v.Notified (.register k) → v.WakesFor limit k) ∧
      ∀ k, v.Notified (.register k) →
        k ∈ v.fired ∨ k ∈ v.schedule.cancelled ∨ v.WakesFor limit k) ∧
    (∀ k, v.Notified (.register k) →
      k ∈ v.fired ∨ k ∈ v.schedule.cancelled ∨ k ∈ v.sexton.due ∨ k ∈ v.schedule.queue.heap) ∧
    (v.sexton = .gone → v.closing = true ∨ v.orphaned = true) := by
  have hsound := h.sound
  refine ⟨fun limit at_ => ?_, fun k hn => hsound.registered hn, fun at_ => hsound.keeps at_⟩
  obtain ⟨htime, hstop⟩ := hsound.keeps at_
  have hwakes : ∀ k ∈ v.schedule.queue.heap, v.Notified (.register k) → v.WakesFor limit k :=
    fun k hk hn => (htime k hk hn).wakesFor hsound hk
  refine ⟨hstop, hwakes, fun k hn => ?_⟩
  rcases hsound.registered hn with hfired | hcancelled | hdue | hk
  · exact .inl hfired
  · exact .inr (.inl hcancelled)
  · rw [at_] at hdue
    cases hdue
  · exact .inr (.inr (hwakes k hk hn))

/-- A timeout is added after the poll, and its registration is counted only when the thread sleeps
without a limit. It is notified, polls again and sleeps until the deadline, while somebody has asked
to stop and waits for the lock. -/
theorem never_oversleeps_between_steps :
    ∃ v v' : Belfry, Reached 0 7 v ∧ v.sexton = .asleep none false ∧ .counting 0 ∈ v.guests ∧
      v.schedule.queue.heap = #[0] ∧
      Reached 0 7 v' ∧ v'.sexton = .asleep (some 5) false ∧ v'.Notified (.register 0) ∧
      v'.closing = true ∧ v'.WakesFor (some 5) 0 := by
  have h1 := (@Reached.start 0 7).step
    (@Step.make 0 _ ⟨0⟩ 0 5 .resume (by decide) (by decide) (by decide) (by decide))
  have h2 := (((h1.step (.look rfl rfl)).step (.read rfl rfl)).step
    (@Step.poll 0 _ 0 1 rfl rfl (by decide) (by decide)))
  have h3 := ((h2.step (@Step.add 0 _ 0 (by decide) (by decide))).step (.lock rfl rfl)).step
    (.weigh rfl rfl)
  have h4 := (h3.step (@Step.sleep 0 _ 0 none 1 rfl rfl nofun)).step (.enterCounting (.head _) rfl)
  have h5 := ((h4.step (.count (.head _))).step (.notify (.head _))).step (.leave (.head _))
  have h6 := (((h5.step (.stir rfl rfl)).step (.look rfl rfl)).step (.read rfl rfl)).step
    (@Step.poll 0 _ 1 3 rfl rfl (by decide) (by decide))
  have h7 := ((h6.step (@Step.lock 0 _ 1 (some 5) (by decide +kernel) rfl)).step
    (.weigh rfl rfl)).step (@Step.sleep 0 _ 1 (some 5) 3 rfl rfl
      fun _ hdeadline => by cases hdeadline; decide)
  have h8 := h7.step .close
  have hon : .returned (.register 0) ∈ [Guest.arriving .stop, .returned (.register 0)] :=
    .tail _ (.head _)
  obtain ⟨hasleep, -⟩ := h8.never_oversleeps
  refine ⟨_, _, h4, rfl, .head _, by decide +kernel, h8, rfl, ⟨_, hon, rfl⟩, rfl, ?_⟩
  exact (hasleep _ rfl).2.1 0 (by decide +kernel) ⟨_, hon, rfl⟩

end Belfry

end GreenThreads

import GreenThreads.Parker

/-!
# Threads that sleep on a parker

A thread that parks changes the status of its parker first and goes to sleep under a lock later; a
thread that wakes it changes the status without the lock, and takes the lock only to notify. The
owner can also wake up by itself, so it looks at the status again each time. Between any two of
these steps other threads can do theirs.

Parks are numbered in the order in which their beginnings took effect.
-/

namespace GreenThreads

/-- How far the owner of a parker is with a park, which may be bounded. -/
inductive Sleeper where
  /-- It does not park. -/
  | awake
  /-- It is about to read the status. -/
  | looking (timed : Bool)
  /-- It has read this status and is about to replace it. -/
  | judging (timed : Bool) (seen : Parker)
  /-- It waits for the lock. -/
  | locking (timed : Bool)
  /-- It has the lock and is about to read the status. -/
  | checking (timed : Bool)
  /-- It has the lock and found that it has to wait. -/
  | entering (timed : Bool)
  /-- It sleeps; it may have been notified. -/
  | asleep (timed notified : Bool)
  /-- It has the lock and is done with waiting. -/
  | unlocking
  /-- It ends the park, from one waiting state and then from the other. -/
  | ending (native : Bool)
  /-- It found that somebody parks here already. -/
  | faulted
deriving DecidableEq, Repr

namespace Sleeper

/-- It has the lock. -/
def holds : Sleeper → Bool
  | checking _ | entering _ | unlocking => true
  | awake | looking _ | judging _ _ | locking _ | asleep _ _ | ending _ | faulted => false

/-- Its park has begun and is not over. -/
def inside : Sleeper → Bool
  | locking _ | checking _ | entering _ | asleep _ _ | unlocking | ending _ => true
  | awake | looking _ | judging _ _ | faulted => false

/-- Only a notification helps it on for certain. -/
def listens : Sleeper → Bool
  | entering _ | asleep _ false => true
  | awake | looking _ | judging _ _ | locking _ | checking _ | asleep _ true | unlocking | ending _
  | faulted => false

/-- A notification reaches a thread that sleeps. -/
def notify : Sleeper → Sleeper
  | asleep timed _ => asleep timed true
  | o => o

theorem holds_notify (o : Sleeper) : o.notify.holds = o.holds := by
  cases o <;> rfl

theorem listens_notify {o : Sleeper} (h : o.holds = false) : o.notify.listens = false := by
  cases o with
  | entering => cases h
  | _ => rfl

end Sleeper

/-- How far a thread is that wakes the owner: because it is asked to, or because a time is over. -/
inductive Rouser where
  /-- It is about to read the status. -/
  | loading
  /-- It has read this status and is about to replace it. -/
  | comparing (seen : Parker)
  /-- A time is over, and it frees the owner from one waiting state and then from the other. -/
  | trying (native : Bool)
  /-- It has freed this park and waits for the lock. -/
  | freed (park : Nat)
  /-- It has the lock and is about to notify. -/
  | notifying (park : Nat)
  /-- It has notified and has the lock. -/
  | notified (park : Nat)
  /-- It has returned. It freed this park, or there is a permit for it. -/
  | returned (found : Released) (park : Nat)
  /-- A time was over, and nobody waited. -/
  | missed
deriving DecidableEq, Repr

namespace Rouser

/-- It has the lock. -/
def holds : Rouser → Bool
  | notifying _ | notified _ => true
  | loading | comparing _ | trying _ | freed _ | returned _ _ | missed => false

/-- It has freed this park and has not notified the owner yet. -/
def owes (park : Nat) : Rouser → Bool
  | freed n | notifying n => n == park
  | loading | comparing _ | trying _ | notified _ | returned _ _ | missed => false

/-- What it does after it has replaced the status, when so many parks have begun. -/
def after (begun : Nat) : Released → Rouser
  | .native => freed (begun - 1)
  | .permit => returned .permit begun
  | .cooperative => returned .cooperative begun

end Rouser

/-- A parker with its lock and the threads that use it. -/
structure Berth where
  status : Parker := .free
  locked : Bool := false
  owner : Sleeper := .awake
  rousers : List Rouser := []
  /-- Of each park whose beginning took effect, whether it had to block. -/
  begun : List Bool := []

namespace Berth

variable {b b' : Berth} {r r' : Rouser} {o o' : Sleeper}

/-- The last park that has begun. -/
abbrev latest (b : Berth) : Nat := b.begun.length - 1

/-- A thread that wakes gets on. -/
def advance (b : Berth) (r r' : Rouser) : Berth :=
  { b with rousers := r' :: b.rousers.erase r }

/-- What can happen at once. -/
inductive Step : Berth → Berth → Prop
  -- The owner begins a park
  | call {b : Berth} (timed : Bool) (at_ : b.owner = .awake) :
      Step b { b with owner := .looking timed }
  | look {b : Berth} {timed : Bool} (at_ : b.owner = .looking timed) :
      Step b { b with owner := .judging timed b.status }
  | clash {b : Berth} {timed : Bool} {p : Parker} {f : Fault} (at_ : b.owner = .judging timed p)
      (refused : p.begin true = .error f) : Step b { b with owner := .faulted }
  | retry {b : Berth} {timed : Bool} {p : Parker} {q : Parker × Bool}
      (at_ : b.owner = .judging timed p) (allowed : p.begin true = .ok q) (other : b.status ≠ p) :
      Step b { b with owner := .looking timed }
  | begin {b : Berth} {timed : Bool} {p : Parker} {q : Parker × Bool}
      (at_ : b.owner = .judging timed p) (allowed : p.begin true = .ok q) (same : b.status = p) :
      Step b { b with
        status := q.1
        begun := b.begun ++ [q.2]
        owner := if q.2 then .locking timed else .awake }
  -- It waits
  | lock {b : Berth} {timed : Bool} (at_ : b.owner = .locking timed) (open_ : b.locked = false) :
      Step b { b with owner := .checking timed, locked := true }
  | stay {b : Berth} {timed : Bool} (at_ : b.owner = .checking timed)
      (waits : b.status = .waitingNative) : Step b { b with owner := .entering timed }
  | pass {b : Berth} {timed : Bool} (at_ : b.owner = .checking timed)
      (free : b.status ≠ .waitingNative) : Step b { b with owner := .unlocking }
  /-- The time of the park is over. -/
  | lapse {b : Berth} (at_ : b.owner = .entering true) : Step b { b with owner := .unlocking }
  | sleep {b : Berth} {timed : Bool} (at_ : b.owner = .entering timed) :
      Step b { b with owner := .asleep timed false, locked := false }
  /-- The owner was notified, its time is over, or it wakes for no reason. -/
  | stir {b : Berth} {timed notified : Bool} (at_ : b.owner = .asleep timed notified) :
      Step b { b with owner := .locking timed }
  | unlock {b : Berth} (at_ : b.owner = .unlocking) :
      Step b { b with owner := .ending false, locked := false }
  -- It ends the park
  | endWaiting {b : Berth} (at_ : b.owner = .ending false) (waits : b.status = .waiting) :
      Step b { b with owner := .awake, status := .free }
  | endOther {b : Berth} (at_ : b.owner = .ending false) (other : b.status ≠ .waiting) :
      Step b { b with owner := .ending true }
  | endNative {b : Berth} (at_ : b.owner = .ending true) (waits : b.status = .waitingNative) :
      Step b { b with owner := .awake, status := .free }
  | endFreed {b : Berth} (at_ : b.owner = .ending true) (other : b.status ≠ .waitingNative) :
      Step b { b with owner := .awake }
  -- A thread unparks the owner
  | unpark {b : Berth} : Step b { b with rousers := .loading :: b.rousers }
  | load {b : Berth} (on : .loading ∈ b.rousers) (other : b.status ≠ .permitted) :
      Step b (b.advance .loading (.comparing b.status))
  | keep {b : Berth} (on : .loading ∈ b.rousers) (kept : b.status = .permitted) :
      Step b (b.advance .loading (.returned .permit b.begun.length))
  | reload {b : Berth} {p : Parker} (on : .comparing p ∈ b.rousers) (other : b.status ≠ p) :
      Step b (b.advance (.comparing p) .loading)
  | swap {b : Berth} {p : Parker} (on : .comparing p ∈ b.rousers) (same : b.status = p) :
      Step b { b.advance (.comparing p) (.after b.begun.length p.release.2) with
        status := p.release.1 }
  -- A time is over
  | expire {b : Berth} : Step b { b with rousers := .trying false :: b.rousers }
  | catchWaiting {b : Berth} (on : .trying false ∈ b.rousers) (waits : b.status = .waiting) :
      Step b { b.advance (.trying false) (.after b.begun.length .cooperative) with status := .free }
  | tryNative {b : Berth} (on : .trying false ∈ b.rousers) (other : b.status ≠ .waiting) :
      Step b (b.advance (.trying false) (.trying true))
  | catchNative {b : Berth} (on : .trying true ∈ b.rousers) (waits : b.status = .waitingNative) :
      Step b { b.advance (.trying true) (.after b.begun.length .native) with status := .free }
  | miss {b : Berth} (on : .trying true ∈ b.rousers) (other : b.status ≠ .waitingNative) :
      Step b (b.advance (.trying true) .missed)
  -- A thread that has freed the owner notifies it
  | enter {b : Berth} {n : Nat} (on : .freed n ∈ b.rousers) (open_ : b.locked = false) :
      Step b { b.advance (.freed n) (.notifying n) with locked := true }
  | notify {b : Berth} {n : Nat} (on : .notifying n ∈ b.rousers) :
      Step b { b.advance (.notifying n) (.notified n) with owner := b.owner.notify }
  | leave {b : Berth} {n : Nat} (on : .notified n ∈ b.rousers) :
      Step b { b.advance (.notified n) (.returned .native n) with locked := false }

/-- What can be reached from a parker that nobody has used. -/
inductive Reached : Berth → Prop
  | start : Reached {}
  | step {b b' : Berth} (h : Reached b) (s : Step b b') : Reached b'

/-! ## What holds between any two steps -/

/-- What the owner relies on as far as it is. -/
def Rests (status : Parker) (begun : List Bool) : Sleeper → Prop
  | .awake | .looking _ => status ≠ .waitingNative
  | .judging _ p => status ≠ .waitingNative ∧ p.isWaiting = false
  | .faulted => False
  | .locking _ | .checking _ | .entering _ | .asleep _ _ | .unlocking | .ending _ =>
      begun[begun.length - 1]? = some true

/-- What a thread that wakes has achieved as far as it is. -/
def Rouses (status : Parker) (begun : List Bool) : Rouser → Prop
  | .loading | .trying _ | .missed => True
  | .comparing p => p ≠ .waiting
  | .freed n | .notifying n | .notified n | .returned .native n =>
      begun[n]? = some true ∧ (status = .waitingNative → n + 1 < begun.length)
  | .returned .permit n => begun.length = n ∧ status = .permitted ∨ begun[n]? = some false
  | .returned .cooperative _ => False

structure Sound (b : Berth) : Prop where
  /-- Whoever has the lock is the only one. -/
  lock : b.owner.holds.toNat + b.rousers.countP Rouser.holds = b.locked.toNat
  status : b.status ≠ .waiting
  owner : Rests b.status b.begun b.owner
  rousers : ∀ r ∈ b.rousers, Rouses b.status b.begun r
  /-- Somebody who is about to sleep or sleeps still has to be freed, or will be notified. -/
  heard : b.owner.listens = true →
    b.status = .waitingNative ∨ ∃ r ∈ b.rousers, r.owes b.latest = true

theorem Rests.unblocked {p q : Parker} {begun : List Bool} (h : Rests p begun o)
    (hq : q ≠ .waitingNative) : Rests q begun o := by
  cases o with
  | awake => exact hq
  | looking timed => exact hq
  | judging timed seen => exact ⟨hq, h.2⟩
  | _ => exact h

theorem Rouses.unblocked {p q : Parker} {begun : List Bool} (h : Rouses p begun r)
    (hq : q ≠ .waitingNative) (hpermit : p = .permitted → q = .permitted) : Rouses q begun r := by
  cases r with
  | loading | trying | missed => trivial
  | comparing => exact h
  | freed | notifying | notified => exact ⟨h.1, fun hw => absurd hw hq⟩
  | returned found n =>
      cases found with
      | cooperative => exact h
      | native => exact ⟨h.1, fun hw => absurd hw hq⟩
      | permit => exact h.imp (fun ⟨hn, hp⟩ => ⟨hn, hpermit hp⟩) id

/-- A park begins: it waits if there is no permit, and it takes the permit if there is one. -/
theorem Rouses.begin {p : Parker} {q : Parker × Bool} {begun : List Bool} (h : Rouses p begun r)
    (hq : p.begin true = .ok q) : Rouses q.1 (begun ++ [q.2]) r := by
  have hearlier {n : Nat} {x : Bool} (hn : begun[n]? = some x) :
      (begun ++ [q.2])[n]? = some x ∧ n + 1 < (begun ++ [q.2]).length := by
    obtain ⟨hlt, -⟩ := List.getElem?_eq_some_iff.mp hn
    exact ⟨by rw [List.getElem?_append_left hlt, hn], by simpa using hlt⟩
  cases r with
  | loading | trying | missed => trivial
  | comparing => exact h
  | freed | notifying | notified => exact ⟨(hearlier h.1).1, fun _ => (hearlier h.1).2⟩
  | returned found n =>
      cases found with
      | cooperative => exact h
      | native => exact ⟨(hearlier h.1).1, fun _ => (hearlier h.1).2⟩
      | permit =>
          rcases h with ⟨rfl, rfl⟩ | hn
          · cases hq
            exact .inr List.getElem?_concat_length
          · exact .inr (hearlier hn).1

theorem countP_advance (h : r ∈ b.rousers) (r' : Rouser) :
    (b.advance r r').rousers.countP Rouser.holds + r.holds.toNat =
      b.rousers.countP Rouser.holds + r'.holds.toNat := by
  have hone (s : Rouser) : (if s.holds then 1 else 0) = s.holds.toNat := by
    cases s.holds <;> rfl
  rw [(List.perm_cons_erase h).countP_eq, advance, List.countP_cons, List.countP_cons, hone, hone]
  omega

theorem mem_advance {s : Rouser} (h : s ∈ (b.advance r r').rousers) : s = r' ∨ s ∈ b.rousers := by
  cases h with
  | head => exact .inl rfl
  | tail _ h => exact .inr (List.mem_of_mem_erase h)

theorem exists_owes_advance {n : Nat} (h : ∃ s ∈ b.rousers, s.owes n = true)
    (hr : r.owes n = true → r'.owes n = true) :
    ∃ s ∈ (b.advance r r').rousers, s.owes n = true := by
  obtain ⟨s, hs, hn⟩ := h
  by_cases hsr : s = r
  · exact ⟨r', .head _, hr (hsr ▸ hn)⟩
  · exact ⟨s, .tail _ ((List.mem_erase_of_ne hsr).mpr hs), hn⟩

namespace Sound

theorem start : Sound {} where
  lock := rfl
  status := nofun
  owner := nofun
  rousers := fun _ hr => (List.not_mem_nil hr).elim
  heard := nofun

theorem locked_of_owner (h : Sound b) (ho : b.owner.holds = true) : b.locked = true := by
  have hlock := h.lock
  rw [ho, Bool.toNat_true] at hlock
  exact Bool.toNat_eq_one.mp (Nat.le_antisymm b.locked.toNat_le (hlock ▸ Nat.le_add_right _ _))

theorem locked_of_mem (h : Sound b) (on : r ∈ b.rousers) (hr : r.holds = true) :
    b.locked = true ∧ b.owner.holds = false := by
  have hlock := h.lock
  have hbusy : 0 < b.rousers.countP Rouser.holds := List.countP_pos_iff.mpr ⟨r, on, hr⟩
  have hone := b.locked.toNat_le
  exact ⟨Bool.toNat_eq_one.mp (by omega), Bool.toNat_eq_zero.mp (by omega)⟩

theorem rests (h : Sound b) (at_ : b.owner = o) : Rests b.status b.begun o := at_ ▸ h.owner

theorem turn (h : Sound b) (at_ : b.owner = o) {l : Bool}
    (hl : o'.holds.toNat + b.locked.toNat = o.holds.toNat + l.toNat)
    (hrests : Rests b.status b.begun o → Rests b.status b.begun o')
    (hheard : o'.listens = true → o.listens = true ∨ b.status = .waitingNative) :
    Sound { b with owner := o', locked := l } where
  lock := by
    have := h.lock
    rw [at_] at this
    simp only
    omega
  status := h.status
  owner := hrests (h.rests at_)
  rousers := h.rousers
  heard := fun ho => (hheard ho).elim (fun ho => h.heard (at_ ▸ ho)) .inl

theorem advance (h : Sound b) (on : r ∈ b.rousers) {l : Bool}
    (hl : r'.holds.toNat + b.locked.toNat = r.holds.toNat + l.toNat)
    (hr' : Rouses b.status b.begun r') (howes : ∀ n, r.owes n = true → r'.owes n = true) :
    Sound { b.advance r r' with locked := l } where
  lock := by
    have := h.lock
    have := countP_advance on r'
    simp only [Berth.advance] at *
    omega
  status := h.status
  owner := h.owner
  rousers := fun s hs => (mem_advance hs).elim (fun hs => hs ▸ hr') (h.rousers s)
  heard := fun ho => (h.heard ho).imp id fun hs => exists_owes_advance hs (howes _)

theorem join (h : Sound b) (hl : r.holds = false) (hr : Rouses b.status b.begun r) :
    Sound { b with rousers := r :: b.rousers } where
  lock := by
    have := h.lock
    simp only [List.countP_cons, hl, Bool.false_eq_true, ↓reduceIte, Nat.add_zero]
    exact this
  status := h.status
  owner := h.owner
  rousers := fun s hs => by
    cases hs with
    | head => exact hr
    | tail _ hs => exact h.rousers s hs
  heard := fun ho => (h.heard ho).imp id fun ⟨s, hs, hn⟩ => ⟨s, .tail _ hs, hn⟩

/-- The status is replaced by a thread that wakes, when the owner does not wait any more or did not
wait at all. -/
theorem swap (h : Sound b) (on : r ∈ b.rousers) (hl : r.holds = false) (hl' : r'.holds = false)
    {p : Parker} (hp : p = .free ∨ p = .permitted) (hr' : Rouses p b.begun r')
    (hkept : ∀ s ∈ b.rousers, Rouses b.status b.begun s → Rouses p b.begun s)
    (howes : r.owes b.latest = true ∨ b.status = .waitingNative → r'.owes b.latest = true) :
    Sound { b.advance r r' with status := p } where
  lock := by
    have := h.lock
    have := countP_advance on r'
    rw [hl, hl'] at this
    simp only [Berth.advance] at *
    omega
  status := by
    rcases hp with rfl | rfl <;> exact nofun
  owner := h.owner.unblocked (by rcases hp with rfl | rfl <;> exact nofun)
  rousers := fun s hs => (mem_advance hs).elim (fun hs => hs ▸ hr')
    fun hs => hkept s hs (h.rousers s hs)
  heard := fun ho => .inr <| (h.heard ho).elim
    (fun hw => ⟨r', .head _, howes (.inr hw)⟩)
    fun hs => exists_owes_advance hs fun hr => howes (.inl hr)

theorem free (h : Sound b) (on : r ∈ b.rousers) (hl : r.holds = false)
    (hw : b.status = .waitingNative) :
    Sound { b.advance r (.after b.begun.length .native) with status := .free } := by
  have hpark : b.begun[b.latest]? = some true := by
    have hrests := h.owner
    cases ho : b.owner with
    | awake | looking => rw [ho] at hrests; exact absurd hw hrests
    | judging => rw [ho] at hrests; exact absurd hw hrests.1
    | faulted => rw [ho] at hrests; cases hrests
    | _ => rw [ho] at hrests; exact hrests
  exact h.swap on hl rfl (.inl rfl) ⟨hpark, nofun⟩
    (fun s _ hs => hs.unblocked nofun (by rw [hw]; exact nofun))
    fun _ => beq_self_eq_true b.latest

theorem begin (h : Sound b) {timed : Bool} {q : Parker × Bool}
    (at_ : b.owner = .judging timed b.status) (hq : b.status.begin true = .ok q) :
    Sound { b with
      status := q.1
      begun := b.begun ++ [q.2]
      owner := if q.2 then .locking timed else .awake } where
  lock := by
    have := h.lock
    rw [at_] at this
    rw [← this]
    cases q.2 <;> rfl
  status := by
    cases hp : b.status with
    | free => rw [hp] at hq; cases hq; exact nofun
    | permitted => rw [hp] at hq; cases hq; exact nofun
    | waiting | waitingNative => rw [hp] at hq; cases hq
  owner := by
    cases hp : b.status with
    | free =>
        rw [hp] at hq
        cases hq
        simp [Rests]
    | permitted =>
        rw [hp] at hq
        cases hq
        simp [Rests]
    | waiting | waitingNative => rw [hp] at hq; cases hq
  rousers := fun r hr => (h.rousers r hr).begin hq
  heard := by
    cases q.2 <;> exact nofun

theorem finish (h : Sound b) {native : Bool} (at_ : b.owner = .ending native) {p : Parker}
    (hp : b.status = .waitingNative ∧ p = .free ∨ b.status ≠ .waitingNative ∧ p = b.status) :
    Sound { b with owner := .awake, status := p } where
  lock := by
    have := h.lock
    rw [at_] at this
    exact this
  status := by
    rcases hp with ⟨-, rfl⟩ | ⟨-, rfl⟩
    · exact nofun
    · exact h.status
  owner := by
    rcases hp with ⟨-, rfl⟩ | ⟨hp, rfl⟩
    · exact nofun
    · exact hp
  rousers := fun r hr => by
    rcases hp with ⟨hw, rfl⟩ | ⟨-, rfl⟩
    · exact (h.rousers r hr).unblocked nofun (by rw [hw]; exact nofun)
    · exact h.rousers r hr
  heard := nofun

theorem notify (h : Sound b) {n : Nat} (on : .notifying n ∈ b.rousers) :
    Sound { b.advance (.notifying n) (.notified n) with owner := b.owner.notify } := by
  have hcount := countP_advance on (.notified n)
  have hon : Rouses b.status b.begun (.notified n) := h.rousers (.notifying n) on
  exact {
    lock := by
      have := h.lock
      simp only [Rouser.holds, Berth.advance, Sleeper.holds_notify] at *
      omega
    status := h.status
    owner := by
      have := h.owner
      cases ho : b.owner with
      | asleep timed notified => rw [ho] at this; exact this
      | _ => rw [ho] at this; exact this
    rousers := fun s hs => (mem_advance hs).elim (fun hs => hs ▸ hon) (h.rousers s)
    heard := fun ho => by
      rw [Sleeper.listens_notify (h.locked_of_mem on rfl).2] at ho
      cases ho }

theorem step (h : Sound b) (hs : Step b b') : Sound b' := by
  cases hs with
  | call timed at_ => exact h.turn at_ rfl id nofun
  | look at_ =>
      refine h.turn at_ rfl (fun hrests => ⟨hrests, ?_⟩) nofun
      cases hp : b.status with
      | free | permitted => rfl
      | waiting => exact absurd hp h.status
      | waitingNative => exact absurd hp hrests
  | @clash timed p f at_ refused =>
      -- Nobody else parks here.
      cases p with
      | free | permitted => cases refused
      | waiting | waitingNative => cases (h.rests at_).2
  | retry at_ => exact h.turn at_ rfl (·.1) nofun
  | begin at_ allowed same =>
      cases same
      exact h.begin at_ allowed
  | lock at_ open_ => exact h.turn at_ (by rw [open_]; rfl) id nofun
  | stay at_ waits => exact h.turn at_ rfl id fun _ => .inr waits
  | pass at_ => exact h.turn at_ rfl id nofun
  | lapse at_ => exact h.turn at_ rfl id nofun
  | sleep at_ =>
      have hlocked := h.locked_of_owner (by rw [at_]; rfl)
      exact h.turn at_ (by rw [hlocked]; rfl) id fun _ => .inl rfl
  | stir at_ => exact h.turn at_ rfl id nofun
  | unlock at_ =>
      have hlocked := h.locked_of_owner (by rw [at_]; rfl)
      exact h.turn at_ (by rw [hlocked]; rfl) id nofun
  | endWaiting at_ waits => exact absurd waits h.status
  | endOther at_ => exact h.turn at_ rfl id nofun
  | endNative at_ waits => exact h.finish at_ (.inl ⟨waits, rfl⟩)
  | endFreed at_ other => exact h.finish at_ (.inr ⟨other, rfl⟩)
  | unpark => exact h.join rfl trivial
  | load on other => exact h.advance on rfl h.status nofun
  | keep on kept => exact h.advance on rfl (.inl ⟨rfl, kept⟩) nofun
  | reload on other => exact h.advance on rfl trivial nofun
  | @swap p on same =>
      cases same
      cases hp : b.status with
      | waiting => exact absurd hp h.status
      | waitingNative => exact h.free (hp ▸ on) rfl hp
      | free | permitted =>
          exact h.swap (hp ▸ on) rfl rfl (.inr rfl) (.inl ⟨rfl, rfl⟩)
            (fun s _ hs => hs.unblocked nofun fun _ => rfl) (by simp [hp, Rouser.owes])
  | expire => exact h.join rfl trivial
  | catchWaiting on waits => exact absurd waits h.status
  | tryNative on other => exact h.advance on rfl trivial nofun
  | catchNative on waits => exact h.free on rfl waits
  | miss on other => exact h.advance on rfl trivial nofun
  | enter on open_ => exact h.advance on (by rw [open_]; rfl) (h.rousers _ on :) fun _ hn => hn
  | notify on => exact h.notify on
  | leave on =>
      exact h.advance on (by rw [(h.locked_of_mem on rfl).1]; rfl) (h.rousers _ on :) nofun

end Sound

theorem Reached.sound (h : Reached b) : Sound b := by
  induction h with
  | start => exact .start
  | step _ hs ih => exact ih.step hs

/-! ## What a parker does -/

theorem advance_cons {rs : List Rouser} (h : b.rousers = r :: rs) (r' : Rouser) :
    b.advance r r' = { b with rousers := r' :: rs } := by
  rw [advance, h, List.erase_cons_head]

theorem Reached.notified {n : Nat} (h : Reached { b with rousers := .freed n :: b.rousers })
    (hl : b.locked = false) : Reached { b with
      owner := b.owner.notify
      rousers := .returned .native n :: b.rousers } := by
  have henter := h.step (.enter (.head _) hl)
  rw [advance_cons rfl] at henter
  have hnotify := henter.step (.notify (.head _))
  rw [advance_cons rfl] at hnotify
  have hleave := hnotify.step (.leave (.head _))
  rw [advance_cons rfl, ← hl] at hleave
  exact hleave

/-- A wake that nobody interrupts is a release. -/
theorem Reached.unpark (h : Reached b) (hl : b.locked = false) : ∃ n, Reached { b with
    status := b.status.release.1
    owner := if b.status.release.2 = .native then b.owner.notify else b.owner
    rousers := .returned b.status.release.2 n :: b.rousers } := by
  have hcome := h.step .unpark
  cases hp : b.status with
  | permitted =>
      have hkeep := hcome.step (.keep (.head _) hp)
      rw [advance_cons rfl, hp] at hkeep
      exact ⟨_, hkeep⟩
  | free =>
      have hload := hcome.step (.load (.head _) (by rw [hp]; exact nofun))
      rw [advance_cons rfl] at hload
      have hswap := hload.step (.swap (.head _) rfl)
      rw [advance_cons rfl, hp] at hswap
      exact ⟨_, hswap⟩
  | waiting => exact absurd hp h.sound.status
  | waitingNative =>
      have hload := hcome.step (.load (.head _) (by rw [hp]; exact nofun))
      rw [advance_cons rfl] at hload
      have hswap := hload.step (.swap (.head _) rfl)
      rw [advance_cons rfl, hp] at hswap
      exact ⟨_, Reached.notified (b := { b with status := .free }) hswap hl⟩

/-- A time that is over, when nobody interrupts it, frees the owner if it waits. -/
theorem Reached.expire (h : Reached b) (hl : b.locked = false) : ∃ r, Reached { b with
    status := b.status.wakeWaiting.1
    owner := if b.status.wakeWaiting.2 = some .native then b.owner.notify else b.owner
    rousers := r :: b.rousers } := by
  have hcome := h.step .expire
  have htry := hcome.step (.tryNative (.head _) h.sound.status)
  rw [advance_cons rfl] at htry
  by_cases hp : b.status = .waitingNative
  · have hcatch := htry.step (.catchNative (.head _) hp)
    rw [advance_cons rfl] at hcatch
    rw [hp]
    exact ⟨_, Reached.notified (b := { b with status := .free }) hcatch hl⟩
  · have hmiss := htry.step (.miss (.head _) hp)
    rw [advance_cons rfl] at hmiss
    cases hq : b.status with
    | waitingNative => exact absurd hq hp
    | waiting => exact absurd hq h.sound.status
    | free => rw [hq] at hmiss; exact ⟨_, hmiss⟩
    | permitted => rw [hq] at hmiss; exact ⟨_, hmiss⟩

theorem Reached.parkUnwoken (h : Reached b) (hl : b.locked = false) (ho : b.owner = .awake) :
    ∃ p n, b.status.parkUnwoken = .ok p ∧ Reached { b with status := p, begun := n } := by
  have hsound := h.sound
  have hcall := (h.step (.call true ho)).step (.look rfl)
  obtain ⟨status, locked, owner, rousers, begun⟩ := b
  cases hl
  cases ho
  cases status with
  | permitted =>
      have hbegin := hcall.step (.begin rfl rfl rfl)
      exact ⟨.free, _, rfl, hbegin⟩
  | free =>
      have hbegin := hcall.step (.begin rfl rfl rfl)
      have hstay := (hbegin.step (.lock rfl rfl)).step (.stay rfl rfl)
      have hunlock := (hstay.step (.lapse rfl)).step (.unlock rfl)
      have hend := (hunlock.step (.endOther rfl nofun)).step (.endNative rfl rfl)
      exact ⟨.free, _, rfl, hend⟩
  | waiting => exact absurd rfl hsound.status
  | waitingNative => exact absurd rfl hsound.owner

/-! ## No wake is lost -/

/-- An owner that sleeps and was not notified still has to be freed, or whoever freed its park is
about to notify it. The status is that of a blocked thread only inside of a park, and no park finds
another. A wake that has returned freed a park, which does not wait any more, or left a permit: the
permit is still there, or the next park whose beginning took effect did not block. -/
theorem Reached.loses_no_wakeup (h : Reached b) :
    (∀ timed, b.owner = .asleep timed false →
      b.status = .waitingNative ∨ ∃ r ∈ b.rousers, r.owes b.latest = true) ∧
    (b.status = .waitingNative → b.owner.inside = true) ∧
    b.owner ≠ .faulted ∧
    ∀ found n, .returned found n ∈ b.rousers →
      found = .native ∧ b.begun[n]? = some true ∧
        (n = b.latest → b.status ≠ .waitingNative) ∨
      found = .permit ∧
        (b.begun.length = n ∧ b.status = .permitted ∨ b.begun[n]? = some false) := by
  have hsound := h.sound
  have hrests := hsound.owner
  refine ⟨fun timed ho => hsound.heard (by rw [ho]; rfl), fun hw => ?_, fun ho => ?_,
    fun found n hr => ?_⟩
  · cases ho : b.owner with
    | awake | looking => rw [ho] at hrests; exact absurd hw hrests
    | judging => rw [ho] at hrests; exact absurd hw hrests.1
    | faulted => rw [ho] at hrests; cases hrests
    | _ => rfl
  · rw [ho] at hrests
    cases hrests
  · have hrouses := hsound.rousers _ hr
    cases found with
    | cooperative => cases hrouses
    | native =>
        refine .inl ⟨rfl, hrouses.1, fun hn hw => ?_⟩
        have := hrouses.2 hw
        simp only [latest] at hn
        omega
    | permit => exact .inr ⟨rfl, hrouses⟩

/-- The owner is freed while it is about to sleep, and sleeps before it is notified; then a permit
is left for the park that comes next. -/
theorem loses_no_wakeup_between_steps :
    (∃ b : Berth, Reached b ∧ b.owner = .asleep false false ∧ b.status = .free ∧
      ∃ r ∈ b.rousers, r.owes b.latest = true) ∧
    ∃ b : Berth, Reached b ∧ .returned .native 0 ∈ b.rousers ∧ b.begun[0]? = some true ∧
      .returned .permit 1 ∈ b.rousers ∧ b.owner = .awake ∧ b.begun[1]? = some false := by
  have h0 : Reached ⟨.free, false, .judging false .free, [], []⟩ :=
    (Reached.start.step (.call false rfl)).step (.look rfl)
  have h1 : Reached ⟨.waitingNative, false, .locking false, [], [true]⟩ :=
    h0.step (.begin (q := (.waitingNative, true)) rfl rfl rfl)
  have h2 : Reached ⟨.waitingNative, true, .entering false, [], [true]⟩ :=
    (h1.step (.lock rfl rfl)).step (.stay rfl rfl)
  have h3 : Reached ⟨.waitingNative, true, .entering false, [.comparing .waitingNative], [true]⟩ :=
    (h2.step .unpark).step (.load (.head _) nofun)
  have h4 : Reached ⟨.free, true, .entering false, [.freed 0], [true]⟩ :=
    h3.step (.swap (.head _) rfl)
  have h5 : Reached ⟨.free, false, .asleep false false, [.freed 0], [true]⟩ := h4.step (.sleep rfl)
  have h6 : Reached ⟨.free, false, .locking false, [.returned .native 0], [true]⟩ :=
    (Reached.notified (b := ⟨.free, false, .asleep false false, [], [true]⟩) h5 rfl).step (.stir rfl)
  have h7 : Reached ⟨.free, false, .locking false, [.comparing .free, .returned .native 0], [true]⟩ :=
    (h6.step .unpark).step (.load (.head _) nofun)
  have h8 : Reached ⟨.permitted, false, .locking false,
      [.returned .permit 1, .returned .native 0], [true]⟩ := h7.step (.swap (.head _) rfl)
  have h9 : Reached ⟨.permitted, false, .ending false,
      [.returned .permit 1, .returned .native 0], [true]⟩ :=
    ((h8.step (.lock rfl rfl)).step (.pass rfl nofun)).step (.unlock rfl)
  have h10 : Reached ⟨.permitted, false, .awake,
      [.returned .permit 1, .returned .native 0], [true]⟩ :=
    (h9.step (.endOther rfl nofun)).step (.endFreed rfl nofun)
  have h11 : Reached ⟨.permitted, false, .judging false .permitted,
      [.returned .permit 1, .returned .native 0], [true]⟩ :=
    (h10.step (.call false rfl)).step (.look rfl)
  have h12 : Reached ⟨.free, false, .awake,
      [.returned .permit 1, .returned .native 0], [true, false]⟩ :=
    h11.step (.begin (q := (.free, false)) rfl rfl rfl)
  constructor
  · exact ⟨_, h5, rfl, rfl, (h5.loses_no_wakeup.1 false rfl).resolve_left nofun⟩
  · have hnative : Rouser.returned .native 0 ∈ [Rouser.returned .permit 1, .returned .native 0] :=
      .tail _ (.head _)
    obtain ⟨-, -, -, hreturned⟩ := h12.loses_no_wakeup
    refine ⟨_, h12, hnative, ?_, .head _, rfl, ?_⟩
    · rcases hreturned .native 0 hnative with ⟨-, hfreed, -⟩ | ⟨hfound, -⟩
      · exact hfreed
      · cases hfound
    · rcases hreturned .permit 1 (.head _) with ⟨hfound, -⟩ | ⟨-, ⟨hlength, -⟩ | htaken⟩
      · cases hfound
      · cases hlength
      · exact htaken

end Berth

end GreenThreads

import Mathlib.Algebra.GroupWithZero.Nat
import GreenThreads.Carrier

/-!
# The load counter of a run queue

Beside its run queue a carrier has a counter by which submitters compare how much there is to do.
Whoever puts an entry in raises the counter afterwards, and whoever takes one out, the carrier
itself or another one, lowers it afterwards. Any number of them may be between the two. So the
counter is right when nobody is, and falls below zero when those who are about to raise it are more
than the entries in the queue and those who are about to lower it: an entry can be taken out and
counted off before it was counted.
-/

namespace GreenThreads

/-- A carrier with its load counter, and how many are between the halves of an access. -/
structure Gauge where
  carrier : Carrier
  load : UInt64 := 0
  /-- Who has put an entry in and has yet to raise the counter. -/
  raising : Nat := 0
  /-- Who has taken an entry out and has yet to lower the counter. -/
  lowering : Nat := 0
  /-- How many entries were put in so far. -/
  pushed : Nat := 0

namespace Gauge

/-- What can happen at once. -/
inductive Step : Gauge → Gauge → Prop
  | push {g : Gauge} (x : Runnable) :
      Step g { g with
        carrier := g.carrier.enqueue x
        raising := g.raising + 1
        pushed := g.pushed + 1 }
  | raise {g : Gauge} (h : 0 < g.raising) :
      Step g { g with load := g.load + 1, raising := g.raising - 1 }
  | pop {g : Gauge} {x : Runnable} {k : Carrier} (h : g.carrier.dequeue? = some (x, k)) :
      Step g { g with carrier := k, lowering := g.lowering + 1 }
  | lower {g : Gauge} (h : 0 < g.lowering) :
      Step g { g with load := g.load - 1, lowering := g.lowering - 1 }
  /-- Whatever else changes of the carrier. -/
  | other {g : Gauge} {k : Carrier} (h : k.queue = g.carrier.queue) : Step g { g with carrier := k }

/-- What can be reached from a new carrier. -/
inductive Reached : Gauge → Prop
  | start (index capacity : Nat) : Reached { carrier := .make index capacity }
  | step {g g' : Gauge} (h : Reached g) (s : Step g g') : Reached g'

/-- How high the counter would be if everybody were done who is about to raise it. -/
def backlog (g : Gauge) : Nat := g.carrier.queue.length + g.lowering

/-- What holds between any two steps. -/
structure Sound (g : Gauge) : Prop where
  counted : g.load + .ofNat g.raising = .ofNat g.backlog
  raising : g.raising ≤ g.pushed
  backlog : g.backlog ≤ g.pushed

variable {g g' : Gauge}

theorem length_of_dequeue? {k k' : Carrier} {x : Runnable} (h : k.dequeue? = some (x, k')) :
    k.queue.length = k'.queue.length + 1 := by
  unfold Carrier.dequeue? at h
  split at h
  · cases h
  · next hqueue =>
      cases h
      rw [hqueue, List.length_cons]

theorem Sound.step (h : Sound g) (s : Step g g') : Sound g' := by
  obtain ⟨hcounted, hraising, hbacklog⟩ := h
  unfold Gauge.backlog at hcounted hbacklog
  cases s with
  | push x =>
      refine ⟨?_, Nat.succ_le_succ hraising, ?_⟩
      · simp only [Gauge.backlog, Carrier.enqueue, List.length_append, List.length_singleton]
        rw [Nat.add_right_comm, UInt64.ofNat_add g.raising, UInt64.ofNat_add (_ + _) 1,
          ← UInt64.add_assoc, hcounted]
      · simp only [Gauge.backlog, Carrier.enqueue, List.length_append, List.length_singleton]
        omega
  | raise hpos =>
      refine ⟨?_, Nat.le_trans (Nat.sub_le _ _) hraising, hbacklog⟩
      obtain ⟨n, hn⟩ := Nat.exists_eq_succ_of_ne_zero (Nat.ne_of_gt hpos)
      rw [hn, Nat.succ_eq_add_one, UInt64.ofNat_add] at hcounted
      simp only [Gauge.backlog, hn, Nat.succ_sub_one, ← hcounted]
      grind
  | pop hpop =>
      have hlength := length_of_dequeue? hpop
      refine ⟨?_, hraising, ?_⟩
      · simp only [Gauge.backlog, hcounted, hlength]
        congr 1
        omega
      · simp only [Gauge.backlog]
        omega
  | lower hpos =>
      refine ⟨?_, hraising, ?_⟩
      · obtain ⟨n, hn⟩ := Nat.exists_eq_succ_of_ne_zero (Nat.ne_of_gt hpos)
        rw [hn, Nat.succ_eq_add_one, ← Nat.add_assoc, UInt64.ofNat_add _ 1] at hcounted
        simp only [Gauge.backlog, hn, Nat.succ_sub_one]
        grind
      · simp only [Gauge.backlog]
        omega
  | other hqueue =>
      refine ⟨?_, hraising, ?_⟩
      · simp only [Gauge.backlog, hqueue, hcounted]
      · simp only [Gauge.backlog, hqueue, hbacklog]

theorem Reached.sound (h : Reached g) : Sound g := by
  induction h with
  | start index capacity => exact ⟨rfl, Nat.le_refl _, Nat.le_refl _⟩
  | step h s ih => exact ih.step s

/-- When nobody is between the halves of an access, the counter says how many entries there are. -/
theorem Reached.load_of_quiet (h : Reached g) (hraising : g.raising = 0)
    (hlowering : g.lowering = 0) : g.load = .ofNat g.carrier.queue.length := by
  have hcounted := h.sound.counted
  rw [backlog, hraising, hlowering, Nat.add_zero] at hcounted
  exact (UInt64.add_zero g.load).symm.trans hcounted

/-- What the counter shows, as long as fewer entries were put in than it has room for. -/
theorem Reached.toNat_load (h : Reached g) (hpushed : g.pushed < 2 ^ 64) :
    g.load.toNat = if g.raising ≤ g.backlog then g.backlog - g.raising
      else 2 ^ 64 - (g.raising - g.backlog) := by
  obtain ⟨hcounted, hraising, hbacklog⟩ := h.sound
  have hlt := g.load.toNat_lt
  have hsum := congrArg UInt64.toNat hcounted
  rw [UInt64.toNat_add, UInt64.toNat_ofNat', UInt64.toNat_ofNat'] at hsum
  split <;> omega

theorem Reached.load_le_pushed_iff (h : Reached g) (hpushed : g.pushed < 2 ^ 63) :
    g.load.toNat ≤ g.pushed ↔ g.raising ≤ g.backlog := by
  obtain ⟨-, hraising, hbacklog⟩ := h.sound
  rw [h.toNat_load (by omega)]
  split
  · next hle => exact iff_of_true (by omega) hle
  · next hlt => exact iff_of_false (by omega) hlt

/-- An entry is put in, taken out and counted off before it is counted: nothing is in the queue, and
the counter shows as much as it can. -/
theorem load_wraps : ∃ g : Gauge, Reached g ∧ g.pushed = 1 ∧ g.carrier.queue = [] ∧
    g.load.toNat = 2 ^ 64 - 1 := by
  have h0 := Reached.start 0 0
  have h1 := h0.step (.push (.resume ⟨0⟩))
  have h2 := h1.step (.pop rfl)
  have h3 := h2.step (.lower (by decide))
  exact ⟨_, h3, rfl, rfl, by decide⟩

end Gauge

end GreenThreads

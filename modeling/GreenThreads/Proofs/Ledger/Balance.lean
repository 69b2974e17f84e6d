import GreenThreads.Proofs.Ledger.Steps

/-!
# The columns of a ledger

Each piece of work is in one place: it waits in a run queue, a task has it, or it is over. Here is
what moves it from one of these places to the next, and the counters of the engine with it.
-/

namespace GreenThreads

theorem ofNat_succ (n : Nat) : UInt64.ofNat n + 1 = UInt64.ofNat (n + 1) :=
  (UInt64.ofNat_add n 1).symm

theorem ofNat_succ_sub (n : Nat) : UInt64.ofNat (n + 1) - 1 = UInt64.ofNat n := by
  rw [UInt64.ofNat_add]
  exact UInt64.add_sub_cancel _ _

namespace Ledger

open Engine

variable {V : Type} {l : Ledger V} {e : Engine V} {hand : List Submission} {w : Submission}
  {s : Shift} {bench : List Shift} {j : JobId}

/-- The columns of a ledger add up. In hand is the work that was taken out of a run queue and that
no task has yet. -/
structure Balanced (hand : List Submission) (l : Ledger V) : Prop where
  placed : ((hand ++ l.engine.starts).map (·.job) ++ (l.bench.map (·.job) ++ l.settled)).Perm
    (List.range l.engine.jobs.size)
  begun : (l.ran ++ l.abandoned).Perm
    ((l.bench.filter (·.progress.isBegun)).map (·.job) ++ l.settled)
  finished : l.completed.Perm ((l.bench.filter (·.progress.isReturned)).map (·.job) ++ l.settled)
  submitted : l.engine.stats.tasksSubmitted = .ofNat l.engine.jobs.size
  closed : l.engine.stats.tasksCompleted = .ofNat l.settled.length
  outstanding : l.engine.outstanding =
    .ofNat (hand.length + l.engine.starts.length + l.bench.length)

namespace Balanced

theorem same (h : Balanced hand l) (hstarts : e.starts = l.engine.starts)
    (hsize : e.jobs.size = l.engine.jobs.size)
    (hsubmitted : e.stats.tasksSubmitted = l.engine.stats.tasksSubmitted)
    (hclosed : e.stats.tasksCompleted = l.engine.stats.tasksCompleted)
    (houtstanding : e.outstanding = l.engine.outstanding) :
    Balanced hand { l with engine := e } := by
  refine ⟨?_, h.begun, h.finished, ?_, hclosed.trans h.closed, ?_⟩
  · rw [hstarts, hsize]
    exact h.placed
  · rw [hsubmitted, hsize]
    exact h.submitted
  · rw [houtstanding, hstarts]
    exact h.outstanding

theorem work (h : Balanced hand l) (hw : SameWork l.engine e) :
    Balanced hand { l with engine := e } := by
  have hsize := congrArg Array.size hw.jobs
  simp only [Array.size_map] at hsize
  exact h.same hw.starts hsize hw.submitted hw.completed hw.outstanding

theorem perm (h : Balanced hand l) (hp : l.bench.Perm bench) :
    Balanced hand { l with bench := bench } := by
  refine ⟨?_, ?_, ?_, h.submitted, h.closed, ?_⟩
  · exact (((hp.map _).symm.append_right _).append_left _).trans h.placed
  · exact h.begun.trans (((hp.filter _).map _).append_right _)
  · exact h.finished.trans (((hp.filter _).map _).append_right _)
  · rw [← hp.length_eq]
    exact h.outstanding

/-- No piece of work is in two places. -/
theorem nodup (h : Balanced hand l) :
    ((hand ++ l.engine.starts).map (·.job) ++ (l.bench.map (·.job) ++ l.settled)).Nodup :=
  h.placed.nodup_iff.mpr List.nodup_range

theorem lt_size (h : Balanced hand l)
    (hj : j ∈ (hand ++ l.engine.starts).map (·.job) ++ (l.bench.map (·.job) ++ l.settled)) :
    j < l.engine.jobs.size := List.mem_range.mp (h.placed.mem_iff.mp hj)

theorem lt_of_completed (h : Balanced hand l) (hj : j ∈ l.completed) : j < l.engine.jobs.size := by
  refine h.lt_size (List.mem_append_right _ ?_)
  rcases List.mem_append.mp (h.finished.mem_iff.mp hj) with hbench | hover
  · obtain ⟨s, hs, rfl⟩ := List.mem_map.mp hbench
    exact List.mem_append_left _ (List.mem_map_of_mem (List.mem_filter.mp hs).1)
  · exact List.mem_append_right _ hover

theorem accept (h : Balanced [] l) (hsize : e.jobs.size = l.engine.jobs.size + 1)
    (hjob : w.job = l.engine.jobs.size) (hstarts : e.starts = l.engine.starts)
    (hsubmitted : e.stats.tasksSubmitted = l.engine.stats.tasksSubmitted + 1)
    (hclosed : e.stats.tasksCompleted = l.engine.stats.tasksCompleted)
    (houtstanding : e.outstanding = l.engine.outstanding + 1) :
    Balanced [w] { l with engine := e } := by
  refine ⟨?_, h.begun, h.finished, ?_, hclosed.trans h.closed, ?_⟩
  · have hrange : List.range e.jobs.size = List.range l.engine.jobs.size ++ [w.job] := by
      rw [hsize, List.range_succ, hjob]
    rw [hstarts, hrange]
    exact (h.placed.cons w.job).trans (List.perm_append_singleton _ _).symm
  · rw [hsubmitted, h.submitted, hsize, ofNat_succ]
  · rw [houtstanding, h.outstanding, hstarts, ofNat_succ]
    congr 1
    simp only [List.length_nil, List.length_singleton]
    omega

theorem place (h : Balanced [w] l) (hl : Left w e l.engine) :
    Balanced [] { l with engine := e } := by
  refine ⟨?_, h.begun, h.finished, ?_, ?_, ?_⟩
  · rw [← hl.jobs]
    exact ((hl.starts.map _).append_right _).trans h.placed
  · rw [← hl.stats, ← hl.jobs]
    exact h.submitted
  · rw [← hl.stats]
    exact h.closed
  · rw [← hl.outstanding, h.outstanding, hl.starts.length_eq]
    congr 1
    simp only [List.length_nil, List.length_cons]
    omega

theorem take (h : Balanced [] l) (hl : Left w l.engine e) :
    Balanced [w] { l with engine := e } := by
  refine ⟨?_, h.begun, h.finished, ?_, ?_, ?_⟩
  · rw [hl.jobs]
    exact ((hl.starts.map _).append_right _).symm.trans h.placed
  · rw [hl.stats, hl.jobs]
    exact h.submitted
  · rw [hl.stats]
    exact h.closed
  · rw [hl.outstanding, h.outstanding, hl.starts.length_eq]
    congr 1
    simp only [List.length_nil, List.length_cons]
    omega

theorem abandon (h : Balanced [w] l) : Balanced [] { l with
    engine := l.engine.finishOne
    abandoned := w.job :: l.abandoned
    completed := w.job :: l.completed
    settled := w.job :: l.settled } := by
  refine ⟨?_, ?_, ?_, h.submitted, ?_, ?_⟩
  · exact ((List.perm_middle.append_left _).trans List.perm_middle).trans h.placed
  · exact (List.perm_middle.trans (h.begun.cons w.job)).trans List.perm_middle.symm
  · exact (h.finished.cons w.job).trans List.perm_middle.symm
  · have hclosed : l.engine.finishOne.stats.tasksCompleted =
        l.engine.stats.tasksCompleted + 1 := rfl
    rw [hclosed, h.closed, ofNat_succ, List.length_cons]
  · have houtstanding : l.engine.finishOne.outstanding = l.engine.outstanding - 1 := rfl
    have hlength : [w].length + l.engine.starts.length + l.bench.length =
        l.engine.starts.length + l.bench.length + 1 := by
      simp only [List.length_singleton]
      omega
    rw [houtstanding, h.outstanding, hlength, ofNat_succ_sub, List.length_nil, Nat.zero_add]
    rfl

/-- Work in hand is given to a task, which has not begun it. -/
theorem give (h : Balanced [w] l) (t : TaskId) :
    Balanced [] { l with bench := ⟨t, w.job, .given⟩ :: l.bench } := by
  refine ⟨?_, h.begun, h.finished, h.submitted, h.closed, ?_⟩
  · exact List.perm_middle.trans h.placed
  · rw [h.outstanding]
    congr 1
    simp only [List.length_nil, List.length_cons]
    omega

theorem advance (h : Balanced hand { l with bench := s :: bench }) {p : Progress}
    (hbegun : p.isBegun = s.progress.isBegun) (hreturned : p.isReturned = s.progress.isReturned) :
    Balanced hand { l with bench := { s with progress := p } :: bench } := by
  refine ⟨h.placed, h.begun.trans (.of_eq ?_), h.finished.trans (.of_eq ?_), h.submitted, h.closed,
    h.outstanding⟩
  · simp only [List.filter_cons, hbegun]
    split <;> rfl
  · simp only [List.filter_cons, hreturned]
    split <;> rfl

theorem run (h : Balanced hand { l with bench := s :: bench }) (hs : s.progress = .given) :
    Balanced hand { l with
      bench := { s with progress := .running } :: bench, ran := s.job :: l.ran } := by
  refine ⟨h.placed, ?_, h.finished.trans (.of_eq ?_), h.submitted, h.closed, h.outstanding⟩
  · have hbegun := h.begun
    rw [List.filter_cons_of_neg (by rw [hs]; exact Bool.false_ne_true)] at hbegun
    exact hbegun.cons s.job
  · rw [List.filter_cons_of_neg (by rw [hs]; exact Bool.false_ne_true)]
    rfl

theorem finish (h : Balanced hand { l with bench := s :: bench }) (hs : s.progress = .running) :
    Balanced hand { l with
      bench := { s with progress := .returned } :: bench, completed := s.job :: l.completed } := by
  refine ⟨h.placed, h.begun.trans (.of_eq ?_), ?_, h.submitted, h.closed, h.outstanding⟩
  · rw [List.filter_cons_of_pos (by rw [hs]; rfl)]
    rfl
  · have hfinished := h.finished
    rw [List.filter_cons_of_neg (by rw [hs]; exact Bool.false_ne_true)] at hfinished
    exact hfinished.cons s.job

theorem retire (h : Balanced [] { l with bench := s :: bench }) (hs : s.progress = .returned) :
    Balanced [] { l with
      engine := l.engine.finishOne, bench := bench, settled := s.job :: l.settled } := by
  refine ⟨?_, ?_, ?_, h.submitted, ?_, ?_⟩
  · exact (List.perm_middle.append_left _).trans h.placed
  · have hbegun := h.begun
    rw [List.filter_cons_of_pos (by rw [hs]; rfl)] at hbegun
    exact hbegun.trans List.perm_middle.symm
  · have hfinished := h.finished
    rw [List.filter_cons_of_pos (by rw [hs]; rfl)] at hfinished
    exact hfinished.trans List.perm_middle.symm
  · have hclosed : l.engine.finishOne.stats.tasksCompleted =
        l.engine.stats.tasksCompleted + 1 := rfl
    rw [hclosed, h.closed, ofNat_succ, List.length_cons]
  · have houtstanding : l.engine.finishOne.outstanding = l.engine.outstanding - 1 := rfl
    have hold := h.outstanding
    rw [List.length_cons, ← Nat.add_assoc] at hold
    rw [houtstanding, hold, ofNat_succ_sub]
    rfl

end Balanced

end Ledger

end GreenThreads

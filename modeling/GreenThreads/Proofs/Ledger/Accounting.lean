import GreenThreads.Proofs.Ledger.Sound

/-!
# No work is lost and none is done twice

What is submitted is outstanding until it is over, and the engine counts it as what it is. Each
piece of accepted work is begun once at most, its result is told once at most, and that has happened
when it stops being outstanding.
-/

namespace GreenThreads

namespace Engine

variable {V : Type} {e : Engine V}

/-- Work that is turned away is counted as such, and leaves no other trace. -/
theorem submit_rejected {caller : Option TaskId} {name : String} {group : Option GroupId}
    {err : EngineError} (h : (e.submit caller name group).2 = .error err) :
    (e.submit caller name group).1 =
      { e with stats := { e.stats with tasksRejected := e.stats.tasksRejected + 1 } } := by
  unfold submit at h ⊢
  split
  · rfl
  · next hno =>
      rw [if_neg hno] at h
      cases h

end Engine

namespace Ledger

open Engine

variable {V : Type} {l : Ledger V} {e : Engine V} {c : Nat} {j : JobId}

/-! ## What an engine does -/

/-- Whatever a carrier does with an entry of a run queue is such a step. -/
theorem Reached.dispatch {r : Runnable} (h : Reached l) (hc : c < l.engine.carriers.size)
    (hn : l.engine.next? c = some (r, e)) (now : Nanos) :
    ∃ l', Reached l' ∧ l'.engine = e.dispatch now c r := by
  have htaken := taken_of_next? hn
  cases r with
  | start s =>
      cases hmoot : e.isMoot s with
      | true => exact ⟨_, h.step (.abandon now htaken hmoot), rfl⟩
      | false => exact ⟨_, h.step (.start now hc htaken hmoot), rfl⟩
  | resume t =>
      have hunmark : SameRecords e (e.updateTask t ({ · with enqueued := false })) :=
        sameRecords_updateTask fun _ => ⟨rfl, fun a hw => by cases a <;> exact hw⟩
      have hwork := htaken.sameWork.trans hunmark.sameWork
      have hresume := sameWork_resume (c := c) (by rw [hwork.size]; exact hc) now t
      exact ⟨_, h.step (.other (hwork.trans hresume)), rfl⟩

theorem Reached.aside (h : Reached l) (ha : l.engine.Aside e) :
    Reached { l with engine := e } :=
  h.step (.other ha.sameRecords.sameWork)

theorem Reached.redraw (h : Reached l) (draws : Draws) :
    Reached { l with engine := l.engine.redraw draws } :=
  h.step (.other (sameWork_of_eq rfl rfl rfl rfl rfl rfl rfl rfl rfl))

theorem Reached.endCarrier (h : Reached l) (c : Nat) :
    Reached { l with engine := l.engine.endCarrier c } := by
  refine endCarrier_induct (P := fun e => Reached { l with engine := e }) h ?_ ?_ ?_
  · intro e e' t he hpop
    exact he.step (.scrap hpop)
  · intro e he
    have hstate : SameRecords e (e.updateCarrier c ({ · with state := .terminated })) :=
      sameRecords_updateCarrier fun _ _ => rfl
    exact he.step (.other hstate.sameWork)
  · intro e n he
    exact he.step (.other (sameWork_of_eq rfl rfl rfl rfl rfl rfl rfl rfl rfl))

/-! ## What the columns say -/

namespace Balanced

theorem nodup_bench_settled (h : Balanced [] l) : (l.bench.map (·.job) ++ l.settled).Nodup :=
  (List.nodup_append.mp h.nodup).2.1

theorem nodup_of_filter (h : Balanced [] l) (p : Shift → Bool) :
    ((l.bench.filter p).map (·.job) ++ l.settled).Nodup :=
  h.nodup_bench_settled.sublist ((List.filter_sublist.map _).append_right _)

theorem nodup_begun (h : Balanced [] l) : (l.ran ++ l.abandoned).Nodup :=
  h.begun.nodup_iff.mpr (h.nodup_of_filter _)

theorem nodup_completed (h : Balanced [] l) : l.completed.Nodup :=
  h.finished.nodup_iff.mpr (h.nodup_of_filter _)

theorem size_eq (h : Balanced [] l) :
    l.engine.jobs.size = l.settled.length + (l.engine.starts.length + l.bench.length) := by
  have hlength := h.placed.length_eq
  simp only [List.nil_append, List.length_append, List.length_map, List.length_range] at hlength
  omega

end Balanced

/-- What was submitted is over or outstanding, and outstanding is the work that waits in run queues
and that of the live tasks; the counter says so exactly as long as it can. Accepted work is begun
once at most, and never if it was given up; its result is told once at most, and it was told when
the work is not outstanding any more. Work that is rejected is counted as rejected and changes
nothing else. -/
theorem Reached.accounted (h : Reached l) :
    (l.engine.stats.tasksSubmitted = l.engine.stats.tasksCompleted + l.engine.outstanding ∧
      l.engine.outstanding = .ofNat (l.engine.starts.length + l.engine.live.length) ∧
      (l.engine.starts.length + l.engine.live.length < UInt64.size →
        l.engine.outstanding.toNat = l.engine.starts.length + l.engine.live.length) ∧
      l.engine.jobs.size = l.settled.length + (l.engine.starts.length + l.engine.live.length) ∧
      l.engine.live.Nodup) ∧
    (∀ j, l.ran.count j ≤ 1 ∧ (j ∈ l.abandoned → j ∉ l.ran) ∧ l.completed.count j ≤ 1 ∧
      (j ∈ l.settled → j ∈ l.completed ∧
        ∃ cell, l.engine.jobs[j]? = some cell ∧ cell.done = true)) ∧
    ∀ caller name group err, (l.engine.submit caller name group).2 = .error err →
      (l.engine.submit caller name group).1 = { l.engine with
        stats := { l.engine.stats with tasksRejected := l.engine.stats.tasksRejected + 1 } } := by
  have hs := h.sound
  have hb := hs.balanced
  have hlive : l.engine.live.length = l.bench.length := by
    rw [hs.staffed.crew.length_eq, List.length_map]
  have houtstanding : l.engine.outstanding =
      .ofNat (l.engine.starts.length + l.engine.live.length) := by
    rw [hb.outstanding, hlive, List.length_nil, Nat.zero_add]
  have hsize := hb.size_eq
  rw [← hlive] at hsize
  refine ⟨⟨?_, houtstanding, ?_, hsize, hs.staffed.nodup⟩, ?_, fun _ _ _ _ => submit_rejected⟩
  · rw [hb.submitted, hb.closed, houtstanding, hsize, UInt64.ofNat_add]
  · intro hlt
    rw [houtstanding]
    exact UInt64.toNat_ofNat_of_lt' hlt
  · intro j
    obtain ⟨hran, -, hdisjoint⟩ := List.nodup_append.mp hb.nodup_begun
    refine ⟨List.nodup_iff_count.mp hran j, fun habandoned hj => hdisjoint j hj j habandoned rfl,
      List.nodup_iff_count.mp hb.nodup_completed j, ?_⟩
    intro hover
    have hcompleted : j ∈ l.completed := hb.finished.mem_iff.mpr (List.mem_append_right _ hover)
    have hcell := Array.getElem?_eq_getElem (hb.lt_of_completed hcompleted)
    exact ⟨hcompleted, _, hcell, (hs.filed.done j _ hcell).mpr hcompleted⟩

/-- One piece of work runs to its end and one is given up, and then work is turned away. -/
theorem accounted_after_shutdown : ∃ l : Ledger Unit, Reached l ∧ l.ran = [0] ∧
    l.abandoned = [1] ∧ l.settled = [1, 0] ∧ l.engine.stats.tasksSubmitted = 3 ∧
    l.engine.stats.tasksCompleted = 2 ∧ l.engine.outstanding = 1 ∧
    l.engine.starts.length + l.engine.live.length = 1 ∧
    l.engine.stats.tasksSubmitted = l.engine.stats.tasksCompleted + l.engine.outstanding ∧
    (l.engine.submit none "late" none).2 = .error .rejected ∧
    (l.engine.submit none "late" none).1 = { l.engine with
      stats := { l.engine.stats with tasksRejected := l.engine.stats.tasksRejected + 1 } } := by
  have h0 := Reached.start (V := Unit) (show Engine.start {} 1 [] .absent = .ok _ from rfl)
  have h1 := h0.step (.submit none "first" none)
  have h2 := h1.step (.submit none "second" none)
  have h3 := h2.step (.start (c := 0) (s := ⟨0, "first", none⟩) 5 (by decide) (.shared rfl rfl) rfl)
  have h4 := h3.step (.run (c := 0) (.head _) rfl rfl rfl)
  have h5 := h4.step (.finish (c := 0) 6 (.ok ()) (.head _) rfl rfl rfl)
  have h6 := h5.step (.exit (c := 0) 7 (.head _) rfl rfl rfl)
  have h7 := h6.aside (.cancelJob 8 1)
  have h8 := h7.step (.abandon (c := 0) (s := ⟨1, "second", none⟩) 9 (.shared rfl rfl) rfl)
  have h9 := h8.step (.shutdown none)
  obtain ⟨⟨hsum, -⟩, -, hrejected⟩ := h9.accounted
  exact ⟨_, h9, rfl, rfl, rfl, rfl, rfl, rfl, rfl, hsum, rfl,
    hrejected none "late" none .rejected rfl⟩

end Ledger

end GreenThreads

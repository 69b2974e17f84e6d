import GreenThreads.Proofs.Floor.Errands
import GreenThreads.Proofs.Traffic.Steps

/-!
# A carrier works off the entry of a task

What a carrier does with the entry of a task, from taking it out of a run queue to the switch, is
made of steps: it may steal the task or give it back, hold it back for its quota, or run it. So is a
wake.
-/

namespace GreenThreads

namespace Engine

variable {V : Type} {e e' : Engine V} {c : Nat} {t : TaskId}

theorem sameRecord_put {x y : Task} (hx : e.task? t = some x) (h : y.stolen = x.stolen) :
    SameRecord e (e.updateTask t fun _ => y) := by
  refine ⟨fun u => ?_, rfl, rfl, id⟩
  rw [stolenOf, task?_updateTask, stolenOf]
  split
  · next hu =>
      rw [hu, hx]
      exact h
  · rfl

theorem stolen_checkMember (g : ControlGroup) (x : Task) (now : Nanos) (restart : Bool) :
    (g.checkMember x now restart).2.1.stolen = x.stolen := by
  unfold ControlGroup.checkMember
  split
  · split
    · cases restart <;> rfl
    · rfl
  · rfl

theorem sameRecord_checkQuota (e : Engine V) (now : Nanos) (t : TaskId) :
    SameRecord e (e.checkQuota now t).1 := by
  unfold checkQuota
  split
  · exact .refl e
  · next x hx =>
      split
      · exact .refl e
      · next g group _ =>
          have hput : SameRecord (e.updateGroup g fun _ => (group.checkMember x now true).1) _ :=
            sameRecord_put hx (stolen_checkMember group x now true)
          dsimp only
          split
          · exact ⟨hput.stolen, rfl, rfl, id⟩
          · exact ⟨hput.stolen, rfl, rfl, id⟩

theorem handed_of_next? {r : Runnable} (h : e.next? c = some (r, e')) : e.Handed c r e' := by
  cases taken_of_next? h with
  | own hi => exact .own hi
  | shared pulls hs => exact .shared pulls hs
  | stolen pulls _ hi => exact .peer pulls hi

end Engine

namespace Traffic

variable {V : Type} {r : Traffic V} {e : Engine V} {c : Nat} {t : TaskId} {p : Phase}

/-- The traffic with carrier `c` in another phase. -/
def move (r : Traffic V) (c : Nat) (p : Phase) (e : Engine V) : Traffic V :=
  { r with floor := r.floor.move c p e }

/-- A step of the floor in which nobody moves. -/
theorem Reached.stay (h : Reached r) (s : r.floor.Step { r.floor with engine := e })
    (hr : r.engine.SameRecord e) : Reached { r with floor := { r.floor with engine := e } } :=
  h.step (.floor s (fun _ => Nat.le_refl _) (fun _ _ => id) hr)

theorem Reached.advance (h : Reached r) (s : r.floor.Step (r.floor.move c p e))
    (hp : ∀ x, p ≠ .holding x) (hr : r.engine.SameRecord e) : Reached (r.move c p e) := by
  refine h.step (.floor s (fun _ => Nat.le_refl _) (fun d x hx => ?_) hr)
  obtain ⟨-, hcase⟩ | hx := Floor.getElem?_modify_cases hx
  · exact absurd hcase.symm (hp x)
  · exact hx

theorem Reached.wake (now : Nanos) (h : Reached r)
    (hfreed : (r.slips.map Prod.fst).count t < r.floor.freed.count t) :
    Reached { r with floor := { r.floor with
      engine := r.engine.wake now t
      freed := r.floor.freed.erase t } } := by
  have hmem : t ∈ r.floor.freed := List.count_pos_iff.mp (Nat.zero_lt_of_lt hfreed)
  obtain ⟨x, d, hx, hd, -, hstatus, hthread, hmark⟩ := h.sound.floor.wakeable hmem
  have hpost := (h.step (.look hfreed hx hd)).step (.post now List.mem_cons_self)
  rw [List.erase_cons_head, ← Floor.wake_eq hx hd hstatus hthread hmark] at hpost
  exact hpost

theorem Reached.giveBack (now : Nanos) (h : Reached r)
    (hback : Reached { r with floor := { r.floor.move c .looking e with
      freed := t :: r.floor.freed } }) : Reached (r.move c .looking (e.wake now t)) := by
  have hfreed : (r.slips.map Prod.fst).count t < (t :: r.floor.freed).count t := by
    rw [List.count_cons_self]
    exact Nat.lt_succ_of_le (h.sound.slips t)
  have hwake := hback.wake now hfreed
  simp only [List.erase_cons_head] at hwake
  exact hwake

theorem Reached.disarm (h : Reached r) (hdue : r.floor.due = [])
    (hp : r.floor.phases[c]? = some (.resuming t)) :
    Reached { r with floor := { r.floor with engine := r.engine.disarm t } } := by
  have hwithdraw : r.engine.withdraw t r.floor.due = r.engine.disarm t := by
    rw [hdue, Engine.withdraw_nil]
  have hdisarm := h.stay (.disarm hp (.inl rfl)) (Engine.anchored_withdraw _ _ _).toSameRecord
  rw [hwithdraw] at hdisarm
  exact hdisarm

theorem Reached.resumeOwned {x : Task} (now : Nanos) (h : Reached r) (hdue : r.floor.due = [])
    (hp : r.floor.phases[c]? = some (.resuming t)) (hx : r.engine.task? t = some x)
    (hc : x.carrier = some c) : ∃ p, (p = .looking ∨ p = .working t) ∧
      Reached (r.move c p (r.engine.resumeOwned now c t)) := by
  have hframe := Engine.frame_checkQuota r.engine now t
  have hquota := h.stay (.other hframe) (Engine.sameRecord_checkQuota r.engine now t)
  dsimp only [Engine.resumeOwned]
  split
  · refine ⟨.looking, .inl rfl, ?_⟩
    have hcount := hquota.stay (.other (Engine.frame_count _ .quotaThrottles))
      (Engine.anchored_count _ Counter.noConfusion Counter.noConfusion).toSameRecord
    exact (hcount.disarm hdue hp).advance (.throttle now _ hp) (fun _ => Phase.noConfusion)
      (Engine.anchored_arm _ _ _ _ _ _ _).toSameRecord
  · split
    · next hnone =>
        obtain ⟨y, hy, -⟩ := hquota.sound.floor.alive hp rfl
        rw [Traffic.engine, hnone] at hy
        cases hy
    · next y hy =>
        split
        · refine ⟨.looking, .inl rfl, ?_⟩
          have hcount := hquota.stay (.other (Engine.frame_count _ .switchFailures))
            (Engine.anchored_count _ Counter.noConfusion Counter.noConfusion).toSameRecord
          have hback := hcount.step (.floor (.giveUp hp)
            (fun u => (List.sublist_cons_self _ _).count_le u) (fun d z hz => ?_) (.refl _))
          · exact hcount.giveBack now hback
          · obtain ⟨-, hcase⟩ | hz := Floor.getElem?_modify_cases hz
            · cases hcase
            · exact hz
        · next hfree =>
            refine ⟨.working t, .inr rfl, ?_⟩
            obtain ⟨z, hz, hcore⟩ := hframe.exists_task hy
            rw [hx] at hz
            cases hz
            have hown : y.carrier = some c := (congrArg Task.carrier hcore).trans hc
            exact hquota.advance (.switchIn now hp hy hown (by simpa using hfree))
              (fun _ => Phase.noConfusion) (Engine.anchored_switchIn _ _ _ _).toSameRecord

theorem Reached.resume (now : Nanos) (h : Reached r) (hdue : r.floor.due = [])
    (hp : r.floor.phases[c]? = some (.resuming t)) : ∃ p moves,
      (p = .looking ∨ p = .working t) ∧ (moves = r.moves ∨ moves = ⟨t, c⟩ :: r.moves) ∧
      Reached { r.move c p (r.engine.resume now c t) with moves } := by
  obtain ⟨x, hx, halive⟩ := h.sound.floor.alive hp rfl
  simp only [Engine.resume, hx, halive, ne_eq, not_true_eq_false, if_false]
  split
  · next hown =>
      obtain ⟨p, hp', hresume⟩ := h.resumeOwned now hdue hp hx hown
      exact ⟨p, _, hp', .inl rfl, hresume⟩
  · next hforeign =>
      split
      · next e hsteal =>
          have hstolen := h.step (.steal hp hx hforeign hsteal)
          obtain ⟨y, hy, hown⟩ :=
            Engine.carrier_of_steal? hx (h.sound.floor.roster.id t x hx) hsteal
          obtain ⟨p, hp', hresume⟩ := hstolen.resumeOwned now hdue hp hy hown
          exact ⟨p, _, hp', .inr rfl, hresume⟩
      · exact ⟨.looking, _, .inl rfl, .inl rfl, h.giveBack now (h.step (.balk hp hx hforeign))⟩

/-- A carrier that looks for something to do takes the entry of a task and works it off. -/
theorem Reached.dispatch (now : Nanos) (h : Reached r) (hdue : r.floor.due = [])
    (hp : r.floor.phases[c]? = some .looking)
    (hn : r.engine.next? c = some (.resume t, e)) : ∃ p moves,
      (p = .looking ∨ p = .working t) ∧ (moves = r.moves ∨ moves = ⟨t, c⟩ :: r.moves) ∧
      Reached { r.move c p (e.dispatch now c (.resume t)) with
        popped := Function.update r.popped c (some (.resume t))
        moves } := by
  have htake := h.step (.take hp (Engine.handed_of_next? hn))
  have hholds := Floor.getElem?_move hp (.holding (.resume t)) e
  have hunmark := htake.advance (.unmark hholds) (fun _ => Phase.noConfusion)
    (Engine.anchored_unmark e t).toSameRecord
  obtain ⟨p, moves, hp', hmoves, hresume⟩ :=
    hunmark.resume now hdue (Floor.getElem?_move hholds _ _)
  refine ⟨p, moves, hp', hmoves, ?_⟩
  simp only [move, Floor.move, modify_modify] at hresume ⊢
  exact hresume

end Traffic

end GreenThreads

import Mathlib.Algebra.BigOperators.Group.Finset.Basic
import Mathlib.Algebra.Order.BigOperators.Group.Multiset
import Mathlib.Logic.Relation
import GreenThreads.Proofs.Traffic.Dispatch

/-!
# Tasks move when they are stolen, and not otherwise

A task with work changes its carrier only when the carrier that took its entry steals it, and each
such steal is counted once in all and once for the task. So the two counts agree. Under the push
policy nobody has a task of another carrier in hand, and once a drain has begun nobody moves one.
-/

namespace GreenThreads.Traffic

variable {V : Type} {r r' : Traffic V} {c : Nat} {t : TaskId}

/-! ## One step -/

/-- From `r` to `r'` no task with work changed its carrier, and no steal was counted. -/
structure Kept (r r' : Traffic V) : Prop where
  home : ∀ t x, r.engine.task? t = some x → x.status = .alive →
    ∃ y, r'.engine.task? t = some y ∧ y.carrier = x.carrier
  stolen : ∀ t, r'.engine.stolenOf t = r.engine.stolenOf t
  successes : r'.engine.stats.stealSuccesses = r.engine.stats.stealSuccesses
  moves : r'.moves = r.moves

/-- From `r` to `r'` carrier `c` stole the task `t`, whose entry it had taken last. -/
structure Stole (r r' : Traffic V) (t : TaskId) (c : Nat) : Prop where
  at_ : r.floor.phases[c]? = some (.resuming t)
  popped : r.popped c = some (.resume t)
  runs : r.engine.draining = false
  moved : ∃ x y, r.engine.task? t = some x ∧ r'.engine.task? t = some y ∧ x.status = .alive ∧
    x.carrier ≠ some c ∧ y = { x with carrier := some c, stolen := (x.stolen + 1) % 2 ^ 32 }
  others : ∀ u, u ≠ t → r'.engine.task? u = r.engine.task? u
  successes : r'.engine.stats.stealSuccesses = r.engine.stats.stealSuccesses + 1
  moves : r'.moves = ⟨t, c⟩ :: r.moves

theorem kept_of_tasks (htasks : r'.engine.tasks = r.engine.tasks)
    (hstats : r'.engine.stats.stealSuccesses = r.engine.stats.stealSuccesses)
    (hmoves : r'.moves = r.moves) : Kept r r' := by
  have htask : ∀ t, r'.engine.task? t = r.engine.task? t := fun t => by
    rw [Engine.task?, htasks, ← Engine.task?]
  refine ⟨fun t x hx _ => ⟨x, (htask t).trans hx, rfl⟩, fun t => ?_, hstats, hmoves⟩
  rw [Engine.stolenOf, htask, ← Engine.stolenOf]

theorem kept_post (r : Traffic V) (now : Nanos) (d : Nat) (freed : List TaskId)
    (slips : List (TaskId × Nat)) :
    Kept r { r with
      floor := { r.floor with engine := Floor.enqueueOn r.engine now d t, freed }
      slips } := by
  have hmarked := Engine.anchored_mark r.engine now t
  refine ⟨fun u x hx halive => ?_, hmarked.stolen, rfl, rfl⟩
  obtain ⟨y, hy, hcarrier⟩ := hmarked.home u x hx
  exact ⟨y, hy, hcarrier halive⟩

theorem Sound.stole (h : Sound r) {x : Task} {e : Engine V}
    (hp : r.floor.phases[c]? = some (.resuming t)) (hx : r.engine.task? t = some x)
    (hforeign : x.carrier ≠ some c) (hs : r.engine.steal? c x = some e) :
    Stole r { r with
      floor := { r.floor with engine := e.count .stealSuccesses }
      moves := ⟨t, c⟩ :: r.moves } t c := by
  obtain rfl := h.floor.roster.id t x hx
  obtain ⟨y, hy, halive⟩ := h.floor.alive hp rfl
  have hsame : y = x := Option.some.inj (hy.symm.trans hx)
  subst hsame
  have hmoved := Engine.movedTo_of_steal? hx hs
  refine ⟨hp, ?_, hmoved.runs, ⟨y, _, hx, hmoved.task, halive, hforeign, rfl⟩, hmoved.others, ?_,
    rfl⟩
  · refine (h.resuming c y.id hp).resolve_right ?_
    rintro ⟨z, hz, hc⟩
    rw [hx] at hz
    cases hz
    exact hforeign hc
  · exact congrArg (·.stealSuccesses + 1) hmoved.stats

/-- A step keeps every task on its carrier, or is one counted steal. -/
theorem Step.kept_or_stole (h : Sound r) (s : Step r r') :
    Kept r r' ∨ ∃ t c, Stole r r' t c := by
  cases s with
  | floor s freed holding record =>
      have hk := s.keeps h.floor freed holding record
      refine .inl ⟨fun t x hx halive => ?_, hk.stolen, hk.successes, rfl⟩
      obtain ⟨y, hy, hcarrier⟩ := hk.home t x hx
      exact ⟨y, hy, hcarrier halive⟩
  | take hp hd =>
      have hdealt := hd.dealt
      exact .inl (kept_of_tasks hdealt.tasks (congrArg Stats.stealSuccesses hdealt.stats) rfl)
  | look hfreed hx hd => exact .inl (kept_of_tasks rfl rfl rfl)
  | post now hslip => exact .inl (kept_post r now _ _ _)
  | steal hp hx hforeign hs => exact .inr ⟨_, _, h.stole hp hx hforeign hs⟩
  | balk hp hx hforeign => exact .inl (kept_of_tasks rfl rfl rfl)

/-! ## The two counts -/

theorem map_index_tasks {e : Engine V} (h : Roster e) :
    e.tasks.toList.map (·.id.index) = List.range e.tasks.size := by
  refine List.ext_getElem (by simp) fun i hi _ => ?_
  rw [List.length_map, Array.length_toList] at hi
  have hid := h.id ⟨i⟩ e.tasks[i] (Array.getElem?_eq_getElem hi)
  simp [hid]

theorem Sound.total_movesOf (h : Sound r) :
    total (fun x => r.movesOf x.id) r.engine.tasks = r.moves.length := by
  have hknown : ∀ i ∈ (r.moves.map (·.task.index) : Multiset Nat),
      i ∈ Finset.range r.engine.tasks.size := by
    intro i hi
    obtain ⟨m, hm, rfl⟩ := List.mem_map.mp hi
    obtain ⟨x, hx⟩ := h.known m hm
    exact Finset.mem_range.mpr (Array.getElem?_eq_some_iff.mp hx).1
  have hcount : ∀ t, r.movesOf t = (r.moves.map (·.task.index)).count t.index := by
    intro t
    rw [movesOf, List.count, List.countP_map]
    refine List.countP_congr fun m _ => ?_
    cases hm : m.task
    cases t
    simp [hm]
  calc total (fun x => r.movesOf x.id) r.engine.tasks
      = ((r.engine.tasks.toList.map (·.id.index)).map
          fun i => (r.moves.map (·.task.index)).count i).sum := by
        rw [total, List.map_map]
        simp only [hcount]
        rfl
    _ = ∑ i ∈ Finset.range r.engine.tasks.size,
          (r.moves.map (·.task.index) : Multiset Nat).count i := by
        rw [map_index_tasks h.floor.roster, Finset.sum, Finset.range_val, Multiset.range,
          Multiset.map_coe, Multiset.sum_coe]
        simp only [Multiset.coe_count]
    _ = r.moves.length := by
        rw [Multiset.sum_count_eq_card hknown, Multiset.coe_card, List.length_map]

theorem Sound.total_stolen (h : Sound r) :
    total (·.stolen) r.engine.tasks = total (fun x => r.movesOf x.id % 2 ^ 32) r.engine.tasks := by
  refine total_congr fun x hx => ?_
  obtain ⟨i, hi⟩ := Array.mem_iff_getElem?.mp hx
  obtain rfl := congrArg TaskId.index (h.floor.roster.id ⟨i⟩ x hi)
  exact (Engine.stolenOf_of_task? hi).symm.trans (h.stolen x.id)

theorem Sound.successes_mod (h : Sound r) : r.engine.stats.stealSuccesses.toNat % 2 ^ 32 =
    total (·.stolen) r.engine.tasks % 2 ^ 32 := by
  calc r.engine.stats.stealSuccesses.toNat % 2 ^ 32
      = r.moves.length % 2 ^ 32 := by
        rw [h.successes, UInt64.toNat_ofNat']
        omega
    _ = total (fun x => r.movesOf x.id % 2 ^ 32) r.engine.tasks % 2 ^ 32 := by
        rw [← h.total_movesOf, total, List.sum_nat_mod, List.map_map]
        rfl
    _ = total (·.stolen) r.engine.tasks % 2 ^ 32 := by rw [h.total_stolen]

theorem Sound.successes_eq (h : Sound r) (htasks : ∀ t, r.movesOf t < 2 ^ 32)
    (hmoves : r.moves.length < 2 ^ 64) :
    r.engine.stats.stealSuccesses.toNat = total (·.stolen) r.engine.tasks := by
  calc r.engine.stats.stealSuccesses.toNat
      = r.moves.length := by rw [h.successes, UInt64.toNat_ofNat', Nat.mod_eq_of_lt hmoves]
    _ = total (fun x => r.movesOf x.id % 2 ^ 32) r.engine.tasks := by
        rw [← h.total_movesOf]
        exact total_congr fun x _ => (Nat.mod_eq_of_lt (htasks x.id)).symm
    _ = total (·.stolen) r.engine.tasks := h.total_stolen.symm

/-! ## Drains -/

theorem Step.draining (s : Step r r') (hd : r.engine.draining = true) :
    r'.engine.draining = true := by
  cases s with
  | floor s freed holding record => exact record.draining hd
  | take hp hh => exact hh.dealt.draining.trans hd
  | look hfreed hx hc => exact hd
  | post now hslip => exact hd
  | steal hp hx hforeign hs =>
      rw [Floor.steal?_eq hs]
      exact hd
  | balk hp hx hforeign => exact hd

theorem Step.kept_of_draining (h : Sound r) (s : Step r r') (hd : r.engine.draining = true) :
    Kept r r' := by
  rcases s.kept_or_stole h with hkept | ⟨t, c, hstole⟩
  · exact hkept
  · have hruns := hstole.runs
    rw [hd] at hruns
    cases hruns

/-- What a drain finds moved stays all that is moved. -/
theorem Sound.run_of_draining (h : Sound r) (hd : r.engine.draining = true)
    (hrun : Relation.ReflTransGen Step r r') :
    Sound r' ∧ r'.engine.draining = true ∧ r'.moves = r.moves := by
  induction hrun with
  | refl => exact ⟨h, hd, rfl⟩
  | tail _ s ih =>
      obtain ⟨hsound, hdraining, hmoves⟩ := ih
      exact ⟨hsound.step s, s.draining hdraining,
        (s.kept_of_draining hsound hdraining).moves.trans hmoves⟩

/-! ## Every run -/

/-- The engine's count of the steals and those of the tasks agree, up to where they run over. A task
with work changes its carrier by a counted steal only. Under the push policy every entry is in the
queue of the carrier that its task belongs to, and no carrier is about to switch to a task of
another. After a drain has begun every task stays where it is. -/
theorem Reached.migrations (h : Reached r) :
    (r.engine.stats.stealSuccesses = .ofNat r.moves.length ∧
      (∀ t x, r.engine.task? t = some x → x.stolen = r.movesOf t % 2 ^ 32) ∧
      total (fun x => r.movesOf x.id) r.engine.tasks = r.moves.length) ∧
    r.engine.stats.stealSuccesses.toNat % 2 ^ 32 =
      total (·.stolen) r.engine.tasks % 2 ^ 32 ∧
    ((∀ t, r.movesOf t < 2 ^ 32) → r.moves.length < 2 ^ 64 →
      r.engine.stats.stealSuccesses.toNat = total (·.stolen) r.engine.tasks) ∧
    (∀ r', Step r r' → Kept r r' ∨ ∃ t c, Stole r r' t c) ∧
    (r.engine.config.placement = .push → r.AtHome) ∧
    (r.engine.draining = true → ∀ r', Relation.ReflTransGen Step r r' →
      r'.moves = r.moves ∧ ∀ r'', Step r' r'' → Kept r' r'') := by
  have hsound := h.sound
  refine ⟨⟨hsound.successes, fun t x hx => ?_, hsound.total_movesOf⟩, hsound.successes_mod,
    hsound.successes_eq, fun r' s => s.kept_or_stole hsound, hsound.home, fun hd r' hrun => ?_⟩
  · exact (Engine.stolenOf_of_task? hx).symm.trans (hsound.stolen t)
  · obtain ⟨hsound', hd', hmoves⟩ := hsound.run_of_draining hd hrun
    exact ⟨hmoves, fun r'' s => s.kept_of_draining hsound' hd'⟩

/-- A carrier steals a task that waits on another one, and both counts say so. -/
theorem migrations_of_stolen_task : ∃ r : Traffic Unit, Reached r ∧ r.moves = [⟨⟨0⟩, 1⟩] ∧
    r.engine.stats.stealSuccesses.toNat = 1 ∧ total (·.stolen) r.engine.tasks = 1 := by
  have h0 := Reached.start (V := Unit)
    (show Engine.start { workers := 2 } 1 [] .absent = .ok _ from rfl)
  have h1 := h0.stay (.other (Engine.frame_updateCarrier (c := 0)
    (g := (·.enqueue (.start ⟨0, "", none⟩)))
    (fun x => by simp [Carrier.core, Carrier.enqueue, Runnable.isResume]) fun _ => rfl))
    ⟨fun _ => rfl, rfl, rfl, id⟩
  have h2 := h1.step (.take (c := 0) rfl (.own rfl))
  have h3 := h2.advance (.obtainFresh (c := 0) (s := ⟨0, "", none⟩) rfl)
    (fun _ => Phase.noConfusion) (Engine.sameRecord_makeTask _)
  have h4 := h3.advance (.assign (c := 0) rfl) (fun _ => Phase.noConfusion)
    (Floor.keeps_assign (c := 0) (t := ⟨0⟩) (s := ⟨0, "", none⟩) h3.sound.floor rfl).toSameRecord
  have h5 := h4.advance (.switchIn 5 (c := 0) rfl rfl rfl rfl) (fun _ => Phase.noConfusion)
    (Engine.anchored_switchIn _ _ _ _).toSameRecord
  have h6 := h5.advance (.park (c := 0) (a := .user) rfl rfl rfl) (fun _ => Phase.noConfusion)
    (Engine.anchored_setParker _ _ _ _).toSameRecord
  have h7 := h6.advance (.leave (c := 0) rfl) (fun _ => Phase.noConfusion)
    (Engine.anchored_vacate _ _ _).toSameRecord
  have h8 := h7.step (.floor (.release (t := ⟨0⟩) .user rfl)
    (fun u => (List.sublist_cons_self _ _).count_le u) (fun _ _ => id) (Engine.sameRecord_put rfl rfl))
  have h9 := h8.wake 6 (t := ⟨0⟩) (by decide)
  have h10 := h9.step (.take (c := 1) rfl (.peer (i := 0) rfl rfl))
  have h11 := h10.advance (.unmark (c := 1) (t := ⟨0⟩) rfl) (fun _ => Phase.noConfusion)
    (Engine.anchored_unmark _ _).toSameRecord
  have h12 := h11.step (.steal (c := 1) (t := ⟨0⟩) rfl rfl (by decide) rfl)
  obtain ⟨-, -, hagree, -⟩ := h12.migrations
  have hfew : ∀ t : TaskId, [(⟨⟨0⟩, 1⟩ : Transfer)].countP (·.task = t) < 2 ^ 32 := fun t =>
    Nat.lt_of_le_of_lt List.countP_le_length (by decide)
  exact ⟨_, h12, rfl, rfl, (hagree hfew (by decide)).symm⟩

end GreenThreads.Traffic

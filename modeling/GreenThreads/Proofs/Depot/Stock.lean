import GreenThreads.Proofs.Engine.Nudges
import GreenThreads.Proofs.Ledger.Accounting

/-!
# The stock of tasks

A task that has a context is live, lies in a pool, or is destroyed. Here is what each operation of
an engine does to this stock and to the counters that record it.
-/

namespace GreenThreads

/-- What a task is good for: how often it was given work, whether it has some, and whether it has a
context, unless it is destroyed. -/
def Task.upkeep (t : Task) : Nat × Status × Bool :=
  (t.generation, t.status, t.status != .dead && t.context != .absent)

/-- Whether a counter records a task that came out of a pool. -/
def Counter.isHit : Counter → Bool
  | localCacheHits | globalCacheHits | stolenCacheHits => true
  | _ => false

/-- Whether a counter records contexts or the use of pools. -/
def Counter.isStock : Counter → Bool
  | contextsCreated | cacheDiscards => true
  | n => n.isHit

theorem Counter.isKept_of_isStock {n : Counter} (h : n.isStock = true) : n.isKept = true := by
  cases n with
  | contextsCreated | localCacheHits | globalCacheHits | stolenCacheHits | cacheDiscards => rfl
  | _ => cases h

namespace Engine

variable {V : Type} {e e' e'' : Engine V} {t : TaskId} {c i : Nat} {now : Nanos} {f : Task → Task}
  {g : Carrier → Carrier} {x y : Task}

/-- How many tasks lie in pools. -/
def shelved (e : Engine V) : Nat := total (·.pool.size) e.carriers + e.pool.size

/-- No pool holds more than it may. -/
def Roomy (e : Engine V) : Prop :=
  (∀ (c : Nat) (x : Carrier), e.carriers[c]? = some x → x.pool.size ≤ x.pool.capacity) ∧
    e.pool.size ≤ e.pool.capacity

/-- Every task that was not destroyed has a context. -/
def Equipped (e : Engine V) : Prop :=
  ∀ t x, e.task? t = some x → x.status = .dead ∨ x.context ≠ .absent

/-- `e'` has the stock of `e`, and a drain that has begun goes on. -/
structure SameStock (e e' : Engine V) : Prop where
  tasks : e'.tasks.map Task.upkeep = e.tasks.map Task.upkeep
  shelves : e'.carriers.map (·.pool) = e.carriers.map (·.pool)
  pool : e'.pool = e.pool
  live : e'.live = e.live
  stats : ∀ n : Counter, n.isStock = true → e'.stats.get n = e.stats.get n
  draining : e.draining = true → e'.draining = true

namespace SameStock

theorem refl (e : Engine V) : SameStock e e :=
  ⟨rfl, rfl, rfl, rfl, fun _ _ => rfl, fun h => h⟩

theorem trans (h : SameStock e e') (h' : SameStock e' e'') : SameStock e e'' :=
  ⟨h'.tasks.trans h.tasks, h'.shelves.trans h.shelves, h'.pool.trans h.pool, h'.live.trans h.live,
    fun n hn => (h'.stats n hn).trans (h.stats n hn), fun hd => h'.draining (h.draining hd)⟩

theorem shelved (h : SameStock e e') : e'.shelved = e.shelved := by
  have hcarriers : total (fun x : Carrier => x.pool.size) e'.carriers =
      total (fun x : Carrier => x.pool.size) e.carriers :=
    total_of_map_eq Pool.size (fun _ => rfl) h.shelves
  rw [Engine.shelved, hcarriers, h.pool, Engine.shelved]

theorem roomy (h : SameStock e e') (hroom : e.Roomy) : e'.Roomy := by
  refine ⟨fun c x' hx' => ?_, ?_⟩
  · obtain ⟨x, hx, hpool⟩ := exists_of_map_eq h.shelves hx'
    rw [hpool]
    exact hroom.1 c x hx
  · rw [h.pool]
    exact hroom.2

theorem equipped (h : SameStock e e') (he : e.Equipped) : e'.Equipped := by
  intro t x' hx'
  obtain ⟨x, hx, hupkeep⟩ := exists_of_map_eq h.tasks hx'
  have hstatus : x'.status = x.status := congrArg (·.2.1) hupkeep
  have hcontext := congrArg (·.2.2) hupkeep
  rcases he t x hx with hdead | hcontext'
  · exact .inl (hstatus.trans hdead)
  · by_cases hdead : x'.status = .dead
    · exact .inl hdead
    · refine .inr ?_
      simp only [Task.upkeep, ← hstatus, bne_iff_ne.mpr hdead, bne_iff_ne.mpr hcontext',
        Bool.true_and, bne_iff_ne] at hcontext
      exact hcontext

end SameStock

/-! ## Operations that leave the stock as it is -/

theorem Nudge.sameStock (h : Nudge e e') : SameStock e e' := by
  cases h with
  | @task t f h home =>
      refine ⟨map_modify_of_eq fun x hx => ?_, rfl, rfl, rfl, fun _ _ => rfl, fun hd => hd⟩
      obtain ⟨hbadge, hcontext, -, -⟩ := h x hx
      have hgeneration : (f x).generation = x.generation := (congrArg Task.generation hbadge :)
      have hstatus : (f x).status = x.status := (congrArg Task.status hbadge :)
      by_cases hdead : x.status = .dead
      · simp only [Task.upkeep, hgeneration, hstatus, hdead, bne_self_eq_false, Bool.false_and]
      · simp only [Task.upkeep, hgeneration, hstatus, hcontext hdead]
  | carrier h =>
      exact ⟨rfl, map_modify_of_eq fun x hx => congrArg Prod.snd (h x hx), rfl, rfl,
        fun _ _ => rfl, fun hd => hd⟩
  | @add n k h =>
      refine ⟨rfl, rfl, rfl, rfl, fun m hm => ?_, fun hd => hd⟩
      rw [Stats.get_add, if_neg]
      rintro rfl
      rw [Counter.isKept_of_isStock hm] at h
      cases h
  | _ => exact ⟨rfl, rfl, rfl, rfl, fun _ _ => rfl, fun hd => hd⟩

theorem Nudges.sameStock (h : Nudges e e') : SameStock e e' :=
  h.induct .refl .trans Nudge.sameStock

theorem sameStock_put (hx : e.task? t = some x) (hy : x.Metered y) :
    SameStock e (e.updateTask t fun _ => y) := by
  obtain ⟨n, r, group, rfl⟩ := hy
  exact ⟨map_put hx rfl, rfl, rfl, rfl, fun _ _ => rfl, fun hd => hd⟩

theorem sameStock_setParker (e : Engine V) (t : TaskId) (a : Axis) (q : Task → Parker) :
    SameStock e (e.updateTask t fun x => x.setParker a (q x)) :=
  ⟨map_updateTask fun x => by cases a <;> rfl, rfl, rfl, rfl, fun _ _ => rfl, fun hd => hd⟩

theorem sameStock_updateGroup (e : Engine V) (k : GroupId) (h : ControlGroup → ControlGroup) :
    SameStock e (e.updateGroup k h) := ⟨rfl, rfl, rfl, rfl, fun _ _ => rfl, fun hd => hd⟩

theorem sameStock_attach (e : Engine V) (now : Nanos) (t : TaskId) (k : GroupId) :
    SameStock e (e.attach now t k).1 := by
  unfold attach
  split
  · next x G hx _ =>
      split
      · next G' y hy =>
          exact (sameStock_updateGroup e k fun _ => G').trans (sameStock_put hx (.attach hy))
      · exact .refl e
  · exact .refl e

theorem sameStock_detach (e : Engine V) (now : Nanos) (t : TaskId) (k : GroupId) :
    SameStock e (e.detach now t k) := by
  unfold detach
  split
  · next x G hx _ =>
      exact (sameStock_updateGroup e k fun _ => (G.detach k x now).1).trans
        (sameStock_put hx (.detach G k x now))
  · exact .refl e

theorem sameStock_updateCarrier (h : ∀ x, e.carriers[c]? = some x → (g x).pool = x.pool) :
    SameStock e (e.updateCarrier c g) :=
  ⟨rfl, map_modify_of_eq h, rfl, rfl, fun _ _ => rfl, fun hd => hd⟩

theorem Taken.sameStock {r : Runnable} (h : e.Taken c r e') : SameStock e e' := by
  have hdequeue : ∀ {i : Nat} {e' : Engine V}, e.dequeue? i = some (r, e') → SameStock e e' := by
    intro i e' hi
    obtain ⟨d, rest, -, -, rfl⟩ := dequeue?_spec hi
    exact sameStock_updateCarrier fun _ _ => rfl
  cases h with
  | own hi => exact hdequeue hi
  | stolen _ _ hi => exact hdequeue hi
  | shared _ hi =>
      obtain ⟨rest, -, rfl⟩ := dequeueShared?_spec hi
      exact ⟨rfl, rfl, rfl, rfl, fun _ _ => rfl, fun hd => hd⟩

theorem sameStock_redraw (e : Engine V) (draws : Draws) : SameStock e (e.redraw draws) :=
  ⟨rfl, rfl, rfl, rfl, fun _ _ => rfl, fun hd => hd⟩

/-- Which entries may be taken does not depend on what is drawn. -/
theorem Taken.redraw {r : Runnable} (h : e.Taken c r e') (draws : Draws) :
    (e.redraw draws).Taken c r (e'.redraw draws) := by
  have hdequeue : ∀ {i : Nat}, e.dequeue? i = some (r, e') →
      (e.redraw draws).dequeue? i = some (r, e'.redraw draws) := by
    intro i hi
    unfold dequeue? at hi ⊢
    split at hi
    · next hx =>
        cases hi
        rw [Engine.redraw, hx]
        rfl
    · cases hi
  cases h with
  | own hi => exact .own (hdequeue hi)
  | stolen pulls runs hi => exact .stolen pulls runs (hdequeue hi)
  | shared pulls hi =>
      refine .shared pulls ?_
      unfold dequeueShared? at hi ⊢
      split at hi
      · cases hi
      · next hshared =>
          cases hi
          rw [Engine.redraw, hshared]
          rfl

theorem sameStock_place (e : Engine V) (caller : Option TaskId) (s : Submission) :
    SameStock e (e.place caller s) := by
  unfold place
  split
  · exact sameStock_updateCarrier fun _ _ => rfl
  · split
    · exact sameStock_updateCarrier fun _ _ => rfl
    · exact ⟨rfl, rfl, rfl, rfl, fun _ _ => rfl, fun hd => hd⟩

theorem sameStock_count (e : Engine V) {n : Counter} (h : n.isStock = false) :
    SameStock e (e.count n) := by
  refine ⟨rfl, rfl, rfl, rfl, fun m hm => ?_, fun hd => hd⟩
  refine (Stats.get_add e.stats n m 1).trans (if_neg ?_)
  rintro rfl
  rw [h] at hm
  cases hm

theorem sameStock_accept (e : Engine V) (caller : Option TaskId) (name : String)
    (group : Option GroupId) : SameStock e (e.accept caller name group).1 := by
  have hjob : SameStock e { e.makeJob.1 with outstanding := e.makeJob.1.outstanding + 1 } :=
    ⟨rfl, rfl, rfl, rfl, fun _ _ => rfl, fun hd => hd⟩
  exact (hjob.trans (sameStock_count _ rfl)).trans (sameStock_place _ caller _)

theorem sameStock_submit (e : Engine V) (caller : Option TaskId) (name : String)
    (group : Option GroupId) : SameStock e (e.submit caller name group).1 := by
  unfold submit
  split
  · exact sameStock_count e rfl
  · exact sameStock_accept e caller name group

theorem sameStock_shutdown (e : Engine V) (caller : Option TaskId) :
    SameStock e (e.shutdown caller).1 := by
  have hclosed : SameStock e { e with accepting := false } :=
    ⟨rfl, rfl, rfl, rfl, fun _ _ => rfl, fun hd => hd⟩
  unfold shutdown
  split
  · exact hclosed.trans (sameStock_accept _ caller drainName none)
  · exact .refl e

theorem sameStock_publish (e : Engine V) (now : Nanos) (j : JobId) (r : Join V × List Waker) :
    SameStock e (e.publish now j r) := by
  have hcell : SameStock e (e.updateJob j fun _ => r.1) :=
    ⟨rfl, rfl, rfl, rfl, fun _ _ => rfl, fun hd => hd⟩
  exact hcell.trans (nudges_foldl (fun e w => nudges_useWaker e now w) _ r.2).sameStock

theorem sameStock_finishJob (e : Engine V) (now : Nanos) (j : JobId) (outcome : Except Unwind V) :
    SameStock e (e.finishJob now j outcome) := by
  unfold finishJob
  split
  · exact .refl e
  · exact sameStock_publish e now j _

theorem sameStock_finishOne (e : Engine V) : SameStock e e.finishOne :=
  have hunit : SameStock e { e with outstanding := e.outstanding - 1 } :=
    ⟨rfl, rfl, rfl, rfl, fun _ _ => rfl, fun hd => hd⟩
  hunit.trans (sameStock_count _ rfl)

/-- Work that is given up needs no task. -/
theorem sameStock_begin_of_moot {s : Submission} (h : e.isMoot s = true) (now : Nanos) (c : Nat) :
    SameStock e (e.begin now c s) := by
  have habandon : SameStock e (e.abandonJob now s.job) := by
    unfold abandonJob
    split
    · exact .refl e
    · exact sameStock_publish e now s.job _
  rw [begin_of_moot h]
  exact habandon.trans (sameStock_finishOne _)

/-! ## Obtaining a task -/

/-- `e'` is `e` without the task `t` in a pool. -/
structure Unshelved (e e' : Engine V) : Prop where
  tasks : e'.tasks = e.tasks
  shelved : e'.shelved + 1 = e.shelved
  roomy : e.Roomy → e'.Roomy
  live : e'.live = e.live
  stats : e'.stats = e.stats
  draining : e'.draining = e.draining

theorem Roomy.updateCarrier (h : e.Roomy)
    (hg : ∀ x, e.carriers[c]? = some x → x.pool.size ≤ x.pool.capacity →
      (g x).pool.size ≤ (g x).pool.capacity) : (e.updateCarrier c g).Roomy := by
  refine ⟨fun i y hy => ?_, h.2⟩
  rw [getElem?_updateCarrier] at hy
  split at hy
  · next hi =>
      obtain ⟨x, hx, rfl⟩ := Option.map_eq_some_iff.mp hy
      exact hg x (hi ▸ hx) (h.1 i x hx)
  · exact h.1 i y hy

theorem Popped.unshelved (h : e.Popped t e') : Unshelved e e' := by
  cases h with
  | own hi =>
      obtain ⟨x, rest, hx, hitems, rfl⟩ := popPooled?_spec hi
      refine ⟨rfl, ?_, fun hroom => hroom.updateCarrier fun y hy hle => ?_, rfl, rfl, rfl⟩
      · have hmod := total_modify (f := fun x : Carrier => x.pool.size)
          (fun x => { x with pool := { capacity := x.pool.capacity, items := rest } }) hx
        simp only [Pool.size, hitems, List.length_cons] at hmod
        simp only [Engine.shelved, Engine.updateCarrier, Pool.size]
        omega
      · rw [hx] at hy
        cases hy
        simp only [Pool.size, hitems, List.length_cons] at hle
        exact Nat.le_of_succ_le hle
  | shared hi =>
      unfold Pool.pop? at hi
      split at hi
      · cases hi
      · next s rest hitems =>
          cases hi
          refine ⟨rfl, ?_, fun hroom => ⟨hroom.1, ?_⟩, rfl, rfl, rfl⟩
          · simp only [Engine.shelved, Pool.size, hitems, List.length_cons]
            omega
          · have hle := hroom.2
            simp only [Pool.size, hitems, List.length_cons] at hle
            exact Nat.le_of_succ_le hle

/-- Wherever it begins, a carrier looks into the pools of all the others. -/
theorem mem_peers (hi : i < e.carriers.size) (hne : i ≠ c) : i ∈ e.peers c := by
  have hpos : 0 < e.carriers.size := Nat.zero_lt_of_lt hi
  have hstart := Nat.mod_lt (c + 1 + e.draws.pools) hpos
  -- how far carrier `i` comes after the one that is looked at first
  refine List.mem_filter.mpr ⟨List.mem_map.mpr ?_, bne_iff_ne.mpr hne⟩
  refine ⟨(i + e.carriers.size - (c + 1 + e.draws.pools) % e.carriers.size) % e.carriers.size,
    List.mem_range.mpr (Nat.mod_lt _ hpos), ?_⟩
  have hsum : (c + 1 + e.draws.pools) % e.carriers.size +
      (i + e.carriers.size - (c + 1 + e.draws.pools) % e.carriers.size) = i + e.carriers.size := by
    omega
  rw [successor, ← Nat.add_assoc, Nat.add_mod_mod, ← Nat.mod_add_mod, hsum, Nat.add_mod_right,
    Nat.mod_eq_of_lt hi]

theorem size_eq_zero_of_popPooled? {d : Carrier} (hd : e.carriers[i]? = some d)
    (h : e.popPooled? i = none) : d.pool.size = 0 := by
  unfold popPooled? at h
  split at h
  · cases h
  · next hpop =>
      rw [hd, Option.bind_some, Pool.pop?] at hpop
      split at hpop
      · next hitems => rw [Pool.size, hitems]; rfl
      · cases hpop

/-- A task for new work comes out of a pool, which is counted, or it is a new one. Unless the engine
is being drained, a new one is made only if all pools are empty. -/
theorem obtain_stock (hc : c < e.carriers.size) :
    (∃ e₀ n, e.Popped (e.obtain c).2 e₀ ∧ (e.obtain c).1 = e₀.count n ∧ n.isHit = true) ∨
      e.obtain c = e.makeTask ∧ (e.draining = false → e.shelved = 0) := by
  unfold obtain
  split
  · next t e₀ hi => exact .inl ⟨e₀, .localCacheHits, .own hi, rfl, rfl⟩
  · next hown =>
      split
      · next t pool hi => exact .inl ⟨_, .globalCacheHits, .shared hi, rfl, rfl⟩
      · next hshared =>
          split
          · next t e₀ hs =>
              split at hs
              · cases hs
              · obtain ⟨i, -, hi⟩ := List.exists_of_findSome?_eq_some hs
                exact .inl ⟨e₀, .stolenCacheHits, .own hi, rfl, rfl⟩
          · next hs =>
              refine .inr ⟨rfl, fun hruns => ?_⟩
              rw [if_neg (by rw [hruns]; exact Bool.false_ne_true)] at hs
              have hempty : ∀ x ∈ e.carriers, x.pool.size = 0 := by
                intro x hx
                obtain ⟨i, hi⟩ := Array.mem_iff_getElem?.mp hx
                have hlt := (Array.getElem?_eq_some_iff.mp hi).1
                by_cases hic : i = c
                · subst hic
                  exact size_eq_zero_of_popPooled? hi hown
                · exact size_eq_zero_of_popPooled? hi
                    (List.findSome?_eq_none_iff.mp hs i (mem_peers hlt hic))
              have hpool : e.pool.size = 0 := by
                rw [Pool.pop?] at hshared
                split at hshared
                · next hitems => rw [Pool.size, hitems]; rfl
                · cases hshared
              rw [Engine.shelved, total_eq_zero hempty, hpool]

end Engine

end GreenThreads

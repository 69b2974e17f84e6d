import GreenThreads.Proofs.Depot.Stock

/-!
# No task is lost and none is kept twice

Beside an engine a depot counts the pieces of work that were started and keeps the largest number of
tasks that were live at one time. Contexts are made only when all pools are empty, so there are
never more of them than tasks were live at one time.
-/

namespace GreenThreads

/-- An engine with what became of its work, and how busy it was. -/
structure Depot (V : Type) where
  ledger : Ledger V
  /-- How many pieces of work were given to a task. -/
  started : Nat := 0
  /-- The largest number of tasks that were live at one time. -/
  peak : Nat := 0

/-! ## The stock of an engine -/

namespace Engine

variable {V : Type} {e e' : Engine V} {t u : TaskId} {c hand started peak : Nat} {x : Task}
  {k : Counter} {w : Submission}

/-- The stock of an engine adds up. In hand is a task that was obtained for new work and has none
yet, or whose work is over and that is in no pool yet. -/
structure Stocked (hand : Nat) (e : Engine V) (started peak : Nat) : Prop where
  equipped : e.Equipped
  roomy : e.Roomy
  contexts : e.stats.contextsCreated =
    .ofNat (e.live.length + hand + e.shelved) + e.stats.cacheDiscards
  dispatches : e.stats.localCacheHits + e.stats.globalCacheHits + e.stats.stolenCacheHits +
    e.stats.contextsCreated = .ofNat started
  crest : e.live.length + hand ≤ peak
  reuse : e.draining = false → e.live.length + hand + e.shelved ≤ peak

namespace Stocked

theorem live_le (h : Stocked hand e started peak) : e.live.length ≤ peak :=
  Nat.le_trans (Nat.le_add_right _ hand) h.crest

theorem same (h : Stocked hand e started peak) (hs : SameStock e e') :
    Stocked hand e' started peak := by
  have hcontexts : e'.stats.contextsCreated = e.stats.contextsCreated :=
    hs.stats .contextsCreated rfl
  have hdiscards : e'.stats.cacheDiscards = e.stats.cacheDiscards := hs.stats .cacheDiscards rfl
  have hlocal : e'.stats.localCacheHits = e.stats.localCacheHits := hs.stats .localCacheHits rfl
  have hglobal : e'.stats.globalCacheHits = e.stats.globalCacheHits :=
    hs.stats .globalCacheHits rfl
  have hstolen : e'.stats.stolenCacheHits = e.stats.stolenCacheHits :=
    hs.stats .stolenCacheHits rfl
  refine ⟨hs.equipped h.equipped, hs.roomy h.roomy, ?_, ?_, ?_, fun hruns => ?_⟩
  · rw [hcontexts, hdiscards, hs.live, hs.shelved]
    exact h.contexts
  · rw [hcontexts, hlocal, hglobal, hstolen]
    exact h.dispatches
  · rw [hs.live]
    exact h.crest
  · rw [hs.live, hs.shelved]
    refine h.reuse ?_
    cases hd : e.draining with
    | false => rfl
    | true =>
        rw [hs.draining hd] at hruns
        cases hruns

theorem unshelve (h : Stocked 0 e started peak) (ht : e.Popped t e') (hk : k.isHit = true) :
    Stocked 1 (e'.count k) (started + 1) (max peak (e.live.length + 1)) := by
  have hu := ht.unshelved
  have hplaces : e'.live.length + 1 + e'.shelved = e.live.length + 0 + e.shelved := by
    rw [hu.live, ← hu.shelved]
    omega
  have hcontexts : (e'.stats.bump k).contextsCreated = e.stats.contextsCreated := by
    rw [hu.stats]
    cases k <;> first | rfl | cases hk
  have hdiscards : (e'.stats.bump k).cacheDiscards = e.stats.cacheDiscards := by
    rw [hu.stats]
    cases k <;> first | rfl | cases hk
  refine ⟨fun u x hx => h.equipped u x ?_, hu.roomy h.roomy, ?_, ?_, ?_, fun hruns => ?_⟩
  · rw [task?, ← hu.tasks]
    exact hx
  · have hshelved : (e'.count k).shelved = e'.shelved := rfl
    have hlive : (e'.count k).live = e'.live := rfl
    rw [hshelved, hlive, hplaces, Engine.count, hcontexts, hdiscards]
    exact h.contexts
  · have hold := h.dispatches
    rw [← ofNat_succ, ← hold, ← hu.stats]
    cases k with
    | localCacheHits | globalCacheHits | stolenCacheHits =>
        simp only [Engine.count, Stats.bump, Stats.add]
        ac_rfl
    | _ => cases hk
  · have hlive : (e'.count k).live = e.live := hu.live
    rw [hlive]
    exact Nat.le_max_right _ _
  · have hold := h.reuse (hu.draining.symm.trans hruns)
    have hshelved : (e'.count k).shelved = e'.shelved := rfl
    have hlive : (e'.count k).live = e'.live := rfl
    rw [hshelved, hlive, hplaces]
    exact Nat.le_trans hold (Nat.le_max_left _ _)

theorem make (h : Stocked 0 e started peak) (hempty : e.draining = false → e.shelved = 0) :
    Stocked 1 (e.makeTask.1.ensureContext e.makeTask.2) (started + 1)
      (max peak (e.live.length + 1)) := by
  have hfresh : e.makeTask.1.task? e.makeTask.2 = some (Task.fresh e.makeTask.2) := by
    rw [task?_makeTask, if_pos rfl]
  have hmade : e.makeTask.1.ensureContext e.makeTask.2 =
      (e.makeTask.1.updateTask e.makeTask.2 Task.ensureContext).count .contextsCreated := by
    rw [ensureContext, hfresh]
    rfl
  rw [hmade]
  refine ⟨fun u x hx => ?_, h.roomy, ?_, ?_, Nat.le_max_right _ _, fun hruns => ?_⟩
  · have hx' : (e.makeTask.1.updateTask e.makeTask.2 Task.ensureContext).task? u = some x := hx
    rw [task?_updateTask] at hx'
    split at hx'
    · obtain ⟨y, -, rfl⟩ := Option.map_eq_some_iff.mp hx'
      refine .inr ?_
      unfold Task.ensureContext
      split
      · exact TaskContext.noConfusion
      · next hcontext => exact hcontext
    · next hu =>
        rw [task?_makeTask, if_neg hu] at hx'
        exact h.equipped u x hx'
  · have hold := h.contexts
    have hplaces : e.live.length + 1 + e.shelved = e.live.length + 0 + e.shelved + 1 := by omega
    have hbump : e.stats.contextsCreated + 1 =
        .ofNat (e.live.length + 1 + e.shelved) + e.stats.cacheDiscards := by
      rw [hplaces, ← ofNat_succ, hold]
      ac_rfl
    exact hbump
  · have hbump : e.stats.localCacheHits + e.stats.globalCacheHits + e.stats.stolenCacheHits +
        (e.stats.contextsCreated + 1) = .ofNat (started + 1) := by
      rw [← ofNat_succ, ← h.dispatches]
      ac_rfl
    exact hbump
  · have hnone : e.shelved = 0 := hempty hruns
    have hle : e.live.length + 1 + e.shelved ≤ max peak (e.live.length + 1) := by
      rw [hnone]
      exact Nat.le_max_right _ _
    exact hle

theorem give (h : Stocked 1 e started peak) (hx : e.task? t = some x)
    (hcached : x.status = .cached) (hidle : ∀ a, (x.parker a).isWaiting = false) :
    Stocked 0 (e.assign c t w) started peak := by
  rw [assign_eq hx hcached hidle]
  have hlive : (e.live ++ [t]).length + 0 = e.live.length + 1 := List.length_append
  refine ⟨fun u y hy => ?_, h.roomy, ?_, h.dispatches, ?_, fun hruns => ?_⟩
  · have hy' : (e.updateTask t (Floor.assigned c w)).task? u = some y := hy
    rw [task?_updateTask] at hy'
    split at hy'
    · next hu =>
        obtain ⟨z, hz, rfl⟩ := Option.map_eq_some_iff.mp hy'
        rcases h.equipped u z hz with hdead | hcontext
        · rw [hu, hx] at hz
          cases hz
          rw [hcached] at hdead
          cases hdead
        · exact .inr hcontext
    · exact h.equipped u y hy'
  · have hcontexts := h.contexts
    rw [← hlive] at hcontexts
    exact hcontexts
  · exact Nat.le_trans (Nat.le_of_eq hlive) h.crest
  · have hreuse := h.reuse hruns
    rw [← hlive] at hreuse
    exact hreuse

theorem leave (h : Stocked 0 e started peak) (ht : t ∈ e.live) (hnodup : e.live.Nodup) :
    Stocked 1 ({ e with live := e.live.filter (· != t) } : Engine V).finishOne started peak := by
  have herase : e.live.filter (· != t) = e.live.erase t := (hnodup.erase_eq_filter t).symm
  have hlive : (e.live.filter (· != t)).length + 1 = e.live.length + 0 := by
    rw [herase, List.length_erase_of_mem ht, Nat.add_zero]
    have hpos := List.length_pos_of_mem ht
    omega
  refine ⟨h.equipped, h.roomy, ?_, h.dispatches, ?_, fun hruns => ?_⟩
  · have hcontexts := h.contexts
    rw [← hlive] at hcontexts
    exact hcontexts
  · exact Nat.le_trans (Nat.le_of_eq hlive) h.crest
  · have hreuse := h.reuse hruns
    rw [← hlive] at hreuse
    exact hreuse

end Stocked

theorem size_push? {p q : Pool} (h : p.push? t = some q) :
    q.size = p.size + 1 ∧ q.size ≤ q.capacity := by
  unfold Pool.push? at h
  split at h
  · next hroom =>
      cases h
      simp only [Pool.size, List.length_append, List.length_singleton] at hroom ⊢
      exact ⟨trivial, hroom⟩
  · cases h

theorem Stocked.recycle (h : Stocked 1 e started peak) (hx : e.task? t = some x)
    (halive : x.status ≠ .dead) : Stocked 0 (e.recycle c t) started peak := by
  have hcontext : x.context ≠ .absent := (h.equipped t x hx).resolve_left halive
  have hequipped : ∀ n : Status, (e.updateTask t ({ · with status := n })).Equipped := by
    intro n u y hy
    rw [task?_updateTask] at hy
    split at hy
    · next hu =>
        obtain ⟨z, hz, rfl⟩ := Option.map_eq_some_iff.mp hy
        rw [hu, hx] at hz
        cases hz
        exact .inr hcontext
    · exact h.equipped u y hy
  unfold Engine.recycle
  dsimp only
  split
  · next pool hpush =>
      obtain ⟨d, hd, hpush⟩ := Option.bind_eq_some_iff.mp hpush
      have hd : e.carriers[c]? = some d := hd
      obtain ⟨hsize, hroom⟩ := size_push? hpush
      have hmod : total (fun y : Carrier => y.pool.size)
          (e.carriers.modify c ({ · with pool })) + d.pool.size =
            total (fun y : Carrier => y.pool.size) e.carriers + pool.size := total_modify _ hd
      have hplaces : e.live.length + 0 + ((e.updateTask t ({ · with
          status := .cached })).updateCarrier c ({ · with pool })).shelved =
            e.live.length + 1 + e.shelved := by
        simp only [shelved, updateCarrier, updateTask]
        omega
      refine ⟨hequipped .cached, h.roomy.updateCarrier fun _ _ _ => hroom, ?_, h.dispatches,
        Nat.le_of_succ_le h.crest, fun hruns => ?_⟩
      · exact h.contexts.trans (by rw [← hplaces]; rfl)
      · exact Nat.le_trans (Nat.le_of_eq hplaces) (h.reuse hruns)
  · split
    · next pool hpush =>
        obtain ⟨hsize, hroom⟩ := size_push? hpush
        have hsize : pool.size = e.pool.size + 1 := hsize
        have hplaces : e.live.length + 0 + ({ e.updateTask t ({ · with status := .cached }) with
            pool } : Engine V).shelved = e.live.length + 1 + e.shelved := by
          simp only [shelved, updateTask, hsize]
          omega
        refine ⟨hequipped .cached, ⟨h.roomy.1, hroom⟩, ?_, h.dispatches,
          Nat.le_of_succ_le h.crest, fun hruns => ?_⟩
        · exact h.contexts.trans (by rw [← hplaces]; rfl)
        · exact Nat.le_trans (Nat.le_of_eq hplaces) (h.reuse hruns)
    · have hdead : (((e.updateTask t ({ · with status := .cached })).updateTask t
          ({ · with status := .dead })).count .cacheDiscards).Equipped := by
        rw [updateTask_updateTask]
        exact hequipped .dead
      refine ⟨hdead, h.roomy, ?_, h.dispatches, Nat.le_of_succ_le h.crest, fun hruns => ?_⟩
      · have hplaces : e.live.length + 1 + e.shelved = e.live.length + 0 + e.shelved + 1 := by omega
        have hbump : e.stats.contextsCreated =
            .ofNat (e.live.length + 0 + e.shelved) + (e.stats.cacheDiscards + 1) := by
          rw [h.contexts, hplaces, ← ofNat_succ]
          ac_rfl
        exact hbump
      · have hle : e.live.length + 0 + e.shelved ≤ peak := by
          have hreuse := h.reuse hruns
          omega
        exact hle

/-- Only the task itself is destroyed when its work is over, and only if there is no room for it. -/
theorem full_of_recycle {y : Task} (hx : e.task? u = some x) (hlive : x.status ≠ .dead)
    (hy : (e.recycle c t).task? u = some y) (hdead : y.status = .dead) :
    u = t ∧ (∀ d, e.carriers[c]? = some d → d.pool.capacity ≤ d.pool.size) ∧
      e.pool.capacity ≤ e.pool.size := by
  have hmark : ∀ {n : Status} {z : Task},
      (e.updateTask t ({ · with status := n })).task? u = some z → z.status = .dead →
        u = t ∧ n = .dead := by
    intro n z hz hstatus
    rw [task?_updateTask] at hz
    split at hz
    · next hu =>
        obtain ⟨z, -, rfl⟩ := Option.map_eq_some_iff.mp hz
        exact ⟨hu, hstatus⟩
    · rw [hx] at hz
      cases hz
      exact absurd hstatus hlive
  have hfull : ∀ {p : Pool}, p.push? t = none → p.capacity ≤ p.size := by
    intro p hp
    unfold Pool.push? at hp
    split at hp
    · cases hp
    · next hroom => exact Nat.le_of_not_lt hroom
  unfold recycle at hy
  dsimp only at hy
  split at hy
  · cases (hmark hy hdead).2
  · next hown =>
      split at hy
      · cases (hmark hy hdead).2
      · next hshared =>
          have hy' : ((e.updateTask t ({ · with status := .cached })).updateTask t
              ({ · with status := .dead })).task? u = some y := hy
          rw [updateTask_updateTask] at hy'
          refine ⟨(hmark hy' hdead).1, fun d hd => hfull ?_, hfull hshared⟩
          have hbind := hown
          rw [show (e.updateTask t ({ · with status := .cached })).carriers[c]? = some d
            from hd] at hbind
          exact hbind

theorem upkeep_recycle_of_ne (h : u ≠ t) (c : Nat) :
    (e.recycle c t).task? u = e.task? u := by
  obtain ⟨n, hr⟩ := recycled_recycle e c t
  rw [task?, hr.tasks, ← task?, task?_updateTask, if_neg h]

/-- What the end of its work does before the task is recycled, and after. -/
theorem exit_stock (e : Engine V) (now : Nanos) (c : Nat) (t : TaskId) :
    ∃ e₀, SameStock e e₀ ∧ SameWork e e₀ ∧ e.exit now c t =
      (({ e₀ with live := e₀.live.filter (· != t) }.finishOne).recycle c t).switchOut now c := by
  have hnudges : Nudges e (((e.unregisterChannel t).disarm t).accountRun now t) :=
    ((nudges_unregisterChannel e t).trans (nudges_disarm _ t)).trans (nudges_accountRun _ now t)
  unfold exit
  dsimp only
  split
  · exact ⟨_, hnudges.sameStock.trans (sameStock_detach _ now t _),
      hnudges.sameWork.trans (sameWork_detach _ now t _), rfl⟩
  · exact ⟨_, hnudges.sameStock, hnudges.sameWork, rfl⟩

/-- What follows when a task was given work leaves the stock as it is. -/
theorem begin_stock {s : Submission} (h : e.isMoot s = false) (now : Nanos)
    (hc : c < e.carriers.size)
    (hsize : ((e.ready c).assign c (e.obtain c).2 s).carriers.size = e.carriers.size) :
    SameStock ((e.ready c).assign c (e.obtain c).2 s) (e.begin now c s) := by
  have hresume : ∀ {e₁ : Engine V}, e₁.carriers.size = e.carriers.size →
      SameStock e₁ (e₁.resume now c (e.obtain c).2) := fun h =>
    (nudges_resume (h.symm ▸ hc) now _).sameStock
  unfold isMoot at h
  unfold begin
  simp only [h, Bool.false_eq_true, ↓reduceIte]
  cases s.group with
  | none => exact hresume hsize
  | some k =>
      have hattach := sameStock_attach ((e.ready c).assign c (e.obtain c).2 s) now (e.obtain c).2 k
      have hshelves := congrArg Array.size hattach.shelves
      simp only [Array.size_map] at hshelves
      exact hattach.trans (hresume (hshelves.trans hsize))

end Engine

/-! ## Steps -/

namespace Depot

open Engine

variable {V : Type} {d d' : Depot V} {e : Engine V} {l : Ledger V} {t : TaskId} {x : Task}

/-- The engine of a depot. -/
abbrev engine (d : Depot V) : Engine V := d.ledger.engine

/-- The work of the engine gets on. -/
def next (d : Depot V) (l : Ledger V) : Depot V :=
  { d with ledger := l, peak := max d.peak l.engine.live.length }

/-- What can happen to the stock of an engine, as long as no carrier has ended. -/
inductive Step : Depot V → Depot V → Prop
  /-- Anything that can happen to the work and leaves the stock as it is. -/
  | aside {d : Depot V} {l : Ledger V} (h : d.ledger.Step l) (same : d.engine.SameStock l.engine) :
      Step d (d.next l)
  /-- Work that was taken out of a run queue is given to a task. Where it is looked for in the pools
  of other carriers is up to chance. -/
  | start {d : Depot V} {c : Nat} {s : Submission} {e : Engine V} (now : Nanos) (draws : Draws)
      (carrier : c < d.engine.carriers.size) (taken : d.engine.Taken c (.start s) e)
      (sound : e.isMoot s = false) :
      Step d { d.next { d.ledger with
          engine := (e.redraw draws).begin now c s
          bench := ⟨((e.redraw draws).obtain c).2, s.job, .given⟩ :: d.ledger.bench } with
        started := d.started + 1 }
  /-- The work of the running task is over. -/
  | exit {d : Depot V} {c : Nat} {s : Shift} {j : JobId} (now : Nanos) (on : s ∈ d.ledger.bench)
      (at_ : d.engine.current? c = some s.task) (progress : s.progress = .returned)
      (work : d.engine.jobOf s.task = some j) :
      Step d (d.next { d.ledger with
        engine := d.engine.exit now c s.task
        bench := d.ledger.bench.erase s
        settled := j :: d.ledger.settled })

/-- What can be reached from an engine that starts. -/
inductive Reached : Depot V → Prop
  | start {config : Config} {processors : Nat} {groups : List ControlGroup} {pump : EventPump}
      {e : Engine V} (h : Engine.start config processors groups pump = .ok e) :
      Reached { ledger := { engine := e } }
  | step {d d' : Depot V} (h : Reached d) (s : Step d d') : Reached d'

/-- A carrier has taken work out of a run queue and draws anew, which leaves the stock as it is. -/
theorem drawn {c : Nat} {s : Submission} (hl : d.ledger.Reached) (draws : Draws)
    (carrier : c < d.engine.carriers.size) (taken : d.engine.Taken c (.start s) e) :
    Ledger.Sound [s] { d.ledger with engine := e.redraw draws } ∧
      d.engine.SameStock (e.redraw draws) ∧ c < (e.redraw draws).carriers.size := by
  have hdrawn := taken.redraw draws
  exact ⟨(hl.redraw draws).sound.take hdrawn.left,
    (sameStock_redraw d.engine draws).trans hdrawn.sameStock, hdrawn.left.size ▸ carrier⟩

theorem Step.ledger (h : Step d d') (hl : d.ledger.Reached) : d'.ledger.Reached := by
  cases h with
  | aside h _ => exact hl.step h
  | start now draws carrier taken sound =>
      exact (hl.redraw draws).step (.start now carrier (taken.redraw draws) sound)
  | exit now on at_ progress work => exact hl.step (.exit now on at_ progress work)

theorem Reached.ledger (h : Reached d) : d.ledger.Reached := by
  induction h with
  | start h => exact .start h
  | step _ hs ih => exact hs.ledger ih

theorem stocked_start {config : Config} {processors : Nat} {groups : List ControlGroup}
    {pump : EventPump} (h : Engine.start config processors groups pump = .ok e) :
    Stocked 0 e 0 0 := by
  have hfresh := Floor.fresh_start h
  have hstart := start_eq h
  have hlive : e.live = [] := by rw [hstart]
  have hstats : e.stats = {} := by rw [hstart]
  have hempty : ∀ (c : Nat) (y : Carrier), e.carriers[c]? = some y → y.pool.size = 0 := by
    intro c y hy
    rw [hstart, Array.getElem?_ofFn] at hy
    split at hy
    · cases hy; rfl
    · cases hy
  have hpool : e.pool.size = 0 := by rw [hstart]; rfl
  have hshelved : e.shelved = 0 := by
    have hcarriers : total (fun y : Carrier => y.pool.size) e.carriers = 0 := by
      refine total_eq_zero fun y hy => ?_
      obtain ⟨i, hi⟩ := Array.mem_iff_getElem?.mp hy
      exact hempty i y hi
    rw [shelved, hcarriers, hpool]
  refine ⟨?_, ⟨?_, ?_⟩, ?_, ?_, ?_, ?_⟩
  · intro u y hy
    rw [task?, hfresh.tasks] at hy
    cases hy
  · intro c y hy
    rw [hempty c y hy]
    exact Nat.zero_le _
  · rw [hpool]
    exact Nat.zero_le _
  · rw [hlive, hshelved, hstats]
    rfl
  · rw [hstats]
    rfl
  · rw [hlive]
    exact Nat.le_refl _
  · intro _
    rw [hlive, hshelved]
    exact Nat.le_refl _

/-- The step in which work is given to a task, taken apart. -/
theorem stocked_begin {c : Nat} {w : Submission} {started peak : Nat} (hl : l.Sound [w])
    (h : Stocked 0 l.engine started peak) (hc : c < l.engine.carriers.size)
    (sound : l.engine.isMoot w = false) (now : Nanos) :
    Stocked 0 (l.engine.begin now c w) (started + 1) (max peak (l.engine.live.length + 1)) := by
  obtain ⟨hready, hsize, -, x, hx, hcached⟩ := hl.ready c
  obtain ⟨-, hidle⟩ := hready.staffed.idle hx (by rw [hcached]; exact Status.noConfusion)
  have hheld : Stocked 1 (l.engine.ready c) (started + 1) (max peak (l.engine.live.length + 1)) := by
    rcases obtain_stock hc with ⟨e₀, k, hpopped, hobtain, hk⟩ | ⟨hmake, hempty⟩
    · have hunshelved := h.unshelve hpopped hk
      rw [← hobtain] at hunshelved
      -- The task that comes out of the pool has its context.
      obtain ⟨y, hy, hstatus⟩ := (hl.staffed.obtain c).2.1
      have hcontext : y.context ≠ .absent := by
        refine (hunshelved.equipped _ y hy).resolve_left ?_
        rw [hstatus]
        exact Status.noConfusion
      have hsame : l.engine.ready c = (l.engine.obtain c).1 := by
        simp only [ready, ensureContext, hy, if_neg hcontext]
      rw [hsame]
      exact hunshelved
    · have hmade := h.make hempty
      rw [← hmake] at hmade
      exact hmade
  have hgiven := hheld.give (c := c) (w := w) hx hcached hidle
  refine hgiven.same (begin_stock sound now hc ?_)
  rw [carriers_assign, hsize]

theorem Step.stocked (h : Step d d') (hl : d.ledger.Reached)
    (hs : Stocked 0 d.engine d.started d.peak) : Stocked 0 d'.engine d'.started d'.peak := by
  cases h with
  | @aside l h same =>
      have hpeak : max d.peak l.engine.live.length = d.peak := by
        rw [same.live]
        exact Nat.max_eq_left hs.live_le
      have hsame := hs.same same
      rw [← hpeak] at hsame
      exact hsame
  | @start c s e now draws carrier taken sound =>
      obtain ⟨hhand, hsame, hc⟩ := drawn hl draws carrier taken
      have hbegin : Stocked 0 ((e.redraw draws).begin now c s) (d.started + 1)
          (max d.peak ((e.redraw draws).live.length + 1)) :=
        stocked_begin hhand (hs.same hsame) hc sound now
      have hlive : ((e.redraw draws).begin now c s).live.length =
          (e.redraw draws).live.length + 1 := by
        have hcrew := (hhand.start hc sound now).staffed.crew.length_eq
        have hold := hhand.staffed.crew.length_eq
        simp only [List.length_map, List.length_cons] at hcrew hold
        rw [hcrew, hold]
      rw [← hlive] at hbegin
      exact hbegin
  | @exit c s j now on at_ progress work =>
      obtain ⟨e₀, hstock, hwork, hexit⟩ := exit_stock d.engine now c s.task
      have hsound := hl.sound.other hwork
      obtain ⟨x, hx, halive⟩ := hsound.staffed.alive_of_mem on
      have hlive : s.task ∈ e₀.live := hsound.staffed.mem_live.mpr ⟨x, hx, halive⟩
      have hleft := (hs.same hstock).leave hlive hsound.staffed.nodup
      have hkept := hleft.recycle (c := c) (x := x) hx (by rw [halive]; exact Status.noConfusion)
      have hout := hkept.same (nudges_switchOut _ now c).sameStock
      rw [← hexit] at hout
      have hpeak : max d.peak (d.engine.exit now c s.task).live.length = d.peak :=
        Nat.max_eq_left hout.live_le
      rw [← hpeak] at hout
      simp only [engine, next] at hout ⊢
      exact hout

theorem Reached.stocked (h : Reached d) : Stocked 0 d.engine d.started d.peak := by
  induction h with
  | start h => exact stocked_start h
  | step hd hs ih => exact hs.stocked hd.ledger ih

end Depot

end GreenThreads

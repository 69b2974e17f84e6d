import GreenThreads.Proofs.Depot.Conservation
import Mathlib.Algebra.GroupWithZero.Nat

/-!
# What becomes of tasks

A task whose work is over goes into a pool as long as there is room in one, and is destroyed
otherwise. A task that was destroyed stays so. Together with the stock that adds up this says where
every task is. There are no more tasks and incarnations than pieces of work that were started.
-/

namespace GreenThreads

namespace Engine

variable {V : Type} {e e' : Engine V} {t : TaskId} {c k m n : Nat} {w : Submission} {x : Task}

/-- A task was destroyed after it had been given work `n` times. -/
def Destroyed (e : Engine V) (t : TaskId) (n : Nat) : Prop :=
  ∃ x, e.task? t = some x ∧ x.status = .dead ∧ x.generation = n

theorem destroyed_congr {β : Type} {k : Task → β} (h : e'.tasks.map k = e.tasks.map k)
    (hk : ∀ x y, k x = k y → x.status = y.status ∧ x.generation = y.generation) :
    e'.Destroyed t n ↔ e.Destroyed t n := by
  constructor
  · rintro ⟨x', hx', hdead, hn⟩
    obtain ⟨x, hx, heq⟩ := exists_of_map_eq h hx'
    obtain ⟨hstatus, hgeneration⟩ := hk x' x heq
    exact ⟨x, hx, hstatus.symm.trans hdead, hgeneration.symm.trans hn⟩
  · rintro ⟨x, hx, hdead, hn⟩
    obtain ⟨x', hx', heq⟩ := exists_of_map_eq h.symm hx
    obtain ⟨hstatus, hgeneration⟩ := hk x x' heq
    exact ⟨x', hx', hstatus.symm.trans hdead, hgeneration.symm.trans hn⟩

theorem SameStock.destroyed (h : SameStock e e') : e'.Destroyed t n ↔ e.Destroyed t n :=
  destroyed_congr h.tasks fun _ _ heq => ⟨congrArg (·.2.1) heq, congrArg (·.1) heq⟩

theorem SameTasks.destroyed (h : SameTasks e e') : e'.Destroyed t n ↔ e.Destroyed t n :=
  destroyed_congr h.tasks fun _ _ heq =>
    ⟨(congrArg Task.status heq :), (congrArg Task.generation heq :)⟩

theorem destroyed_updateTask {f : Task → Task} (hx : e.task? t = some x) (hlive : x.status ≠ .dead)
    (hf : (f x).status ≠ .dead) (u : TaskId) :
    (e.updateTask t f).Destroyed u n ↔ e.Destroyed u n := by
  unfold Destroyed
  rw [task?_updateTask]
  split
  · next hu =>
      rw [hu, hx, Option.map_some]
      constructor
      · rintro ⟨y, hy, hdead, -⟩
        cases hy
        exact absurd hdead hf
      · rintro ⟨y, hy, hdead, -⟩
        cases hy
        exact absurd hdead hlive
  · exact Iff.rfl

theorem destroyed_makeTask : e.makeTask.1.Destroyed t n ↔ e.Destroyed t n := by
  unfold Destroyed
  rw [task?_makeTask]
  split
  · next ht =>
      have hnone : e.task? e.makeTask.2 = none := Array.getElem?_eq_none (Nat.le_refl _)
      rw [ht, hnone]
      constructor
      · rintro ⟨y, hy, hdead, -⟩
        cases hy
        cases hdead
      · rintro ⟨y, hy, -⟩
        cases hy
  · exact Iff.rfl

theorem destroyed_ready (e : Engine V) (c : Nat) :
    (e.ready c).Destroyed t n ↔ e.Destroyed t n := by
  have hcontext := (sameRecords_ensureContext (e.obtain c).1 (e.obtain c).2).sameWork.toSameTasks
  refine hcontext.destroyed.trans ?_
  rcases obtain_cases e c with ⟨e₀, hpopped, hrecords⟩ | hmake
  · exact (hpopped.sameWork.trans hrecords.sameWork).destroyed
  · rw [hmake]
    exact destroyed_makeTask

/-- There are `m` tasks at most, and none of them was given work more than `n` times. -/
structure Numbered (e : Engine V) (m n : Nat) : Prop where
  size : e.tasks.size ≤ m
  generation : ∀ t x, e.task? t = some x → x.generation ≤ n

theorem numbered_congr {β : Type} {k : Task → β} (he : e.Numbered m n)
    (h : e'.tasks.map k = e.tasks.map k) (hk : ∀ x y, k x = k y → x.generation = y.generation) :
    e'.Numbered m n := by
  have hsize := congrArg Array.size h
  simp only [Array.size_map] at hsize
  refine ⟨hsize ▸ he.size, fun t x' hx' => ?_⟩
  obtain ⟨x, hx, heq⟩ := exists_of_map_eq h hx'
  rw [hk x' x heq]
  exact he.generation t x hx

theorem SameStock.numbered (h : SameStock e e') (he : e.Numbered m n) : e'.Numbered m n :=
  numbered_congr he h.tasks fun _ _ heq => congrArg (·.1) heq

theorem SameTasks.numbered (h : SameTasks e e') (he : e.Numbered m n) : e'.Numbered m n :=
  numbered_congr he h.tasks fun _ _ heq => (congrArg Task.generation heq :)

theorem Numbered.updateTask {f : Task → Task} (he : e.Numbered m n)
    (hf : ∀ x, e.task? t = some x → (f x).generation ≤ k) (hk : n ≤ k) :
    (e.updateTask t f).Numbered m k := by
  refine ⟨(Array.size_modify).symm ▸ he.size, fun u y hy => ?_⟩
  rw [task?_updateTask] at hy
  split at hy
  · next hu =>
      obtain ⟨x, hx, rfl⟩ := Option.map_eq_some_iff.mp hy
      exact hf x (hu ▸ hx)
  · exact Nat.le_trans (he.generation u y hy) hk

theorem Numbered.makeTask (he : e.Numbered m n) : e.makeTask.1.Numbered (m + 1) n := by
  refine ⟨?_, fun t x hx => ?_⟩
  · simp only [Engine.makeTask, Array.size_push]
    exact Nat.succ_le_succ he.size
  · rw [task?_makeTask] at hx
    split at hx
    · cases hx
      exact Nat.zero_le n
    · exact he.generation t x hx

theorem Numbered.ready (he : e.Numbered m n) (c : Nat) : (e.ready c).Numbered (m + 1) n := by
  have hcontext := (sameRecords_ensureContext (e.obtain c).1 (e.obtain c).2).sameWork.toSameTasks
  refine hcontext.numbered ?_
  rcases obtain_cases e c with ⟨e₀, hpopped, hrecords⟩ | hmake
  · have hsame := (hpopped.sameWork.trans hrecords.sameWork).numbered he
    exact ⟨Nat.le_succ_of_le hsame.size, hsame.generation⟩
  · rw [hmake]
    exact he.makeTask

end Engine

namespace Depot

open Engine

variable {V : Type} {d d' : Depot V} {l : Ledger V} {t : TaskId} {c m n : Nat} {w : Submission}
  {x y : Task}

theorem destroyed_begin (hl : l.Sound [w]) (hc : c < l.engine.carriers.size)
    (sound : l.engine.isMoot w = false) (now : Nanos) :
    (l.engine.begin now c w).Destroyed t n ↔ l.engine.Destroyed t n := by
  obtain ⟨hready, hsize, -, x, hx, hcached⟩ := hl.ready c
  have hlive : x.status ≠ .dead := by rw [hcached]; exact Status.noConfusion
  have hassign : ((l.engine.ready c).assign c (l.engine.obtain c).2 w).Destroyed t n ↔
      (l.engine.ready c).Destroyed t n := by
    rw [hready.assign_eq hx hcached]
    exact destroyed_updateTask (f := Floor.assigned c w) hx hlive Status.noConfusion t
  refine (begin_stock sound now hc ?_).destroyed.trans (hassign.trans (destroyed_ready _ c))
  rw [carriers_assign, hsize]

theorem numbered_begin (hl : l.Sound [w]) (hc : c < l.engine.carriers.size)
    (sound : l.engine.isMoot w = false) (now : Nanos) (hn : l.engine.Numbered m n) :
    (l.engine.begin now c w).Numbered (m + 1) (n + 1) := by
  obtain ⟨hready, hsize, -, x, hx, hcached⟩ := hl.ready c
  have hspare := hn.ready c
  have hmarked := hspare.updateTask (t := (l.engine.obtain c).2) (f := Floor.assigned c w)
    (fun y hy => Nat.succ_le_succ (hspare.generation _ y hy)) (Nat.le_succ n)
  have hassign :
      ((l.engine.ready c).assign c (l.engine.obtain c).2 w).Numbered (m + 1) (n + 1) := by
    rw [hready.assign_eq hx hcached]
    exact ⟨hmarked.size, hmarked.generation⟩
  refine (begin_stock sound now hc ?_).numbered hassign
  rw [carriers_assign, hsize]

/-- A task that was destroyed stays so, and is never given work again. -/
theorem Step.destroyed (h : Step d d') (hl : d.ledger.Reached) (ht : d.engine.Destroyed t n) :
    d'.engine.Destroyed t n := by
  cases h with
  | aside _ same => exact same.destroyed.mpr ht
  | start now draws carrier taken sound =>
      obtain ⟨hhand, hsame, hc⟩ := drawn hl draws carrier taken
      exact (destroyed_begin hhand hc sound now).mpr (hsame.destroyed.mpr ht)
  | @exit c s j now on at_ progress work =>
      obtain ⟨e₀, hstock, hwork, hexit⟩ := exit_stock d.engine now c s.task
      obtain ⟨x, hx, hdead, hn⟩ := hstock.destroyed.mpr ht
      obtain ⟨y, hy, halive⟩ := (hl.sound.other hwork).staffed.alive_of_mem on
      have hne : t ≠ s.task := by
        rintro rfl
        have hxy : some x = some y := hx.symm.trans hy
        cases hxy
        rw [halive] at hdead
        cases hdead
      have hout : (d.engine.exit now c s.task).Destroyed t n := by
        rw [hexit]
        refine (nudges_switchOut _ now c).sameStock.destroyed.mpr ⟨x, ?_, hdead, hn⟩
        rw [upkeep_recycle_of_ne hne]
        exact hx
      simp only [engine, next] at hout ⊢
      exact hout

/-- Only the running task is destroyed, when its work is over and there is no room for it. -/
theorem Step.full (h : Step d d') (hl : d.ledger.Reached) (hx : d.engine.task? t = some x)
    (hlive : x.status ≠ .dead) (hy : d'.engine.task? t = some y) (hdead : y.status = .dead) :
    ∃ (c : Nat) (z : Carrier), d.engine.carriers[c]? = some z ∧ z.current = some t ∧
      z.pool.capacity ≤ z.pool.size ∧ d.engine.pool.capacity ≤ d.engine.pool.size := by
  have hafter : d'.engine.Destroyed t y.generation := ⟨y, hy, hdead, rfl⟩
  have hbefore : ¬ d.engine.Destroyed t y.generation := by
    rintro ⟨z, hz, hz', -⟩
    rw [hx] at hz
    cases hz
    exact hlive hz'
  cases h with
  | aside _ same => exact absurd (same.destroyed.mp hafter) hbefore
  | start now draws carrier taken sound =>
      obtain ⟨hhand, hsame, hc⟩ := drawn hl draws carrier taken
      have hold := (destroyed_begin hhand hc sound now).mp hafter
      exact absurd (hsame.destroyed.mp hold) hbefore
  | @exit c s j now on at_ progress work =>
      obtain ⟨e₀, hstock, -, hexit⟩ := exit_stock d.engine now c s.task
      simp only [engine, next] at hafter hexit
      rw [hexit] at hafter
      obtain ⟨z, hz, hz', -⟩ := (nudges_switchOut _ now c).sameStock.destroyed.mp hafter
      obtain ⟨x', hx', hupkeep⟩ := exists_of_map_eq hstock.tasks.symm hx
      have hstatus : x.status = x'.status := congrArg (·.2.1) hupkeep
      obtain ⟨htask, hown, hshared⟩ := full_of_recycle
        (e := ({ e₀ with live := e₀.live.filter (· != s.task) } : Engine V).finishOne)
        hx' (hstatus ▸ hlive) hz hz'
      obtain ⟨q, hq, hcurrent⟩ := Option.bind_eq_some_iff.mp at_
      obtain ⟨q', hq', hpool⟩ := exists_of_map_eq hstock.shelves.symm hq
      have hroom := hown q' hq'
      have hpools : e₀.pool = d.engine.pool := hstock.pool
      have hroom' : e₀.pool.capacity ≤ e₀.pool.size := hshared
      rw [← hpool] at hroom
      rw [hpools] at hroom'
      exact ⟨c, q, hq, hcurrent.trans (congrArg some htask.symm), hroom, hroom'⟩

theorem Step.numbered (h : Step d d') (hl : d.ledger.Reached)
    (hn : d.engine.Numbered d.started d.started) : d'.engine.Numbered d'.started d'.started := by
  cases h with
  | aside _ same => exact same.numbered hn
  | @start c s e now draws carrier taken sound =>
      obtain ⟨hhand, hsame, hc⟩ := drawn hl draws carrier taken
      exact numbered_begin hhand hc sound now (hsame.numbered hn)
  | @exit c s j now on at_ progress work =>
      obtain ⟨e₀, hstock, -, hexit⟩ := exit_stock d.engine now c s.task
      have hkept := hstock.numbered hn
      obtain ⟨k, hrecycled⟩ := recycled_recycle
        ({ e₀ with live := e₀.live.filter (· != s.task) } : Engine V).finishOne c s.task
      have hmarked := hkept.updateTask (t := s.task) (f := ({ · with status := k }))
        (hkept.generation _) (Nat.le_refl _)
      have hout := (nudges_switchOut _ now c).sameStock.numbered
        (numbered_congr (k := id) hmarked (congrArg (Array.map id) hrecycled.tasks)
          fun _ _ heq => congrArg Task.generation heq)
      rw [← hexit] at hout
      simp only [engine, next] at hout ⊢
      exact hout

theorem Reached.numbered (h : Reached d) : d.engine.Numbered d.started d.started := by
  induction h with
  | start h =>
      have htasks := (Floor.fresh_start h).tasks
      refine ⟨by rw [htasks]; exact Nat.le_refl 0, fun t x hx => ?_⟩
      rw [task?, htasks] at hx
      cases hx
  | step hd hs ih => exact hs.numbered hd.ledger ih

/-- The numbers of tasks and of their incarnations fit into 64 bits as long as fewer than `2 ^ 64`
pieces of work were started. -/
theorem Reached.numbers_lt (h : Reached d) (hstarted : d.started < 2 ^ 64) :
    d.engine.tasks.size < 2 ^ 64 ∧
      ∀ t x, d.engine.task? t = some x → x.generation < 2 ^ 64 :=
  ⟨Nat.lt_of_le_of_lt h.numbered.size hstarted,
    fun t x hx => Nat.lt_of_le_of_lt (h.numbered.generation t x hx) hstarted⟩

theorem Reached.later (h : Reached d) (hlater : Relation.ReflTransGen Step d d') : Reached d' := by
  induction hlater with
  | refl => exact h
  | tail _ hs ih => exact ih.step hs

theorem Reached.destroyed_later (h : Reached d) (hlater : Relation.ReflTransGen Step d d')
    (ht : d.engine.Destroyed t n) : d'.engine.Destroyed t n := by
  induction hlater with
  | refl => exact ht
  | tail hbefore hs ih => exact hs.destroyed (h.later hbefore).ledger ih

/-! ## What an engine does -/

theorem Reached.redraw (h : Reached d) (draws : Draws) :
    Reached (d.next { d.ledger with engine := d.engine.redraw draws }) :=
  h.step (.aside (.other (sameWork_of_eq rfl rfl rfl rfl rfl rfl rfl rfl rfl))
    (sameStock_redraw _ draws))

/-- Whatever a carrier draws, what it does with an entry of a run queue is such a step. -/
theorem Reached.dispatch {r : Runnable} {e : Engine V} (h : Reached d) (draws : Draws)
    (hc : c < d.engine.carriers.size) (hn : (d.engine.redraw draws).next? c = some (r, e))
    (now : Nanos) : ∃ d', Reached d' ∧ d'.engine = e.dispatch now c r := by
  have hdrawn := h.redraw draws
  have htaken := taken_of_next? hn
  have hstock := htaken.sameStock
  cases r with
  | start s =>
      cases hmoot : e.isMoot s with
      | true =>
          have hsame := hstock.trans (sameStock_begin_of_moot hmoot now c)
          exact ⟨_, hdrawn.step (.aside (.abandon now htaken hmoot) hsame), rfl⟩
      | false => exact ⟨_, hdrawn.step (.start now e.draws hc htaken hmoot), rfl⟩
  | resume t =>
      have hunmark : Nudges e (e.updateTask t ({ · with enqueued := false })) :=
        nudges_updateTask (fun _ => ⟨rfl, fun _ => rfl, id, fun _ => id⟩) fun _ => rfl
      have hsize : e.carriers.size = d.engine.carriers.size := htaken.sameWork.size
      have hresume : Nudges e ((e.updateTask t ({ · with enqueued := false })).resume now c t) :=
        hunmark.trans (nudges_resume (by rw [hunmark.sameWork.size, hsize]; exact hc) now t)
      exact ⟨_, hdrawn.step (.aside (.other (htaken.sameWork.trans hresume.sameWork))
        (hstock.trans hresume.sameStock)), rfl⟩

theorem Reached.nudged {e : Engine V} (h : Reached d) (hn : d.engine.Nudges e) :
    Reached (d.next { d.ledger with engine := e }) :=
  h.step (.aside (.other hn.sameWork) hn.sameStock)

theorem Reached.submit (h : Reached d) (caller : Option TaskId) (name : String)
    (group : Option GroupId) :
    Reached (d.next { d.ledger with engine := (d.engine.submit caller name group).1 }) :=
  h.step (.aside (.submit caller name group) (sameStock_submit _ caller name group))

theorem Reached.shutdown (h : Reached d) (caller : Option TaskId) :
    Reached (d.next { d.ledger with engine := (d.engine.shutdown caller).1 }) :=
  h.step (.aside (.shutdown caller) (sameStock_shutdown _ caller))

theorem Reached.drain (h : Reached d) :
    Reached (d.next { d.ledger with engine := { d.engine with draining := true } }) :=
  h.step (.aside (.other (sameWork_of_eq rfl rfl rfl rfl rfl rfl rfl rfl rfl))
    ⟨rfl, rfl, rfl, rfl, fun _ _ => rfl, fun _ => rfl⟩)

/-! ## Where every task is -/

/-- The contexts made are those of live tasks, of tasks in pools and of tasks destroyed, and every
piece of work that was started came with a context out of a pool or a new one. A task in a pool has
no work and is nowhere else; one that was destroyed is in no pool and is never given work again. No
pool holds more than it may, and a task is destroyed only if there is no room for it, neither in the
pool of its carrier nor in the shared one. Until a drain begins there are not more contexts than
tasks were live at one time. -/
theorem Reached.conserved (h : Reached d) :
    (d.engine.stats.contextsCreated =
        .ofNat (d.engine.live.length + d.engine.shelved) + d.engine.stats.cacheDiscards ∧
      d.engine.live.Nodup ∧
      ∀ t, t ∈ d.engine.live ↔ ∃ x, d.engine.task? t = some x ∧ x.status = .alive) ∧
    d.engine.stats.localCacheHits + d.engine.stats.globalCacheHits +
      d.engine.stats.stolenCacheHits + d.engine.stats.contextsCreated = .ofNat d.started ∧
    (∀ t, 0 < d.engine.pooled t → d.engine.pooled t = 1 ∧ t ∉ d.engine.live ∧
      ∃ x, d.engine.task? t = some x ∧ x.status = .cached) ∧
    (∀ t x, d.engine.task? t = some x → x.status = .dead → d.engine.pooled t = 0 ∧
      ∀ d', Relation.ReflTransGen Step d d' → d'.engine.pooled t = 0 ∧
        ∃ x', d'.engine.task? t = some x' ∧ x'.status = .dead ∧ x'.generation = x.generation) ∧
    ((∀ (c : Nat) (z : Carrier), d.engine.carriers[c]? = some z →
        z.pool.size ≤ z.pool.capacity) ∧ d.engine.pool.size ≤ d.engine.pool.capacity) ∧
    (∀ d' t x y, Step d d' → d.engine.task? t = some x → x.status ≠ .dead →
      d'.engine.task? t = some y → y.status = .dead →
      ∃ (c : Nat) (z : Carrier), d.engine.carriers[c]? = some z ∧ z.current = some t ∧
        z.pool.size = z.pool.capacity ∧ d.engine.pool.size = d.engine.pool.capacity) ∧
    (d.engine.draining = false → d.engine.live.length + d.engine.shelved ≤ d.peak ∧
      (d.engine.stats.contextsCreated - d.engine.stats.cacheDiscards).toNat ≤ d.peak) := by
  have hs := h.stocked
  have hstaffed := h.ledger.sound.staffed
  have hcontexts : d.engine.stats.contextsCreated =
      .ofNat (d.engine.live.length + d.engine.shelved) + d.engine.stats.cacheDiscards := hs.contexts
  have hnone : ∀ {d : Depot V} {t : TaskId} {x : Task}, Reached d → d.engine.task? t = some x →
      x.status = .dead → d.engine.pooled t = 0 := by
    intro d t x hd hx hdead
    have hspare := hd.ledger.sound.staffed.spare t
    rw [flag_eq_zero hx (by rw [hdead]; rfl)] at hspare
    exact Nat.eq_zero_of_le_zero hspare
  refine ⟨⟨hcontexts, hstaffed.nodup, fun t => hstaffed.mem_live⟩, hs.dispatches, fun t hpos => ?_,
    fun t x hx hdead => ⟨hnone h hx hdead, fun d' hlater => ?_⟩, hs.roomy,
    fun d' t x y hstep hx hlive hy hdead => ?_, fun hruns => ?_⟩
  · have hspare : d.engine.pooled t ≤ d.engine.flag t (·.status == .cached) := hstaffed.spare t
    have hone := d.engine.flag_le_one t (·.status == .cached)
    obtain ⟨x, hx, hcached⟩ := exists_of_flag_pos (Nat.lt_of_lt_of_le hpos hspare)
    have hcached : x.status = .cached := by simpa using hcached
    refine ⟨by omega, fun hlive => ?_, x, hx, hcached⟩
    obtain ⟨y, hy, halive⟩ := hstaffed.mem_live.mp hlive
    have hxy : some x = some y := hx.symm.trans hy
    cases hxy
    rw [hcached] at halive
    cases halive
  · obtain ⟨x', hx', hdead', hn⟩ := h.destroyed_later hlater ⟨x, hx, hdead, rfl⟩
    exact ⟨hnone (h.later hlater) hx' hdead', x', hx', hdead', hn⟩
  · obtain ⟨c, z, hz, hcurrent, hown, hshared⟩ := hstep.full h.ledger hx hlive hy hdead
    exact ⟨c, z, hz, hcurrent, Nat.le_antisymm (hs.roomy.1 c z hz) hown,
      Nat.le_antisymm hs.roomy.2 hshared⟩
  · have hreuse : d.engine.live.length + d.engine.shelved ≤ d.peak := hs.reuse hruns
    refine ⟨hreuse, ?_⟩
    rw [hcontexts, UInt64.add_sub_cancel, UInt64.toNat_ofNat']
    exact Nat.le_trans (Nat.mod_le _ _) hreuse

/-- Two tasks are live at one time, and there is room for one. The second is kept when its work is
over; then the work of the first ends, and that task is destroyed. -/
theorem conserved_without_room : ∃ (d d' : Depot Unit) (c : Nat) (z : Carrier), Reached d ∧
    Step d d' ∧ d.started = 2 ∧ d.peak = 2 ∧ d.engine.draining = false ∧
    d.engine.stats.contextsCreated = 2 ∧ d.engine.stats.cacheDiscards = 0 ∧
    d.engine.stats.contextsCreated =
      .ofNat (d.engine.live.length + d.engine.shelved) + d.engine.stats.cacheDiscards ∧
    d.engine.live.length + d.engine.shelved ≤ d.peak ∧
    d.engine.carriers[c]? = some z ∧ z.current = some ⟨0⟩ ∧ z.pool.size = z.pool.capacity ∧
    d'.engine.stats.cacheDiscards = 1 ∧ d'.engine.live = [] ∧ d'.engine.shelved = 1 := by
  have h0 := Reached.start (V := Unit)
    (show Engine.start { carrierCache := 1, globalCache := 0 } 1 [] .absent = .ok _ from rfl)
  have h1 := h0.submit none "first" none
  have h2 := h1.submit none "second" none
  have h3 := h2.step
    (.start (c := 0) (s := ⟨0, "first", none⟩) 5 {} (by decide) (.shared rfl rfl) rfl)
  have h4 := h3.step (.aside (.run (c := 0) (.head _) rfl rfl rfl) (.refl _))
  have h5 := h4.step (.aside (.park (c := 0) (a := .user) (.head _) rfl rfl rfl
    (show Parker.free.begin false = .ok (.waiting, true) from rfl))
    (sameStock_setParker _ ⟨0⟩ .user _))
  have h6 := h5.nudged (nudges_switchOut _ 6 0)
  have h7 := h6.step
    (.start (c := 0) (s := ⟨1, "second", none⟩) 7 {} (by decide) (.shared rfl rfl) rfl)
  have h8 := h7.step (.aside (.run (c := 0) (.head _) rfl rfl rfl) (.refl _))
  have h9 := h8.step (.aside (.finish (c := 0) 8 (.ok ()) (.head _) rfl rfl rfl)
    (sameStock_finishJob _ 8 1 _))
  have h10 := h9.step (.exit (c := 0) 9 (.head _) rfl rfl rfl)
  have h11 := h10.nudged (nudges_unpark _ 10 ⟨0⟩ .user)
  have h12 := h11.nudged (nudges_switchIn _ 11 0 ⟨0⟩)
  have h13 := h12.step (.aside (.endPark (c := 0) (a := .user) (.head _) rfl rfl)
    (sameStock_setParker _ ⟨0⟩ .user _))
  have h14 := h13.step (.aside (.finish (c := 0) 12 (.ok ()) (.head _) rfl rfl rfl)
    (sameStock_finishJob _ 12 0 _))
  obtain ⟨⟨hcontexts, -⟩, -, -, -, -, hfull, hreuse⟩ := h14.conserved
  obtain ⟨c, z, hz, hcurrent, hsize, -⟩ :=
    hfull _ ⟨0⟩ _ _ (.exit (c := 0) 13 (.head _) rfl rfl rfl) rfl (by decide) rfl rfl
  exact ⟨_, _, c, z, h14, .exit (c := 0) 13 (.head _) rfl rfl rfl, rfl, rfl, rfl, rfl, rfl,
    hcontexts, (hreuse rfl).1, hz, hcurrent, hsize, rfl, rfl, rfl⟩

end Depot

end GreenThreads

import GreenThreads.Proofs.Floor.Conservation
import GreenThreads.Proofs.Ledger.Crew

/-!
# Steps that move no task

A task with work changes its carrier only when it is stolen, and run queues name tasks only where
one is put in or taken out. All other steps of a floor leave every task on its carrier, every queue
with the tasks that it names, and the record of the steals as it is.
-/

namespace GreenThreads

/-- The entries of a run queue that name tasks. -/
def Carrier.resumptions (x : Carrier) : List Runnable := x.queue.filter Runnable.isResume

theorem Carrier.mem_resumptions {x : Carrier} {t : TaskId} :
    .resume t ∈ x.resumptions ↔ .resume t ∈ x.queue := by
  rw [resumptions, List.mem_filter, Runnable.isResume]
  exact and_iff_left rfl

namespace Engine

variable {V : Type} {e e' e'' : Engine V} {t u : TaskId} {c : Nat} {f : Task → Task}
  {g : Carrier → Carrier}

/-- The task `t` belongs to carrier `c`. -/
def Owned (e : Engine V) (c : Nat) (t : TaskId) : Prop :=
  ∃ x, e.task? t = some x ∧ x.carrier = some c

/-- How often a task was stolen, by its own count. -/
def stolenOf (e : Engine V) (t : TaskId) : Nat := ((e.task? t).map (·.stolen)).getD 0

theorem stolenOf_of_task? {x : Task} (h : e.task? t = some x) : e.stolenOf t = x.stolen := by
  rw [stolenOf, h, Option.map_some, Option.getD_some]

/-- No steal was counted from `e` to `e'`, and a drain that has begun goes on. -/
structure SameRecord (e e' : Engine V) : Prop where
  stolen : ∀ t, e'.stolenOf t = e.stolenOf t
  successes : e'.stats.stealSuccesses = e.stats.stealSuccesses
  failures : e'.stats.stealFailures = e.stats.stealFailures
  draining : e.draining = true → e'.draining = true

/-- From `e` to `e'` no task changed its carrier and no queue the tasks that it names. -/
structure Anchored (e e' : Engine V) : Prop extends SameRecord e e' where
  homes : e'.tasks.map (·.carrier) = e.tasks.map (·.carrier)
  queues : e'.carriers.map Carrier.resumptions = e.carriers.map Carrier.resumptions
  config : e'.config = e.config

theorem SameRecord.refl (e : Engine V) : SameRecord e e := ⟨fun _ => rfl, rfl, rfl, id⟩

theorem SameRecord.trans (h : SameRecord e e') (h' : SameRecord e' e'') : SameRecord e e'' :=
  ⟨fun t => (h'.stolen t).trans (h.stolen t), h'.successes.trans h.successes,
    h'.failures.trans h.failures, fun hd => h'.draining (h.draining hd)⟩

namespace Anchored

theorem refl (e : Engine V) : Anchored e e := ⟨.refl e, rfl, rfl, rfl⟩

theorem trans (h : Anchored e e') (h' : Anchored e' e'') : Anchored e e'' :=
  ⟨h.toSameRecord.trans h'.toSameRecord, h'.homes.trans h.homes, h'.queues.trans h.queues,
    h'.config.trans h.config⟩

/-- Every task is still there, on the carrier that it belonged to. -/
theorem home (h : Anchored e e') (t : TaskId) (x : Task) (hx : e.task? t = some x) :
    ∃ y, e'.task? t = some y ∧ (x.status = .alive → y.carrier = x.carrier) := by
  obtain ⟨y, hy, heq⟩ := exists_of_map_eq h.homes.symm hx
  exact ⟨y, hy, fun _ => heq.symm⟩

end Anchored

/-- What has no part in the hand-over of tasks anchors them, unless it changes the record. -/
theorem Frame.anchored (h : Frame e e') (hr : SameRecord e e') : Anchored e e' := by
  refine ⟨hr, ?_, ?_, h.config⟩
  · have hcore : ∀ xs : Array Task, xs.map (·.carrier) = (xs.map Task.core).map (·.carrier) := by
      intro xs
      rw [Array.map_map]
      rfl
    rw [hcore, h.tasks, ← hcore]
  · have hcore : ∀ xs : Array Carrier,
        xs.map Carrier.resumptions = (xs.map Carrier.core).map (·.queue) := by
      intro xs
      rw [Array.map_map]
      rfl
    rw [hcore, h.carriers, ← hcore]

/-! ## Changes of one part -/

theorem anchored_of_eq (ht : e'.tasks = e.tasks) (hc : e'.carriers = e.carriers)
    (hs : e'.stats = e.stats) (hd : e'.draining = e.draining) (hconfig : e'.config = e.config) :
    Anchored e e' := by
  refine ⟨⟨fun t => ?_, by rw [hs], by rw [hs], fun h => hd.trans h⟩, by rw [ht], by rw [hc],
    hconfig⟩
  rw [stolenOf, task?, ht, ← task?, ← stolenOf]

theorem anchored_updateTask (hcarrier : ∀ x, (f x).carrier = x.carrier)
    (hstolen : ∀ x, (f x).stolen = x.stolen) : Anchored e (e.updateTask t f) := by
  refine ⟨⟨fun u => ?_, rfl, rfl, id⟩, map_updateTask hcarrier, rfl, rfl⟩
  rw [stolenOf, task?_updateTask, stolenOf]
  split
  · rw [Option.map_map]
    congr 2
    funext x
    exact hstolen x
  · rfl

theorem anchored_setParker (e : Engine V) (t : TaskId) (a : Axis) (q : Task → Parker) :
    Anchored e (e.updateTask t fun x => x.setParker a (q x)) :=
  anchored_updateTask (fun _ => by cases a <;> rfl) fun _ => by cases a <;> rfl

/-- An entry for the task is in a run queue. -/
theorem anchored_mark (e : Engine V) (now : Nanos) (t : TaskId) :
    Anchored e (e.updateTask t ({ · with enqueued := true, enqueuedAt := now })) :=
  anchored_updateTask (fun _ => rfl) fun _ => rfl

theorem anchored_unmark (e : Engine V) (t : TaskId) :
    Anchored e (e.updateTask t ({ · with enqueued := false })) :=
  anchored_updateTask (fun _ => rfl) fun _ => rfl

theorem anchored_updateCarrier (h : ∀ x, (g x).queue = x.queue) :
    Anchored e (e.updateCarrier c g) :=
  ⟨⟨fun _ => rfl, rfl, rfl, id⟩, rfl,
    map_updateCarrier fun x => by rw [Carrier.resumptions, h, Carrier.resumptions], rfl⟩

theorem anchored_updateTimers (e : Engine V) (owner : Nat) (k : TimerQueue → TimerQueue) :
    Anchored e (e.updateTimers owner k) := by
  unfold updateTimers
  split
  · exact anchored_of_eq rfl rfl rfl rfl rfl
  · exact anchored_updateCarrier fun _ => rfl

theorem anchored_count (e : Engine V) {n : Counter} (hs : n ≠ .stealSuccesses)
    (hf : n ≠ .stealFailures) : Anchored e (e.count n) :=
  ⟨⟨fun _ => rfl, (Stats.get_add e.stats n .stealSuccesses 1).trans (if_neg hs),
    (Stats.get_add e.stats n .stealFailures 1).trans (if_neg hf), id⟩, rfl, rfl, rfl⟩

/-! ## Timeouts -/

theorem anchored_register (e : Engine V) (r : TimeoutRef) : Anchored e (e.register r) :=
  anchored_updateTimers e r.owner _

theorem anchored_arm (e : Engine V) (now : Nanos) (c : Nat) (t : TaskId) (deadline : Nanos)
    (action : TimeoutAction) (byTask : Bool) :
    Anchored e (e.arm now c t deadline action byTask) := by
  have hmade : ∀ (o : Nat) (k : TimerQueue → TimerQueue) (r : Option TimeoutRef), Anchored e
      (((e.count .timersArmed).updateTimers o k).updateTask t ({ · with timeout := r })) :=
    fun o k r => ((anchored_count e Counter.noConfusion Counter.noConfusion).trans
      (anchored_updateTimers _ o k)).trans (anchored_updateTask (fun _ => rfl) fun _ => rfl)
  unfold arm
  generalize (if e.config.preciseTimer then preciseOwner else c) = owner
  dsimp only
  split
  · exact .refl e
  · split
    · exact (hmade _ _ _).trans (anchored_updateCarrier fun _ => rfl)
    · exact (hmade _ _ _).trans (anchored_register _ _)

theorem anchored_withdraw (e : Engine V) (t : TaskId) (due : List TimeoutRef) :
    Anchored e (e.withdraw t due) := by
  unfold withdraw
  split
  · exact .refl e
  · split
    · exact .refl e
    · next r _ =>
        have htake : Anchored e (e.updateTask t fun task => task.takeTimeout.1) :=
          anchored_updateTask (fun _ => rfl) fun _ => rfl
        dsimp only
        split
        · exact (htake.trans (anchored_updateTimers _ r.owner _)).trans
            (anchored_count _ Counter.noConfusion Counter.noConfusion)
        · exact htake

/-! ## The beginning and the end of work -/

theorem Popped.anchored (h : e.Popped t e') : Anchored e e' := by
  cases h with
  | own hi =>
      obtain ⟨x, rest, -, -, rfl⟩ := popPooled?_spec hi
      exact anchored_updateCarrier fun _ => rfl
  | shared _ => exact anchored_of_eq rfl rfl rfl rfl rfl

theorem anchored_status (e : Engine V) (t : TaskId) (n : Status) :
    Anchored e (e.updateTask t ({ · with status := n })) :=
  anchored_updateTask (fun _ => rfl) fun _ => rfl

theorem anchored_recycle (e : Engine V) (c : Nat) (t : TaskId) : Anchored e (e.recycle c t) := by
  have hcached := anchored_status e t .cached
  unfold recycle
  dsimp only
  split
  · exact hcached.trans (anchored_updateCarrier fun _ => rfl)
  · split
    · exact hcached.trans (anchored_of_eq rfl rfl rfl rfl rfl)
    · exact (hcached.trans (anchored_status _ t .dead)).trans
        (anchored_count _ Counter.noConfusion Counter.noConfusion)

theorem anchored_vacate (e : Engine V) (c : Nat) (t : TaskId) : Anchored e (e.vacate c t) := by
  have hcarrier : Anchored e (e.updateCarrier c ({ · with current := none, state := .idle })) :=
    anchored_updateCarrier fun _ => rfl
  exact hcarrier.trans (anchored_updateTask (fun _ => rfl) fun _ => rfl)

theorem anchored_switchIn (e : Engine V) (now : Nanos) (c : Nat) (t : TaskId) :
    Anchored e (e.switchIn now c t) := by
  have htask : Anchored e (e.updateTask t ({ · with locked := true, enteredAt := now })) :=
    anchored_updateTask (fun _ => rfl) fun _ => rfl
  exact htask.trans (anchored_updateCarrier fun _ => rfl)

theorem sameRecord_makeTask (e : Engine V) : SameRecord e e.makeTask.1 := by
  refine ⟨fun t => ?_, rfl, rfl, id⟩
  rw [stolenOf, task?_makeTask, stolenOf]
  split
  · next ht =>
      have hnone : e.task? e.makeTask.2 = none := Array.getElem?_eq_none (Nat.le_refl _)
      rw [ht, hnone]
      rfl
  · rfl

theorem anchored_clearTimeoutIf (e : Engine V) (t : TaskId) (r : TimeoutRef) :
    Anchored e (e.updateTask t (·.clearTimeoutIf r)) := by
  refine anchored_updateTask (fun x => ?_) fun x => ?_
  · unfold Task.clearTimeoutIf
    split <;> rfl
  · unfold Task.clearTimeoutIf
    split <;> rfl

/-! ## Steals -/

/-- What it changes that carrier `c` moves the task `x` to itself. -/
structure MovedTo (e : Engine V) (c : Nat) (x : Task) (e' : Engine V) : Prop where
  runs : e.draining = false
  task : e'.task? x.id = some ({ x with carrier := some c } : Task).recordStolen
  others : ∀ u, u ≠ x.id → e'.task? u = e.task? u
  stats : e'.stats = e.stats
  draining : e'.draining = e.draining
  config : e'.config = e.config

theorem movedTo_of_steal? {x : Task} (hx : e.task? x.id = some x)
    (hs : e.steal? c x = some e') : MovedTo e c x e' := by
  unfold steal? at hs
  split at hs
  · cases hs
  · next hopen =>
      cases hs
      refine ⟨Bool.eq_false_iff.mpr fun hd => hopen (.inl hd), ?_, fun u hu => ?_, rfl, rfl, rfl⟩
      · rw [task?_updateTask_self, hx, Option.map_some, Task.moveCarrier, if_pos rfl]
      · rw [task?_updateTask, if_neg hu]

/-- Each other task belongs to the carrier that it belonged to. -/
theorem MovedTo.owned {x : Task} {d : Nat} (h : MovedTo e c x e') (hu : u ≠ x.id)
    (ho : e.Owned d u) : e'.Owned d u := by
  obtain ⟨z, hz, hd⟩ := ho
  exact ⟨z, (h.others u hu).trans hz, hd⟩

theorem MovedTo.not_sameRecord {x : Task} (h : MovedTo e c x e') (hx : e.task? x.id = some x) :
    ¬ SameRecord e e' := by
  intro hr
  have hstolen := hr.stolen x.id
  rw [stolenOf_of_task? h.task, stolenOf_of_task? hx] at hstolen
  simp only [Task.recordStolen] at hstolen
  omega

end Engine

namespace Floor

variable {V : Type} {f f' : Floor V} {c d : Nat} {t : TaskId} {p p' : Phase}

/-- From `f` to `f'` no task with work changed its carrier, and nobody took an entry, put one in or
stole a task. Who is about to switch to a task has taken its entry, or the task belongs to it. -/
structure Keeps (f f' : Floor V) : Prop extends f.engine.SameRecord f'.engine where
  home : ∀ t x, f.engine.task? t = some x →
    ∃ y, f'.engine.task? t = some y ∧ (x.status = .alive → y.carrier = x.carrier)
  queues : f'.engine.carriers.map Carrier.resumptions = f.engine.carriers.map Carrier.resumptions
  config : f'.engine.config = f.engine.config
  freed : ∀ t, f.freed.count t ≤ f'.freed.count t
  holding : ∀ (c : Nat) (r : Runnable), f'.phases[c]? = some (.holding r) →
    f.phases[c]? = some (.holding r)
  resuming : ∀ (c : Nat) (t : TaskId), f'.phases[c]? = some (.resuming t) →
    f.phases[c]? = some (.resuming t) ∨ f.phases[c]? = some (.holding (.resume t)) ∨
      f'.engine.Owned c t

theorem getElem?_modify_cases (h : (f.phases.modify c fun _ => p')[d]? = some p) :
    (c = d ∧ p = p') ∨ f.phases[d]? = some p := by
  rw [Array.getElem?_modify] at h
  split at h
  · next hcd =>
      obtain ⟨-, -, heq⟩ := Option.map_eq_some_iff.mp h
      exact .inl ⟨hcd, heq.symm⟩
  · exact .inr h

theorem keeps_stay (h : f.engine.Anchored f'.engine) (hphases : f'.phases = f.phases)
    (hfreed : ∀ t, f.freed.count t ≤ f'.freed.count t) : Keeps f f' where
  toSameRecord := h.toSameRecord
  home := h.home
  queues := h.queues
  config := h.config
  freed := hfreed
  holding := fun c r hr => by rw [← hphases]; exact hr
  resuming := fun c t ht => .inl (by rw [← hphases]; exact ht)

/-- Carrier `c` gets on, and does not come to have an entry or a task in hand. -/
theorem keeps_move (h : f.engine.Anchored f'.engine)
    (hphases : f'.phases = f.phases.modify c fun _ => p') (hheld : p'.held = none)
    (hstart : ∀ s, p' ≠ .holding (.start s)) (hfreed : ∀ t, f.freed.count t ≤ f'.freed.count t) :
    Keeps f f' where
  toSameRecord := h.toSameRecord
  home := h.home
  queues := h.queues
  config := h.config
  freed := hfreed
  holding := fun d r hr => by
    rw [hphases] at hr
    obtain ⟨-, rfl⟩ | hr := getElem?_modify_cases hr
    · cases r with
      | start s => exact absurd rfl (hstart s)
      | resume t => cases hheld
    · exact hr
  resuming := fun d t ht => by
    rw [hphases] at ht
    obtain ⟨-, rfl⟩ | ht := getElem?_modify_cases ht
    · cases hheld
    · exact .inl ht

/-- Carrier `c` is about to switch to a task that belongs to it, or whose entry it has taken. -/
theorem keeps_resuming (hr : f.engine.SameRecord f'.engine)
    (hhome : ∀ t x, f.engine.task? t = some x →
      ∃ y, f'.engine.task? t = some y ∧ (x.status = .alive → y.carrier = x.carrier))
    (hqueues : f'.engine.carriers.map Carrier.resumptions =
      f.engine.carriers.map Carrier.resumptions)
    (hconfig : f'.engine.config = f.engine.config)
    (hphases : f'.phases = f.phases.modify c fun _ => .resuming t) (hfreed : f'.freed = f.freed)
    (horigin : f.phases[c]? = some (.holding (.resume t)) ∨ f'.engine.Owned c t) :
    Keeps f f' where
  toSameRecord := hr
  home := hhome
  queues := hqueues
  config := hconfig
  freed := fun _ => Nat.le_of_eq (by rw [hfreed])
  holding := fun d r hr => by
    rw [hphases] at hr
    obtain ⟨-, hcase⟩ | hr := getElem?_modify_cases hr
    · cases hcase
    · exact hr
  resuming := fun d u hu => by
    rw [hphases] at hu
    obtain ⟨rfl, hcase⟩ | hu := getElem?_modify_cases hu
    · cases hcase
      exact .inr horigin
    · exact .inl hu

theorem keeps_fresh (f : Floor V) (c : Nat) (s : Submission) :
    Keeps f (f.move c (.readying f.engine.makeTask.2 s) f.engine.makeTask.1) where
  toSameRecord := Engine.sameRecord_makeTask f.engine
  home := fun t x hx => by
    refine ⟨x, ?_, fun _ => rfl⟩
    rw [move, Engine.task?_makeTask, if_neg]
    · exact hx
    · rintro rfl
      have hnone : f.engine.task? f.engine.makeTask.2 = none :=
        Array.getElem?_eq_none (Nat.le_refl _)
      rw [hnone] at hx
      cases hx
  queues := rfl
  config := rfl
  freed := fun _ => Nat.le_refl _
  holding := fun d r hr => by
    obtain ⟨-, hcase⟩ | hr := getElem?_modify_cases hr
    · cases hcase
    · exact hr
  resuming := fun d u hu => by
    obtain ⟨-, hcase⟩ | hu := getElem?_modify_cases hu
    · cases hcase
    · exact .inl hu

/-- New work settles its task on the carrier that works on it. -/
theorem keeps_assign {s : Submission} (h : Sound f) (hp : f.phases[c]? = some (.readying t s)) :
    Keeps f (f.move c (.resuming t) (f.engine.assign c t s)) := by
  obtain ⟨x, hx, hended⟩ := h.ended hp
  have hidle : ∀ a, (x.parker a).isWaiting = false := by
    intro a
    cases a with
    | user => exact hended.user
    | internal => exact hended.internal
  rw [Engine.assign_eq hx hended.cached hidle]
  have hself : (f.engine.updateTask t (assigned c s)).task? t = some (assigned c s x) := by
    rw [Engine.task?_updateTask_self, hx, Option.map_some]
  refine keeps_resuming ⟨fun u => ?_, rfl, rfl, id⟩ (fun u y hy => ?_) rfl rfl rfl rfl
    (.inr ⟨_, hself, rfl⟩)
  · by_cases hu : u = t
    · have hstolen := Engine.stolenOf_of_task? hself
      rw [hu, Engine.stolenOf_of_task? hx]
      exact hstolen
    · have hother := f.engine.task?_updateTask t u (assigned c s)
      rw [if_neg hu] at hother
      rw [Engine.stolenOf, Engine.stolenOf, ← hother]
      rfl
  · by_cases hu : u = t
    · subst hu
      rw [hx] at hy
      cases hy
      refine ⟨_, hself, fun halive => ?_⟩
      rw [hended.cached] at halive
      cases halive
    · have hother := f.engine.task?_updateTask t u (assigned c s)
      rw [if_neg hu] at hother
      exact ⟨y, hother.trans hy, fun _ => rfl⟩

/-- A step hands an entry over, steals a task, has no part in the hand-over at all, or keeps every
task on its carrier. -/
theorem Step.keeps_or (h : Sound f) (s : Step f f') :
    Keeps f f' ∨
    (∃ e, f.engine.Frame e ∧ f' = { f with engine := e }) ∨
    (∃ c r e, f.phases[c]? = some .looking ∧ f.engine.Taken c r e ∧
      f' = f.move c (.holding r) e) ∨
    (∃ c t x e, f.phases[c]? = some (.resuming t) ∧ f.engine.task? t = some x ∧
      f.engine.steal? c x = some e ∧ f' = { f with engine := e }) ∨
    ∃ now t, t ∈ f.freed ∧
      f' = { f with engine := f.engine.wake now t, freed := f.freed.erase t } := by
  have hstay : ∀ {e : Engine V} {due : List TimeoutRef}, f.engine.Anchored e →
      Keeps f { f with engine := e, due } := fun ha => keeps_stay ha rfl fun _ => Nat.le_refl _
  have hmove : ∀ {c : Nat} {p' : Phase} {e : Engine V}, f.engine.Anchored e → p'.held = none →
      (∀ s, p' ≠ .holding (.start s)) → Keeps f (f.move c p' e) := fun ha hheld hstart =>
    keeps_move ha rfl hheld hstart fun _ => Nat.le_refl _
  have hblame : ∀ y, f.engine.Anchored (f.engine.blame y) := fun y =>
    Engine.anchored_of_eq rfl rfl rfl rfl rfl
  cases s with
  | other hf => exact .inr (.inl ⟨_, hf, rfl⟩)
  | take hp ht => exact .inr (.inr (.inl ⟨_, _, _, hp, ht, rfl⟩))
  | abandon hp => exact .inl (hmove (.refl _) rfl fun _ => Phase.noConfusion)
  | obtainPooled hp ht => exact .inl (hmove ht.anchored rfl fun _ => Phase.noConfusion)
  | obtainFresh hp => exact .inl (keeps_fresh f _ _)
  | assign hp => exact .inl (keeps_assign h hp)
  | @unmark c t hp =>
      have hmark := Engine.anchored_unmark f.engine t
      exact .inl (keeps_resuming hmark.toSameRecord hmark.home hmark.queues rfl rfl rfl (.inl hp))
  | refuse hp hx hover => exact .inl (hmove (hblame _) rfl fun _ => Phase.noConfusion)
  | steal hp hx hforeign hs => exact .inr (.inr (.inr (.inl ⟨_, _, _, _, hp, hx, hs, rfl⟩)))
  | giveUp hp =>
      exact .inl (keeps_move (.refl _) rfl rfl (fun _ => Phase.noConfusion)
        fun u => (List.sublist_cons_self _ _).count_le u)
  | throttle now deadline hp =>
      exact .inl (hmove (Engine.anchored_arm _ _ _ _ _ _ _) rfl fun _ => Phase.noConfusion)
  | switchIn now hp hx hown hfree =>
      exact .inl (hmove (Engine.anchored_switchIn _ _ _ _) rfl fun _ => Phase.noConfusion)
  | park hp hx hq =>
      exact .inl (hmove (Engine.anchored_setParker _ _ _ _) rfl fun _ => Phase.noConfusion)
  | block hp hx hq =>
      exact .inl (hmove (Engine.anchored_setParker _ _ _ _) rfl fun _ => Phase.noConfusion)
  | permit hp hx hq => exact .inl (hstay (Engine.anchored_setParker _ _ _ _))
  | refusePark hp hx hq => exact .inl (hstay (hblame _))
  | endPark a hp => exact .inl (hstay (Engine.anchored_setParker _ _ _ _))
  | unblock hp =>
      exact .inl (hmove (Engine.anchored_setParker _ _ _ _) rfl fun _ => Phase.noConfusion)
  | arm now deadline hp => exact .inl (hstay (Engine.anchored_arm _ _ _ _ _ _ _))
  | armBlocked now deadline hp => exact .inl (hstay (Engine.anchored_arm _ _ _ _ _ _ _))
  | disarm hp hbusy => exact .inl (hstay (Engine.anchored_withdraw _ _ _))
  | yield hp =>
      exact .inl (hmove (Engine.anchored_updateCarrier fun _ => rfl) rfl fun _ => Phase.noConfusion)
  | retire hp =>
      exact .inl (hmove (Engine.anchored_recycle _ _ _) rfl fun _ => Phase.noConfusion)
  | leave hp => exact .inl (hmove (Engine.anchored_vacate _ _ _) rfl fun _ => Phase.noConfusion)
  | @register c _ _ _ hp hx hk =>
      have hpending : ∀ ks, f.engine.Anchored
          (f.engine.updateCarrier c ({ · with pendingPrecise := ks })) := fun _ =>
        Engine.anchored_updateCarrier fun _ => rfl
      exact .inl (hstay ((hpending _).trans (Engine.anchored_register _ _)))
  | undefer hp hx hd =>
      exact .inl (keeps_stay (Engine.anchored_updateCarrier fun _ => rfl) rfl
        fun u => (List.sublist_cons_self _ _).count_le u)
  | settle hp hx hk hd => exact .inl (hmove (.refl _) rfl fun _ => Phase.noConfusion)
  | @release t x a hx =>
      have hpark : f.engine.Anchored (f.engine.updateTask t fun _ => (x.release a).1) := by
        rw [← Engine.updateTask_congr (f := fun y => y.setParker a (x.parker a).release.1) hx rfl]
        exact Engine.anchored_setParker _ _ _ _
      exact .inl (keeps_stay hpark rfl fun u =>
        Nat.le_trans (Nat.le_add_right _ _)
          (Nat.le_of_eq (count_freedBy f t (x.parker a) u).symm))
  | wake now ht => exact .inr (.inr (.inr (.inr ⟨now, _, ht, rfl⟩)))
  | poll now hq => exact .inl (hstay (Engine.anchored_updateTimers _ _ _))
  | lapse hr hy hc => exact .inl (hstay (.refl _))
  | fire hr hy hc =>
      have hcount : f.engine.Anchored (f.engine.count .timersFired) :=
        Engine.anchored_count _ Counter.noConfusion Counter.noConfusion
      refine .inl (keeps_stay (hcount.trans (Engine.anchored_clearTimeoutIf _ _ _)) rfl
        fun u => ?_)
      dsimp only
      split
      · exact (List.sublist_cons_self _ _).count_le u
      · exact Nat.le_refl _
  | @scrap t e ht =>
      have hdead : e.Anchored (e.updateTask t Task.discard) :=
        Engine.anchored_updateTask (fun _ => rfl) fun _ => rfl
      exact .inl (hstay (ht.anchored.trans hdead))

/-- A step that wakes nobody, takes no entry and changes no record of steals keeps every task on its
carrier. -/
theorem Step.keeps (h : Sound f) (s : Step f f') (hfreed : ∀ t, f.freed.count t ≤ f'.freed.count t)
    (hholding : ∀ (c : Nat) (r : Runnable), f'.phases[c]? = some (.holding r) →
      f.phases[c]? = some (.holding r))
    (hrecord : f.engine.SameRecord f'.engine) : Keeps f f' := by
  rcases s.keeps_or h with hkeeps | ⟨e, hf, rfl⟩ | ⟨c, r, e, hp, -, rfl⟩ |
    ⟨c, t, x, e, -, hx, hs, rfl⟩ | ⟨now, t, ht, rfl⟩
  · exact hkeeps
  · exact keeps_stay (hf.anchored hrecord) rfl fun _ => Nat.le_refl _
  · have hheld : (f.move c (.holding r) e).phases[c]? = some (.holding r) := by
      rw [move, Array.getElem?_modify, if_pos rfl, hp, Option.map_some]
    have hsame := hholding c r hheld
    rw [hp] at hsame
    cases hsame
  · obtain rfl := h.roster.id t x hx
    exact absurd hrecord ((Engine.movedTo_of_steal? hx hs).not_sameRecord hx)
  · have hle := hfreed t
    have herase := count_task_erase ht t
    rw [tally_self] at herase
    simp only at hle
    omega

end Floor

end GreenThreads

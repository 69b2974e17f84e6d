import GreenThreads.Proofs.Engine.Ways

/-!
# What has no part in the hand-over of tasks

Much of what an engine does concerns run times, groups, channels, results and counters. Such a step
keeps everything by which tasks are handed over, and with it every count of the ways to go on. Other
steps change the timers and nothing else, or anything but the timers.
-/

namespace GreenThreads

/-- Whether an entry is that of a task. -/
def Runnable.isResume : Runnable → Bool
  | .start _ => false
  | .resume _ => true

/-- The state of an axis, permits aside. -/
def Parker.demand : Parker → Parker
  | permitted => free
  | p => p

/-- What is left of a task for its hand-over, timers aside. -/
def Task.core (t : Task) : Task :=
  { id := t.id, status := t.status, carrier := t.carrier, locked := t.locked,
    enqueued := t.enqueued, user := t.user.demand, internal := t.internal.demand,
    isThread := t.isThread }

/-- What is left of a carrier for the hand-over of tasks, timers aside. -/
def Carrier.core (c : Carrier) : Carrier :=
  { index := 0, queue := c.queue.filter Runnable.isResume, pool := c.pool,
    timers := { owner := 0 }, current := c.current, deferred := c.deferred }

/-- The timers of a carrier, with those that are to become pending. -/
def Carrier.clock (c : Carrier) : TimerQueue × List Nat := (c.timers, c.pendingPrecise)

/-- A fault of the quota of a group or of the critical sections of a carrier, which does not concern
the hand-over of tasks. -/
def Fault.isLocal : Fault → Bool
  | .negateOverflow | .unbalancedCritical => true
  | _ => false

theorem Fault.eq_of_isLocal {x : Fault} (h : x.isLocal = true) :
    x = .negateOverflow ∨ x = .unbalancedCritical := by
  cases x with
  | negateOverflow => exact .inl rfl
  | unbalancedCritical => exact .inr rfl
  | _ => cases h

theorem demand_waiting (p : Parker) : (p.demand == .waiting) = (p == .waiting) := by
  cases p <;> rfl

theorem demand_native (x : Task) (a : Axis) :
    (x.core.parker a == .waitingNative) = (x.parker a == .waitingNative) := by
  have hdemand : ∀ p : Parker, (p.demand == .waitingNative) = (p == .waitingNative) := by
    intro p
    cases p <;> rfl
  cases a with
  | user => exact hdemand x.user
  | internal => exact hdemand x.internal

theorem count_filter_isResume (l : List Runnable) (t : TaskId) :
    (l.filter Runnable.isResume).count (.resume t) = l.count (.resume t) :=
  List.count_filter rfl

namespace Engine

variable {V : Type} {e e' e'' : Engine V} {t : TaskId} {c : Nat} {p : Task → Bool}
  {f : Task → Task} {g : Carrier → Carrier}

/-- `e'` differs from `e` in its timers at most, for all that concerns the hand-over of tasks. -/
structure Timekeeping (e e' : Engine V) : Prop where
  tasks : e'.tasks.map Task.core = e.tasks.map Task.core
  carriers : e'.carriers.map Carrier.core = e.carriers.map Carrier.core
  shared : e'.shared.filter Runnable.isResume = e.shared.filter Runnable.isResume
  pool : e'.pool = e.pool
  faults : ∀ x ∈ e'.faults, x ∈ e.faults ∨ x.isLocal = true

/-- `e'` has the timers of `e`. -/
structure SameTimers (e e' : Engine V) : Prop where
  slots : e'.tasks.map (·.timeout) = e.tasks.map (·.timeout)
  clocks : e'.carriers.map Carrier.clock = e.carriers.map Carrier.clock
  precise : e'.precise = e.precise

/-- `e'` differs from `e` in nothing that concerns the hand-over of tasks. -/
structure Frame (e e' : Engine V) : Prop extends Timekeeping e e', SameTimers e e' where
  config : e'.config = e.config

theorem map_updateTask {β : Type} {k : Task → β} (h : ∀ x, k (f x) = k x) :
    (e.updateTask t f).tasks.map k = e.tasks.map k := by
  apply Array.ext_getElem?
  intro i
  simp only [updateTask, Array.getElem?_map, Array.getElem?_modify]
  split
  · cases e.tasks[i]? with
    | none => rfl
    | some x => simp only [Option.map_some, h]
  · rfl

theorem map_put {β : Type} {k : Task → β} {x y : Task} (ht : e.task? t = some x)
    (h : k y = k x) : (e.updateTask t fun _ => y).tasks.map k = e.tasks.map k := by
  apply Array.ext_getElem?
  intro i
  simp only [updateTask, Array.getElem?_map, Array.getElem?_modify]
  split
  · next hi =>
      subst hi
      have hx : e.tasks[t.index]? = some x := ht
      simp only [hx, Option.map_some, h]
  · rfl

theorem map_updateCarrier {β : Type} {k : Carrier → β} (h : ∀ x, k (g x) = k x) :
    (e.updateCarrier c g).carriers.map k = e.carriers.map k := by
  apply Array.ext_getElem?
  intro i
  simp only [updateCarrier, Array.getElem?_map, Array.getElem?_modify]
  split
  · cases e.carriers[i]? with
    | none => rfl
    | some x => simp only [Option.map_some, h]
  · rfl

/-- What two arrays have in common under `k` they have at every place. -/
theorem exists_of_map_eq {α β : Type} {k : α → β} {xs ys : Array α} {i : Nat} {y : α}
    (h : ys.map k = xs.map k) (hy : ys[i]? = some y) : ∃ x, xs[i]? = some x ∧ k y = k x := by
  have hget := congrArg (·[i]?) h
  simp only [Array.getElem?_map, hy, Option.map_some] at hget
  obtain ⟨x, hx, heq⟩ := Option.map_eq_some_iff.mp hget.symm
  exact ⟨x, hx, heq.symm⟩

theorem total_of_map_eq {α β : Type} {k : α → β} {n : α → Nat} {xs ys : Array α} (m : β → Nat)
    (hn : ∀ x, n x = m (k x)) (h : ys.map k = xs.map k) : total n ys = total n xs := by
  have hmap : ∀ zs : Array α, total n zs = total m (zs.map k) := by
    intro zs
    simp only [total, Array.toList_map, List.map_map]
    congr 2
    funext x
    exact hn x
  rw [hmap, h, ← hmap]

theorem flag_of_map_eq {k : Task → Task} (h : e'.tasks.map k = e.tasks.map k)
    (hp : ∀ x, p (k x) = p x) (t : TaskId) : e'.flag t p = e.flag t p := by
  have hget := congrArg (·[t.index]?) h
  simp only [Array.getElem?_map] at hget
  have hany : ∀ o : Option Task, o.any p = (o.map k).any p := by
    intro o
    cases o with
    | none => rfl
    | some x => simp only [Option.map_some, Option.any_some, hp]
  unfold flag task?
  rw [hany, hget, ← hany]

/-! ## Steps that change the timers at most -/

namespace Timekeeping

theorem refl (e : Engine V) : Timekeeping e e := ⟨rfl, rfl, rfl, rfl, fun _ h => .inl h⟩

theorem trans (h : Timekeeping e e') (h' : Timekeeping e' e'') : Timekeeping e e'' := by
  refine ⟨h'.tasks.trans h.tasks, h'.carriers.trans h.carriers, h'.shared.trans h.shared,
    h'.pool.trans h.pool, ?_⟩
  intro x hx
  rcases h'.faults x hx with hx | hx
  · exact h.faults x hx
  · exact .inr hx

theorem size (h : Timekeeping e e') : e'.carriers.size = e.carriers.size := by
  have hsize := congrArg Array.size h.carriers
  simpa using hsize

theorem exists_task {x' : Task} (h : Timekeeping e e') (ht : e'.task? t = some x') :
    ∃ x, e.task? t = some x ∧ x'.core = x.core := exists_of_map_eq h.tasks ht

theorem flag (h : Timekeeping e e') (hp : ∀ x, p x.core = p x) (t : TaskId) :
    e'.flag t p = e.flag t p := flag_of_map_eq h.tasks hp t

theorem queued (h : Timekeeping e e') (t : TaskId) : e'.queued t = e.queued t := by
  unfold Engine.queued
  rw [total_of_map_eq (fun x => x.queue.count (.resume t))
      (fun x => (count_filter_isResume x.queue t).symm) h.carriers,
    ← count_filter_isResume, h.shared, count_filter_isResume]

theorem deferrals (h : Timekeeping e e') (t : TaskId) : e'.deferrals t = e.deferrals t :=
  total_of_map_eq (fun x => tally x.deferred t) (fun _ => rfl) h.carriers

theorem waiting (h : Timekeeping e e') (t : TaskId) : e'.waiting t = e.waiting t := by
  unfold Engine.waiting
  rw [h.flag fun x => demand_waiting x.user, h.flag fun x => demand_waiting x.internal]

theorem seated (h : Timekeeping e e') (t : TaskId) : e'.seated t = e.seated t :=
  total_of_map_eq (fun x => tally x.current t) (fun _ => rfl) h.carriers

theorem pooled (h : Timekeeping e e') (t : TaskId) : e'.pooled t = e.pooled t := by
  have hcarriers : total (fun c : Carrier => c.pool.items.count t) e'.carriers =
      total (fun c : Carrier => c.pool.items.count t) e.carriers :=
    total_of_map_eq (fun x => x.pool.items.count t) (fun _ => rfl) h.carriers
  unfold Engine.pooled
  rw [h.pool, hcarriers]

end Timekeeping

theorem timekeeping_updateTask (h : ∀ x, (f x).core = x.core) :
    Timekeeping e (e.updateTask t f) :=
  ⟨map_updateTask h, rfl, rfl, rfl, fun _ hx => .inl hx⟩

theorem timekeeping_updateCarrier (h : ∀ x, (g x).core = x.core) :
    Timekeeping e (e.updateCarrier c g) :=
  ⟨rfl, map_updateCarrier h, rfl, rfl, fun _ hx => .inl hx⟩

theorem timekeeping_updateTimers (e : Engine V) (owner : Nat) (f : TimerQueue → TimerQueue) :
    Timekeeping e (e.updateTimers owner f) := by
  unfold updateTimers
  split
  · exact ⟨rfl, rfl, rfl, rfl, fun _ hx => .inl hx⟩
  · exact timekeeping_updateCarrier fun _ => rfl

/-! ## Steps that keep the timers -/

namespace SameTimers

theorem refl (e : Engine V) : SameTimers e e := ⟨rfl, rfl, rfl⟩

theorem trans (h : SameTimers e e') (h' : SameTimers e' e'') : SameTimers e e'' :=
  ⟨h'.slots.trans h.slots, h'.clocks.trans h.clocks, h'.precise.trans h.precise⟩

theorem armed (h : SameTimers e e') (t : TaskId) : e'.armed t = e.armed t := by
  have hclocks : total (fun c : Carrier => c.timers.armed t) e'.carriers =
      total (fun c : Carrier => c.timers.armed t) e.carriers :=
    total_of_map_eq (fun x => x.1.armed t) (fun _ => rfl) h.clocks
  unfold Engine.armed
  rw [h.precise, hclocks]

theorem timersOf (h : SameTimers e e') (owner : Nat) : e'.timersOf owner = e.timersOf owner := by
  have hget := congrArg (·[owner]?) h.clocks
  simp only [Array.getElem?_map] at hget
  have hmap : ∀ o : Option Carrier,
      o.map (·.timers) = (o.map Carrier.clock).map (·.1) := by
    intro o
    cases o <;> rfl
  unfold Engine.timersOf
  rw [h.precise, hmap, hget, ← hmap]

theorem resumes (h : SameTimers e e') (t : TaskId) : e'.resumes t = e.resumes t := by
  funext r
  unfold Engine.resumes
  rw [h.timersOf]

end SameTimers

theorem sameTimers_updateTask (h : ∀ x, (f x).timeout = x.timeout) :
    SameTimers e (e.updateTask t f) := ⟨map_updateTask h, rfl, rfl⟩

theorem sameTimers_updateCarrier (h : ∀ x, (g x).clock = x.clock) :
    SameTimers e (e.updateCarrier c g) := ⟨rfl, map_updateCarrier h, rfl⟩

/-! ## Frames -/

theorem Frame.refl (e : Engine V) : Frame e e := ⟨.refl e, .refl e, rfl⟩

theorem Frame.trans (h : Frame e e') (h' : Frame e' e'') : Frame e e'' :=
  ⟨h.toTimekeeping.trans h'.toTimekeeping, h.toSameTimers.trans h'.toSameTimers,
    h'.config.trans h.config⟩

theorem frame_updateTask (h : ∀ x, (f x).core = x.core) (ht : ∀ x, (f x).timeout = x.timeout) :
    Frame e (e.updateTask t f) := ⟨timekeeping_updateTask h, sameTimers_updateTask ht, rfl⟩

theorem frame_updateCarrier (h : ∀ x, (g x).core = x.core) (hc : ∀ x, (g x).clock = x.clock) :
    Frame e (e.updateCarrier c g) :=
  ⟨timekeeping_updateCarrier h, sameTimers_updateCarrier hc, rfl⟩

theorem frame_put {x y : Task} (ht : e.task? t = some x) (h : y.core = x.core)
    (htimeout : y.timeout = x.timeout) : Frame e (e.updateTask t fun _ => y) :=
  ⟨⟨map_put ht h, rfl, rfl, rfl, fun _ hx => .inl hx⟩, ⟨map_put ht htimeout, rfl, rfl⟩, rfl⟩

theorem frame_of_eq (ht : e'.tasks = e.tasks) (hc : e'.carriers = e.carriers)
    (hs : e'.shared = e.shared) (hp : e'.pool = e.pool) (hprecise : e'.precise = e.precise)
    (hf : ∀ x ∈ e'.faults, x ∈ e.faults ∨ x.isLocal = true) (hconfig : e'.config = e.config) :
    Frame e e' := by
  refine ⟨⟨?_, ?_, ?_, hp, hf⟩, ⟨?_, ?_, hprecise⟩, hconfig⟩
  · rw [ht]
  · rw [hc]
  · rw [hs]
  · rw [ht]
  · rw [hc]

theorem frame_count (e : Engine V) (n : Counter) : Frame e (e.count n) :=
  frame_of_eq rfl rfl rfl rfl rfl (fun _ h => .inl h) rfl

theorem frame_updateJob (e : Engine V) (j : JobId) (f : Join V → Join V) :
    Frame e (e.updateJob j f) := frame_of_eq rfl rfl rfl rfl rfl (fun _ h => .inl h) rfl

theorem frame_updateGroup (e : Engine V) (g : GroupId) (f : ControlGroup → ControlGroup) :
    Frame e (e.updateGroup g f) := frame_of_eq rfl rfl rfl rfl rfl (fun _ h => .inl h) rfl

theorem frame_finishOne (e : Engine V) : Frame e e.finishOne :=
  frame_of_eq rfl rfl rfl rfl rfl (fun _ h => .inl h) rfl

theorem frame_running (e : Engine V) (n : Nat) : Frame e { e with running := n } :=
  frame_of_eq rfl rfl rfl rfl rfl (fun _ h => .inl h) rfl

theorem frame_redraw (e : Engine V) (draws : Draws) : Frame e (e.redraw draws) :=
  frame_of_eq rfl rfl rfl rfl rfl (fun _ h => .inl h) rfl

theorem frame_blame {x : Fault} (hx : x.isLocal = true) : Frame e (e.blame x) := by
  refine frame_of_eq rfl rfl rfl rfl rfl ?_ rfl
  intro y hy
  rcases List.mem_cons.mp hy with rfl | hy
  · exact .inr hx
  · exact .inl hy

end Engine

end GreenThreads

import GreenThreads.Proofs.Engine.Apart

/-!
# The records of an engine

An engine keeps a record of who carries which work, of the groups that tasks are in, and of the run
time that they used. Wakes, timers, channels and switches have no part in this: they leave all
records as they are.
-/

namespace GreenThreads

/-- The work of an entry that has no task yet. -/
def Runnable.work? : Runnable → Option Submission
  | .start s => some s
  | .resume _ => none

/-- What is on record about a task: which work it has, on which carrier, in which group, and how
long it ran. -/
def Task.record (t : Task) : Task :=
  { id := t.id, status := t.status, generation := t.generation, carrier := t.carrier,
    group := t.group, runTime := t.runTime, job := t.job }

/-- `y` is `x` with the record that it had, and it waits on no axis on which `x` did not. -/
structure Task.Kept (x y : Task) : Prop where
  record : y.record = x.record
  waits : ∀ a, (y.parker a).isWaiting = true → (x.parker a).isWaiting = true

/-- The work that waits at a carrier, and the tasks that the carrier keeps. -/
def Carrier.stock (c : Carrier) : List Submission × Pool := (c.queue.filterMap Runnable.work?, c.pool)

/-- Whether a piece of work is over, and who carries it. -/
def Join.record {V : Type} (j : Join V) : Bool × Option Binding := (j.done, j.binding)

/-- Whether a counter is a record of work or of run time. -/
def Counter.isRecord : Counter → Bool
  | tasksSubmitted | tasksCompleted | freeRunning => true
  | _ => false

theorem map_modify_congr {α β : Type} {k : α → β} {h g : α → α} {xs : Array α} {i : Nat}
    (heq : ∀ x, xs[i]? = some x → k (h x) = k (g x)) :
    (xs.modify i h).map k = (xs.modify i g).map k := by
  apply Array.ext_getElem?
  intro j
  simp only [Array.getElem?_map, Array.getElem?_modify]
  split
  · next hj =>
      subst hj
      cases hx : xs[i]? with
      | none => rfl
      | some x => simp only [Option.map_some, heq x hx]
  · rfl

theorem map_modify_of_eq {α β : Type} {k : α → β} {h : α → α} {xs : Array α} {i : Nat}
    (heq : ∀ x, xs[i]? = some x → k (h x) = k x) : (xs.modify i h).map k = xs.map k := by
  have hid : xs.modify i id = xs := by
    apply Array.ext_getElem?
    intro j
    rw [Array.getElem?_modify, Option.map_id, id, ite_self]
  rw [map_modify_congr (g := id) heq, hid]

theorem Task.Kept.refl (x : Task) : Kept x x := ⟨rfl, fun _ h => h⟩

theorem Task.parker_setParker_of_ne {x : Task} {a b : Axis} (h : b ≠ a) (p : Parker) :
    (x.setParker a p).parker b = x.parker b := by
  cases a with
  | user =>
      cases b with
      | user => exact absurd rfl h
      | internal => rfl
  | internal =>
      cases b with
      | user => rfl
      | internal => exact absurd rfl h

theorem Task.kept_setParker {x : Task} {a : Axis} {p : Parker}
    (h : p.isWaiting = true → (x.parker a).isWaiting = true) : x.Kept (x.setParker a p) := by
  refine ⟨by cases a <;> rfl, ?_⟩
  intro b hw
  by_cases hb : b = a
  · subst hb
    rw [parker_setParker_self] at hw
    exact h hw
  · rw [parker_setParker_of_ne hb] at hw
    exact hw

namespace Engine

variable {V : Type} {e e' e'' : Engine V} {t : TaskId} {c : Nat} {now : Nanos} {f : Task → Task}
  {g : Carrier → Carrier}

/-- No task comes to wait between `e` and `e'`. -/
def Calm (e e' : Engine V) : Prop :=
  ∀ t x', e'.task? t = some x' → ∃ x, e.task? t = some x ∧
    ∀ a, (x'.parker a).isWaiting = true → (x.parker a).isWaiting = true

theorem calm_of_tasks (h : e'.tasks = e.tasks) : Calm e e' := by
  intro t x' hx
  rw [task?, h] at hx
  exact ⟨x', hx, fun _ => id⟩

theorem Calm.trans (h : Calm e e') (h' : Calm e' e'') : Calm e e'' := by
  intro t x'' hx''
  obtain ⟨x', hx', hwaits'⟩ := h' t x'' hx''
  obtain ⟨x, hx, hwaits⟩ := h t x' hx'
  exact ⟨x, hx, fun a ha => hwaits a (hwaits' a ha)⟩

theorem calm_updateTask (h : ∀ x, e.task? t = some x →
      ∀ a, ((f x).parker a).isWaiting = true → (x.parker a).isWaiting = true) :
    Calm e (e.updateTask t f) := by
  intro u x' hx'
  rw [task?_updateTask] at hx'
  split at hx'
  · next hu =>
      obtain ⟨x, hx, rfl⟩ := Option.map_eq_some_iff.mp hx'
      exact ⟨x, hx, h x (hu ▸ hx)⟩
  · exact ⟨x', hx', fun _ => id⟩

/-- `e'` has the records of `e`. -/
structure SameRecords (e e' : Engine V) : Prop where
  calm : Calm e e'
  tasks : e'.tasks.map Task.record = e.tasks.map Task.record
  carriers : e'.carriers.map Carrier.stock = e.carriers.map Carrier.stock
  shared : e'.shared.filterMap Runnable.work? = e.shared.filterMap Runnable.work?
  pool : e'.pool = e.pool
  live : e'.live = e.live
  jobs : e'.jobs.map Join.record = e.jobs.map Join.record
  groups : e'.groups = e.groups
  outstanding : e'.outstanding = e.outstanding
  stats : ∀ n, n.isRecord = true → e'.stats.get n = e.stats.get n

theorem SameRecords.refl (e : Engine V) : SameRecords e e :=
  ⟨calm_of_tasks rfl, rfl, rfl, rfl, rfl, rfl, rfl, rfl, rfl, fun _ _ => rfl⟩

theorem SameRecords.trans (h : SameRecords e e') (h' : SameRecords e' e'') : SameRecords e e'' :=
  ⟨h.calm.trans h'.calm, h'.tasks.trans h.tasks, h'.carriers.trans h.carriers,
    h'.shared.trans h.shared, h'.pool.trans h.pool, h'.live.trans h.live, h'.jobs.trans h.jobs,
    h'.groups.trans h.groups, h'.outstanding.trans h.outstanding,
    fun n hn => (h'.stats n hn).trans (h.stats n hn)⟩

theorem sameRecords_foldl {α : Type} {k : Engine V → α → Engine V}
    (h : ∀ e x, SameRecords e (k e x)) (e : Engine V) (l : List α) :
    SameRecords e (l.foldl k e) := by
  induction l generalizing e with
  | nil => exact .refl e
  | cons x l ih => exact (h e x).trans (ih (k e x))

/-- What an engine that starts is made of. -/
theorem start_eq {config : Config} {processors : Nat} {groups : List ControlGroup}
    {pump : EventPump} (h : start config processors groups pump = .ok e) :
    e = { config
          carriers := Array.ofFn fun i : Fin (config.effectiveWorkers processors) =>
            Carrier.make i config.carrierCache
          pool := { capacity := config.globalCache }
          groups := groups.toArray
          pump
          precise := { owner := preciseOwner }
          running := config.effectiveWorkers processors } := by
  unfold start at h
  cases hv : config.validate with
  | error err => rw [hv] at h; cases h
  | ok u => rw [hv] at h; cases h; rfl

/-! ## Changes of one part -/

theorem sameRecords_updateTask (h : ∀ x : Task, x.Kept (f x)) : SameRecords e (e.updateTask t f) :=
  ⟨calm_updateTask fun x _ => (h x).waits, map_updateTask fun x => (h x).record, rfl, rfl, rfl, rfl,
    rfl, rfl, rfl, fun _ _ => rfl⟩

theorem sameRecords_put {x y : Task} (ht : e.task? t = some x) (h : x.Kept y) :
    SameRecords e (e.updateTask t fun _ => y) := by
  refine ⟨calm_updateTask fun z hz => ?_, map_put ht h.record, rfl, rfl, rfl, rfl, rfl, rfl, rfl,
    fun _ _ => rfl⟩
  rw [ht] at hz
  cases hz
  exact h.waits

theorem sameRecords_updateCarrier
    (h : ∀ x, e.carriers[c]? = some x → (g x).stock = x.stock) :
    SameRecords e (e.updateCarrier c g) :=
  ⟨calm_of_tasks rfl, rfl, map_modify_of_eq h, rfl, rfl, rfl, rfl, rfl, rfl, fun _ _ => rfl⟩

theorem sameRecords_updateTimers (e : Engine V) (owner : Nat) (k : TimerQueue → TimerQueue) :
    SameRecords e (e.updateTimers owner k) := by
  unfold updateTimers
  split
  · exact ⟨calm_of_tasks rfl, rfl, rfl, rfl, rfl, rfl, rfl, rfl, rfl, fun _ _ => rfl⟩
  · exact sameRecords_updateCarrier fun _ _ => rfl

theorem sameRecords_updateJob {j : JobId} {k : Join V → Join V}
    (h : ∀ x, e.jobs[j]? = some x → (k x).record = x.record) : SameRecords e (e.updateJob j k) :=
  ⟨calm_of_tasks rfl, rfl, rfl, rfl, rfl, rfl, map_modify_of_eq h, rfl, rfl, fun _ _ => rfl⟩

theorem sameRecords_count (e : Engine V) {n : Counter} (h : n.isRecord = false) :
    SameRecords e (e.count n) := by
  refine ⟨calm_of_tasks rfl, rfl, rfl, rfl, rfl, rfl, rfl, rfl, rfl, ?_⟩
  intro m hm
  have hne : n ≠ m := by
    rintro rfl
    rw [h] at hm
    cases hm
  exact (Stats.get_add e.stats n m 1).trans (if_neg hne)

theorem sameRecords_blame (e : Engine V) (x : Fault) : SameRecords e (e.blame x) :=
  ⟨calm_of_tasks rfl, rfl, rfl, rfl, rfl, rfl, rfl, rfl, rfl, fun _ _ => rfl⟩

/-! ## Wakes -/

theorem sameRecords_wake (e : Engine V) (now : Nanos) (t : TaskId) :
    SameRecords e (e.wake now t) := by
  unfold wake
  split
  · exact .refl e
  · split
    · exact .refl e
    · split
      · refine SameRecords.trans ?_ (sameRecords_updateCarrier ?_)
        · exact sameRecords_updateTask fun _ => ⟨rfl, fun _ => id⟩
        · intro x _
          simp [Carrier.stock, Carrier.enqueue, Runnable.work?]
      · exact .refl e

theorem sameRecords_wakeReleased (e : Engine V) (now : Nanos) (t : TaskId) (r : Released) :
    SameRecords e (e.wakeReleased now t r) := by
  cases r with
  | cooperative => exact sameRecords_wake e now t
  | native => exact .refl e
  | permit => exact .refl e

theorem kept_release (x : Task) (a : Axis) : x.Kept (x.release a).1 := by
  refine Task.kept_setParker fun h => ?_
  revert h
  cases x.parker a <;> simp [Parker.isWaiting]

theorem sameRecords_unpark (e : Engine V) (now : Nanos) (t : TaskId) (a : Axis) :
    SameRecords e (e.unpark now t a) := by
  unfold unpark
  split
  · exact .refl e
  · next x hx =>
      exact (sameRecords_put hx (kept_release x a)).trans (sameRecords_wakeReleased _ now t _)

theorem sameRecords_wakeWaiting (e : Engine V) (now : Nanos) (t : TaskId) (a : Axis) :
    SameRecords e (e.wakeWaiting now t a) := by
  unfold wakeWaiting
  split
  · exact .refl e
  · split
    · next p r hw =>
        have hp : p.isWaiting = false := by
          unfold Parker.wakeWaiting at hw
          split at hw <;> cases hw <;> rfl
        have hfreed : ∀ x : Task, x.Kept (x.setParker a p) := fun x =>
          Task.kept_setParker fun h => by rw [hp] at h; cases h
        exact (sameRecords_updateTask hfreed).trans (sameRecords_wakeReleased _ now t _)
    · exact .refl e

theorem sameRecords_useWaker (e : Engine V) (now : Nanos) (w : Waker) :
    SameRecords e (e.useWaker now w) := by
  unfold useWaker
  split
  · exact .refl e
  · split
    · exact sameRecords_unpark e now w.task w.axis
    · exact .refl e

theorem kept_cancel {x y : Task} {generation : Nat} {r : Released × Released}
    (h : x.cancel generation = (y, some r)) : x.Kept y := by
  unfold Task.cancel at h
  split at h
  · cases h
    have hinternal := kept_release { x with cancelled := true } .internal
    have huser := kept_release ({ x with cancelled := true }.release .internal).1 .user
    exact ⟨huser.record.trans hinternal.record, fun a ha => hinternal.waits a (huser.waits a ha)⟩
  · cases h

theorem sameRecords_cancelTask (e : Engine V) (now : Nanos) (t : TaskId) (generation : Nat) :
    SameRecords e (e.cancelTask now t generation).1 := by
  unfold cancelTask
  split
  · exact .refl e
  · next x hx =>
      split
      · exact .refl e
      · next y internal user hc =>
          exact ((sameRecords_put hx (kept_cancel hc)).trans
            (sameRecords_wakeReleased _ now t internal)).trans
              (sameRecords_wakeReleased _ now t user)

theorem sameRecords_cancel (e : Engine V) (now : Nanos) (t : TaskId) :
    SameRecords e (e.cancel now t).1 := by
  unfold cancel
  split
  · exact .refl e
  · next x hx =>
      split
      · exact sameRecords_cancelTask e now t x.generation
      · exact .refl e

theorem sameRecords_cancelJob (e : Engine V) (now : Nanos) (j : JobId) :
    SameRecords e (e.cancelJob now j) := by
  unfold cancelJob
  split
  · exact .refl e
  · next cell hj =>
      have hcell : SameRecords e (e.updateJob j fun _ => cell.requestCancel.1) :=
        sameRecords_updateJob fun x hx => by rw [hj] at hx; cases hx; rfl
      dsimp only
      split
      · exact hcell
      · next b hb => exact hcell.trans (sameRecords_cancelTask _ now b.task b.generation)

theorem sameRecords_releaseWaiting (e : Engine V) (now : Nanos) (t : TaskId) (a : Axis) :
    SameRecords e (e.releaseWaiting now t a) := by
  unfold releaseWaiting
  split
  · split
    · exact sameRecords_unpark e now t a
    · exact .refl e
  · exact .refl e

theorem sameRecords_drainRound (e : Engine V) (now : Nanos) (me : TaskId) :
    SameRecords e (e.drainRound now me) := by
  have hrelease : ∀ (e : Engine V) t, SameRecords e
      ((e.releaseWaiting now t .internal).releaseWaiting now t .user) := fun e t =>
    (sameRecords_releaseWaiting e now t .internal).trans (sameRecords_releaseWaiting _ now t .user)
  exact sameRecords_foldl hrelease e (e.live.filter (· != me))

/-! ## Timers -/

theorem sameRecords_setTimeout (e : Engine V) (t : TaskId) (r : Option TimeoutRef) :
    SameRecords e (e.updateTask t ({ · with timeout := r })) :=
  sameRecords_updateTask fun _ => ⟨rfl, fun _ => id⟩

theorem sameRecords_disarm (e : Engine V) (t : TaskId) : SameRecords e (e.disarm t) := by
  have htake : SameRecords e (e.updateTask t fun x => x.takeTimeout.1) :=
    sameRecords_updateTask fun _ => ⟨rfl, fun _ => id⟩
  unfold disarm
  split
  · exact .refl e
  · split
    · exact .refl e
    · dsimp only
      split
      · exact (htake.trans (sameRecords_updateTimers _ _ _)).trans (sameRecords_count _ rfl)
      · exact htake

theorem sameRecords_register (e : Engine V) (r : TimeoutRef) : SameRecords e (e.register r) :=
  sameRecords_updateTimers e r.owner _

theorem sameRecords_arm (e : Engine V) (now : Nanos) (c : Nat) (t : TaskId) (deadline : Nanos)
    (action : TimeoutAction) (byTask : Bool) :
    SameRecords e (e.arm now c t deadline action byTask) := by
  have hslot : ∀ owner k r, SameRecords e
      (((e.count .timersArmed).updateTimers owner k).updateTask t ({ · with timeout := r })) :=
    fun owner k r => ((sameRecords_count e rfl).trans (sameRecords_updateTimers _ owner k)).trans
      (sameRecords_setTimeout _ t r)
  unfold arm
  generalize (if e.config.preciseTimer then preciseOwner else c) = owner
  dsimp only
  split
  · exact .refl e
  · split
    · exact (hslot _ _ _).trans (sameRecords_updateCarrier fun _ _ => rfl)
    · exact (hslot _ _ _).trans (sameRecords_register _ _)

theorem kept_clearTimeoutIf (x : Task) (r : TimeoutRef) : x.Kept (x.clearTimeoutIf r) := by
  unfold Task.clearTimeoutIf
  split
  · exact ⟨rfl, fun _ => id⟩
  · exact .refl x

theorem sameRecords_fire (e : Engine V) (now : Nanos) (r : TimeoutRef) :
    SameRecords e (e.fire now r) := by
  unfold fire
  split
  · exact .refl e
  · next y hy =>
      split
      · exact .refl e
      · have hclear : SameRecords e
            ((e.count .timersFired).updateTask y.task (·.clearTimeoutIf r)) :=
          (sameRecords_count e rfl).trans
            (sameRecords_updateTask fun x => kept_clearTimeoutIf x r)
        dsimp only
        split
        · exact hclear.trans (sameRecords_wake _ now y.task)
        · exact hclear.trans (sameRecords_wakeWaiting _ now y.task _)
        · exact hclear.trans (sameRecords_wakeWaiting _ now y.task _)

theorem sameRecords_pollTimers (e : Engine V) (now : Nanos) (owner : Nat) :
    SameRecords e (e.pollTimers now owner) := by
  unfold pollTimers
  split
  · exact .refl e
  · exact (sameRecords_updateTimers _ _ _).trans
      (sameRecords_foldl (fun e k => sameRecords_fire e now _) _ _)

/-! ## Channels -/

theorem SameRecords.channels (h : SameRecords e e') (n : UInt64) (pump : EventPump) :
    SameRecords e { e' with ioWaiters := n, pump } :=
  h.trans ⟨calm_of_tasks rfl, rfl, rfl, rfl, rfl, rfl, rfl, rfl, rfl, fun _ _ => rfl⟩

theorem sameRecords_setChannel (e : Engine V) (t : TaskId) (ch : Option Channel) :
    SameRecords e (e.updateTask t ({ · with channel := ch })) :=
  sameRecords_updateTask fun _ => ⟨rfl, fun _ => id⟩

theorem sameRecords_unregisterChannel (e : Engine V) (t : TaskId) :
    SameRecords e (e.unregisterChannel t) := by
  unfold unregisterChannel
  split
  · exact .refl e
  · split
    · exact .refl e
    · exact (sameRecords_setChannel e t none).channels _ _

theorem sameRecords_registerChannel (e : Engine V) (t : TaskId) (ch : Channel) (i : Interest) :
    SameRecords e (e.registerChannel t ch i).1 := by
  have hback := sameRecords_unregisterChannel e t
  unfold registerChannel
  dsimp only
  split
  · exact (hback.trans (sameRecords_setChannel _ t (some ch))).channels _ _
  · exact hback

theorem sameRecords_deliver (e : Engine V) (now : Nanos) (event : ReadyEvent) :
    SameRecords e (e.deliver now event) := by
  unfold deliver
  split
  · exact .refl e
  · split
    · refine SameRecords.trans ?_ (sameRecords_unpark _ now event.task .internal)
      exact sameRecords_updateTask fun _ => ⟨rfl, fun _ => id⟩
    · exact .refl e

theorem sameRecords_pollEvents (e : Engine V) (now : Nanos) : SameRecords e (e.pollEvents now) := by
  have hpump : ∀ pump, SameRecords e { e with pump } :=
    fun _ => ⟨calm_of_tasks rfl, rfl, rfl, rfl, rfl, rfl, rfl, rfl, rfl, fun _ _ => rfl⟩
  exact (hpump _).trans (sameRecords_foldl (fun e event => sameRecords_deliver e now event) _ _)

/-! ## Switches -/

theorem sameRecords_switchIn (e : Engine V) (now : Nanos) (c : Nat) (t : TaskId) :
    SameRecords e (e.switchIn now c t) := by
  have hlock : SameRecords e (e.updateTask t ({ · with locked := true, enteredAt := now })) :=
    sameRecords_updateTask fun _ => ⟨rfl, fun _ => id⟩
  exact hlock.trans (sameRecords_updateCarrier fun _ _ => rfl)

theorem sameRecords_ensureContext (e : Engine V) (t : TaskId) :
    SameRecords e (e.ensureContext t) := by
  unfold ensureContext
  split
  · exact .refl e
  · split
    · refine (sameRecords_updateTask ?_).trans (sameRecords_count _ rfl)
      intro x
      unfold Task.ensureContext
      split
      · exact ⟨rfl, fun _ => id⟩
      · exact .refl x
    · exact .refl e

theorem sameRecords_switchOut (e : Engine V) (now : Nanos) (c : Nat) :
    SameRecords e (e.switchOut now c) := by
  unfold switchOut
  split
  · exact .refl e
  · next x hx =>
      have hseat : SameRecords e (e.updateCarrier c
          ({ · with current := none, state := .idle, deferred := none, pendingPrecise := [] })) :=
        sameRecords_updateCarrier fun _ _ => rfl
      have hregister : ∀ {e₁ : Engine V}, SameRecords e e₁ → SameRecords e (x.pendingPrecise.foldl
          (fun e number => e.register { owner := preciseOwner, number }) e₁) := fun h =>
        h.trans (sameRecords_foldl
          (fun e number => sameRecords_register e { owner := preciseOwner, number }) _ _)
      have hlock : ∀ t, SameRecords e ((e.updateCarrier c
          ({ · with current := none, state := .idle, deferred := none,
                    pendingPrecise := [] })).updateTask t fun y =>
            { y with
              locked := false
              context := if y.status = .dead then .absent else y.context }) := fun t =>
        hseat.trans (sameRecords_updateTask fun _ => ⟨rfl, fun _ => id⟩)
      cases x.current with
      | none =>
          cases x.deferred with
          | none => exact hregister hseat
          | some u => exact (hregister hseat).trans (sameRecords_wake _ now u)
      | some t =>
          cases x.deferred with
          | none => exact hregister (hlock t)
          | some u => exact (hregister (hlock t)).trans (sameRecords_wake _ now u)

/-! ## All of these -/

/-- `e'` comes from `e` by an operation that has no part in the records. -/
inductive Aside : Engine V → Engine V → Prop
  | wake {e : Engine V} (now : Nanos) (t : TaskId) : Aside e (e.wake now t)
  | unpark {e : Engine V} (now : Nanos) (t : TaskId) (a : Axis) : Aside e (e.unpark now t a)
  | wakeWaiting {e : Engine V} (now : Nanos) (t : TaskId) (a : Axis) :
      Aside e (e.wakeWaiting now t a)
  | useWaker {e : Engine V} (now : Nanos) (w : Waker) : Aside e (e.useWaker now w)
  | cancelTask {e : Engine V} (now : Nanos) (t : TaskId) (generation : Nat) :
      Aside e (e.cancelTask now t generation).1
  | cancel {e : Engine V} (now : Nanos) (t : TaskId) : Aside e (e.cancel now t).1
  | cancelJob {e : Engine V} (now : Nanos) (j : JobId) : Aside e (e.cancelJob now j)
  | drainRound {e : Engine V} (now : Nanos) (me : TaskId) : Aside e (e.drainRound now me)
  | arm {e : Engine V} (now : Nanos) (c : Nat) (t : TaskId) (deadline : Nanos)
      (action : TimeoutAction) (byTask : Bool) : Aside e (e.arm now c t deadline action byTask)
  | disarm {e : Engine V} (t : TaskId) : Aside e (e.disarm t)
  | fire {e : Engine V} (now : Nanos) (r : TimeoutRef) : Aside e (e.fire now r)
  | pollTimers {e : Engine V} (now : Nanos) (owner : Nat) : Aside e (e.pollTimers now owner)
  | registerChannel {e : Engine V} (t : TaskId) (ch : Channel) (i : Interest) :
      Aside e (e.registerChannel t ch i).1
  | unregisterChannel {e : Engine V} (t : TaskId) : Aside e (e.unregisterChannel t)
  | pollEvents {e : Engine V} (now : Nanos) : Aside e (e.pollEvents now)
  | switchIn {e : Engine V} (now : Nanos) (c : Nat) (t : TaskId) : Aside e (e.switchIn now c t)
  | ensureContext {e : Engine V} (t : TaskId) : Aside e (e.ensureContext t)
  | switchOut {e : Engine V} (now : Nanos) (c : Nat) : Aside e (e.switchOut now c)

theorem Aside.sameRecords (h : Aside e e') : SameRecords e e' := by
  cases h with
  | wake now t => exact sameRecords_wake e now t
  | unpark now t a => exact sameRecords_unpark e now t a
  | wakeWaiting now t a => exact sameRecords_wakeWaiting e now t a
  | useWaker now w => exact sameRecords_useWaker e now w
  | cancelTask now t generation => exact sameRecords_cancelTask e now t generation
  | cancel now t => exact sameRecords_cancel e now t
  | cancelJob now j => exact sameRecords_cancelJob e now j
  | drainRound now me => exact sameRecords_drainRound e now me
  | arm now c t deadline action byTask => exact sameRecords_arm e now c t deadline action byTask
  | disarm t => exact sameRecords_disarm e t
  | fire now r => exact sameRecords_fire e now r
  | pollTimers now owner => exact sameRecords_pollTimers e now owner
  | registerChannel t ch i => exact sameRecords_registerChannel e t ch i
  | unregisterChannel t => exact sameRecords_unregisterChannel e t
  | pollEvents now => exact sameRecords_pollEvents e now
  | switchIn now c t => exact sameRecords_switchIn e now c t
  | ensureContext t => exact sameRecords_ensureContext e t
  | switchOut now c => exact sameRecords_switchOut e now c

end Engine

end GreenThreads

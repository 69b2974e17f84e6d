import GreenThreads.Engine.Channels
import GreenThreads.Proofs.Engine.Apart
import GreenThreads.Proofs.Floor.Conservation

/-!
# Operations that anybody may carry out

Unparks, cancellations, results, signals, drains and polls are made of steps that need no carrier.
Whoever carries one of them out from its beginning to its end has nothing in hand afterwards, and so
gets from one floor that can be reached to another.
-/

namespace GreenThreads

namespace Engine

variable {V : Type} {e : Engine V}

/-- A timeout that was cancelled does nothing when it fires. -/
theorem fire_of_cancelled {r : TimeoutRef} {y : Timeout} (hr : e.timeout? r = some y)
    (hy : y.cancelled = true) (now : Nanos) : e.fire now r = e := by
  obtain ⟨q, hq, hb⟩ := Option.bind_eq_some_iff.mp hr
  obtain ⟨z, hz, rfl⟩ := Option.map_eq_some_iff.mp ((Array.getElem?_map ..).symm.trans hb)
  unfold Engine.fire
  rw [hq, Option.bind_some, hz]
  exact if_pos hy

theorem fire_eq {r : TimeoutRef} {y : Timeout} (hr : e.timeout? r = some y)
    (hy : y.cancelled = false) (now : Nanos) :
    e.fire now r =
      let e' := (e.count .timersFired).updateTask y.task (·.clearTimeoutIf r)
      match y.action with
      | .resume => e'.wake now y.task
      | .wakeCooperative a | .wakeNative a => e'.wakeWaiting now y.task a := by
  obtain ⟨q, hq, hb⟩ := Option.bind_eq_some_iff.mp hr
  obtain ⟨z, hz, rfl⟩ := Option.map_eq_some_iff.mp ((Array.getElem?_map ..).symm.trans hb)
  have hnot : ¬ z.cancelled = true := Bool.eq_false_iff.mp hy
  unfold Engine.fire
  rw [hq, Option.bind_some, hz]
  exact if_neg hnot

theorem discardAll_updateCarrier (e : Engine V) (c : Nat) (g : Carrier → Carrier)
    (l : List TaskId) : (e.updateCarrier c g).discardAll l = (e.discardAll l).updateCarrier c g := by
  induction l generalizing e with
  | nil => rfl
  | cons t l ih => exact ih (e.updateTask t Task.discard)

theorem discardAll_pool (e : Engine V) (pool : Pool) (l : List TaskId) :
    discardAll { e with pool } l = { e.discardAll l with pool } := by
  induction l generalizing e with
  | nil => rfl
  | cons t l ih => exact ih (e.updateTask t Task.discard)

end Engine

namespace Floor

variable {V : Type} {f : Floor V} {e : Engine V} {c : Nat} {t : TaskId} {r : Released}
  {g g' : Engine V → Engine V}

/-- An operation that anybody may carry out at any time. -/
def Anytime (g : Engine V → Engine V) : Prop :=
  ∀ f : Floor V, Reached f → Reached { f with engine := g f.engine }

theorem anytime_of_frame (h : ∀ e, Engine.Frame e (g e)) : Anytime g :=
  fun f hf => hf.step (.other (h f.engine))

theorem Anytime.comp (h : Anytime g) (h' : Anytime g') : Anytime fun e => g' (g e) :=
  fun f hf => h' _ (h f hf)

theorem Anytime.foldl {α : Type} {k : Engine V → α → Engine V} (h : ∀ x, Anytime (k · x))
    (l : List α) : Anytime fun e => l.foldl k e := by
  induction l with
  | nil => exact fun f hf => hf
  | cons x l ih => exact (h x).comp ih

/-! ## Wakes -/

theorem Reached.wakeFreed (now : Nanos) (h : Reached { f with engine := e, freed := t :: f.freed }) :
    Reached { f with engine := e.wake now t } := by
  have hstep := h.step (.wake now List.mem_cons_self)
  rw [List.erase_cons_head] at hstep
  exact hstep

theorem Reached.wakeReleased (now : Nanos)
    (h : Reached { f with engine := e, freed := f.freedBy t r }) :
    Reached { f with engine := e.wakeReleased now t r } := by
  cases r with
  | cooperative => exact h.wakeFreed now
  | native => exact h
  | permit => exact h

theorem anytime_unpark (now : Nanos) (t : TaskId) (a : Axis) :
    Anytime (V := V) (·.unpark now t a) := by
  intro f hf
  dsimp only [Engine.unpark]
  split
  · exact hf
  · next x hx => exact (hf.step (.release a hx)).wakeReleased now

theorem anytime_wakeWaiting (now : Nanos) (t : TaskId) (a : Axis) :
    Anytime (V := V) (·.wakeWaiting now t a) := by
  intro f hf
  dsimp only [Engine.wakeWaiting]
  split
  · exact hf
  · next x hx =>
      split
      · next p r hp =>
          have hrelease : x.release a = (x.setParker a p, r) := by
            unfold Task.release
            cases hpark : x.parker a <;> rw [hpark] at hp <;> cases hp <;> rfl
          have hstep := hf.step (.release a hx)
          rw [hrelease, ← Engine.updateTask_congr (f := (·.setParker a p)) hx rfl] at hstep
          exact hstep.wakeReleased now
      · exact hf

theorem anytime_useWaker (now : Nanos) (w : Waker) : Anytime (V := V) (·.useWaker now w) := by
  intro f hf
  dsimp only [Engine.useWaker]
  split
  · exact hf
  · split
    · exact anytime_unpark now w.task w.axis f hf
    · exact hf

/-! ## Cancellation -/

/-- Those who were freed by two releases of a task, in whichever order. -/
theorem freedBy_freedBy (f : Floor V) (t : TaskId) (r s : Released) :
    freedBy { f with freed := f.freedBy t r } t s =
      freedBy { f with freed := f.freedBy t s } t r := by
  cases r <;> cases s <;> rfl

/-- Both axes are released before anybody is woken. -/
theorem Reached.wakeBothReleased {s : Released} (now : Nanos)
    (h : Reached { f with
      engine := e
      freed := freedBy { f with freed := f.freedBy t r } t s }) :
    Reached { f with engine := (e.wakeReleased now t r).wakeReleased now t s } := by
  rw [freedBy_freedBy] at h
  exact (Reached.wakeReleased (f := { f with freed := f.freedBy t s }) now h).wakeReleased now

theorem anytime_cancelTask (now : Nanos) (t : TaskId) (generation : Nat) :
    Anytime (V := V) fun e => (e.cancelTask now t generation).1 := by
  intro f hf
  dsimp only [Engine.cancelTask]
  split
  · exact hf
  · next x hx =>
      unfold Task.cancel
      split
      · exact hf
      · next y internal user hy =>
          split at hy
          · let x' : Task := { x with cancelled := true }
            have hmark := hf.step (.other (Engine.frame_put (y := x') hx rfl rfl))
            have hinternal := hmark.step (.release (x := x') .internal (by
              rw [Engine.task?_updateTask_self, hx, Option.map_some]))
            have huser := hinternal.step (.release (x := (x'.release .internal).1) .user (by
              rw [Engine.task?_updateTask_self, Engine.task?_updateTask_self, hx, Option.map_some,
                Option.map_some]))
            rw [Engine.updateTask_updateTask, Engine.updateTask_updateTask] at huser
            cases hy
            exact huser.wakeBothReleased now
          · cases hy

theorem anytime_cancel (now : Nanos) (t : TaskId) :
    Anytime (V := V) fun e => (e.cancel now t).1 := by
  intro f hf
  dsimp only [Engine.cancel]
  split
  · exact hf
  · next x hx =>
      split
      · exact anytime_cancelTask now t x.generation f hf
      · exact hf

theorem anytime_cancelJob (now : Nanos) (j : JobId) : Anytime (V := V) (·.cancelJob now j) := by
  intro f hf
  dsimp only [Engine.cancelJob]
  split
  · exact hf
  · next cell _ =>
      have hjob := hf.step (.other (Engine.frame_updateJob f.engine j fun _ => cell.requestCancel.1))
      split
      · exact hjob
      · next b _ => exact anytime_cancelTask now b.task b.generation _ hjob

theorem anytime_cancelMembers (now : Nanos) (l : List Member) :
    Anytime (V := V) fun e =>
      l.foldl (fun e m => (e.cancelTask now m.task m.generation).1) e :=
  .foldl (fun m => anytime_cancelTask now m.task m.generation) l

/-! ## Results -/

theorem anytime_publish (now : Nanos) (j : JobId) (r : Join V × List Waker) :
    Anytime (V := V) (·.publish now j r) :=
  (anytime_of_frame fun e => Engine.frame_updateJob e j fun _ => r.1).comp
    (.foldl (anytime_useWaker now) r.2)

theorem anytime_finishJob (now : Nanos) (j : JobId) (outcome : Except Unwind V) :
    Anytime (·.finishJob now j outcome) := by
  intro f hf
  dsimp only [Engine.finishJob]
  split
  · exact hf
  · exact anytime_publish now j _ f hf

theorem anytime_abandonJob (now : Nanos) (j : JobId) :
    Anytime (V := V) (·.abandonJob now j) := by
  intro f hf
  dsimp only [Engine.abandonJob]
  split
  · exact hf
  · exact anytime_publish now j _ f hf

/-! ## Signals -/

theorem anytime_deliver (now : Nanos) (event : ReadyEvent) :
    Anytime (V := V) (·.deliver now event) := by
  intro f hf
  dsimp only [Engine.deliver]
  split
  · exact hf
  · split
    · have hready := hf.step (.other (Engine.frame_updateTask (t := event.task)
        (f := (·.addReady event.ready.mask.toUInt8)) (fun _ => rfl) fun _ => rfl))
      exact anytime_unpark now event.task .internal _ hready
    · exact hf

theorem anytime_pollEvents (now : Nanos) : Anytime (V := V) (·.pollEvents now) := by
  intro f hf
  have hpump := hf.step (.other (e := { f.engine with pump := f.engine.pump.poll.1 })
    (Engine.frame_of_eq rfl rfl rfl rfl rfl (fun _ h => .inl h) rfl))
  exact Anytime.foldl (anytime_deliver now) f.engine.pump.poll.2 _ hpump

/-! ## Drains -/

theorem anytime_releaseWaiting (now : Nanos) (t : TaskId) (a : Axis) :
    Anytime (V := V) (·.releaseWaiting now t a) := by
  intro f hf
  dsimp only [Engine.releaseWaiting]
  split
  · split
    · exact anytime_unpark now t a f hf
    · exact hf
  · exact hf

theorem anytime_drainRound (now : Nanos) (me : TaskId) :
    Anytime (V := V) (·.drainRound now me) := by
  intro f hf
  have hrelease : ∀ t, Anytime (V := V) fun e =>
      (e.releaseWaiting now t .internal).releaseWaiting now t .user := by
    intro t
    exact (anytime_releaseWaiting now t .internal).comp (anytime_releaseWaiting now t .user)
  exact Anytime.foldl hrelease (f.engine.live.filter (· != me)) f hf

/-! ## Timers -/

/-- A timeout in somebody's hand fires, and its task is woken at once. -/
theorem Reached.fire_of_mem {r : TimeoutRef} {y : Timeout} (h : Reached f) (hdue : r ∈ f.due)
    (hy : f.engine.timeout? r = some y) (hvalid : y.cancelled = false) (now : Nanos) :
    Reached { f with engine := f.engine.fire now r, due := f.due.erase r } := by
  have hfire := h.step (.fire hdue hy hvalid)
  rw [Engine.fire_eq hy hvalid]
  cases haction : y.action with
  | resume =>
      simp only [haction, if_true] at hfire
      exact hfire.wakeFreed (f := { f with due := f.due.erase r }) now
  | wakeCooperative a =>
      simp only [haction, reduceCtorEq, if_false] at hfire
      exact anytime_wakeWaiting now y.task a _ hfire
  | wakeNative a =>
      simp only [haction, reduceCtorEq, if_false] at hfire
      exact anytime_wakeWaiting now y.task a _ hfire

/-- Somebody fires the first of the timeouts that he has taken out. -/
theorem Reached.fire (now : Nanos) {r : TimeoutRef} {due : List TimeoutRef}
    (h : Reached { f with due := r :: due }) :
    Reached { f with engine := f.engine.fire now r, due } := by
  have hdrop : (r :: due).erase r = due := List.erase_cons_head _ _
  obtain ⟨y, hy, -⟩ := h.sound.timing.due r List.mem_cons_self
  by_cases hc : y.cancelled = true
  · have hlapse := h.step (.lapse List.mem_cons_self hy hc)
    rw [hdrop] at hlapse
    rw [Engine.fire_of_cancelled hy hc]
    exact hlapse
  · have hfire := h.fire_of_mem List.mem_cons_self hy (Bool.eq_false_iff.mpr hc) now
    rw [hdrop] at hfire
    exact hfire

theorem Reached.fireAll (now : Nanos) (owner : Nat) (l : List Nat)
    (h : Reached { f with engine := e, due := (l.map fun k => { owner, number := k }) ++ f.due }) :
    Reached { f with engine := l.foldl (fun e k => e.fire now { owner, number := k }) e } := by
  induction l generalizing e with
  | nil => exact h
  | cons k l ih =>
      apply ih
      exact h.fire (f := { f with engine := e }) now

theorem anytime_pollTimers (now : Nanos) (owner : Nat) :
    Anytime (V := V) (·.pollTimers now owner) := by
  intro f hf
  dsimp only [Engine.pollTimers]
  split
  · exact hf
  · next q hq => exact (hf.step (.poll now hq)).fireAll now owner (q.poll now).2

/-! ## The end of carriers -/

end Floor

namespace Engine

variable {V : Type} {e : Engine V} {c : Nat} {P : Engine V → Prop}

theorem discardOwn_induct {x : Carrier} {l : List TaskId} (h : P e)
    (scrap : ∀ e e' t, P e → e.Popped t e' → P (e'.updateTask t Task.discard))
    (hx : e.carriers[c]? = some x) (hl : x.pool.items = l) :
    P ((e.discardAll l).updateCarrier c ({ · with pool := x.pool.drain.1 })) := by
  induction l generalizing e x with
  | nil =>
      have hsame : e.updateCarrier c ({ · with pool := x.pool.drain.1 }) = e :=
        updateCarrier_eq_self hx (by rw [Pool.drain, ← hl])
      have hnone : e.discardAll [] = e := rfl
      rw [hnone, hsame]
      exact h
  | cons t l ih =>
      have hpop : e.popPooled? c =
          some (t, e.updateCarrier c ({ · with pool := { x.pool with items := l } })) := by
        simp only [popPooled?, hx, Option.bind_some, Pool.pop?, hl]
      have hscrap := scrap e _ t h (.own hpop)
      have hx' : (e.updateCarrier c
          ({ · with pool := { x.pool with items := l } })).carriers[c]? =
          some { x with pool := { x.pool with items := l } } := by
        rw [getElem?_updateCarrier, if_pos rfl, hx, Option.map_some]
      have hall := ih hscrap hx' rfl
      have hengine : ((e.updateCarrier c
          ({ · with pool := { x.pool with items := l } })).updateTask t Task.discard).discardAll l =
          (e.discardAll (t :: l)).updateCarrier c
            ({ · with pool := { x.pool with items := l } }) :=
        discardAll_updateCarrier (e.updateTask t Task.discard) c
          ({ · with pool := { x.pool with items := l } }) l
      rw [hengine, updateCarrier_updateCarrier] at hall
      exact hall

theorem discardShared_induct {l : List TaskId} (h : P e)
    (scrap : ∀ e e' t, P e → e.Popped t e' → P (e'.updateTask t Task.discard))
    (hl : e.pool.items = l) : P { e.discardAll l with pool := e.pool.drain.1 } := by
  induction l generalizing e with
  | nil =>
      have hsame : e.pool.drain.1 = e.pool := by
        rw [Pool.drain, ← hl]
      rw [hsame]
      exact h
  | cons t l ih =>
      have hpop : e.pool.pop? = some (t, { e.pool with items := l }) := by
        simp only [Pool.pop?, hl]
      have hall := ih (scrap e _ t h (.shared hpop)) rfl
      have hengine : ({ e with pool := { e.pool with items := l } }.updateTask t
          Task.discard).discardAll l =
          { e.discardAll (t :: l) with pool := { e.pool with items := l } } :=
        discardAll_pool (e.updateTask t Task.discard) _ l
      rw [hengine] at hall
      exact hall

/-- A carrier that ends destroys pooled tasks one by one. -/
theorem endCarrier_induct (h : P e)
    (scrap : ∀ e e' t, P e → e.Popped t e' → P (e'.updateTask t Task.discard))
    (terminate : ∀ e, P e → P (e.updateCarrier c ({ · with state := .terminated })))
    (running : ∀ e n, P e → P { e with running := n }) : P (e.endCarrier c) := by
  unfold endCarrier
  split
  · exact h
  · next x hx =>
      have hended := terminate _ (discardOwn_induct h scrap hx rfl)
      rw [updateCarrier_updateCarrier] at hended
      dsimp only
      split
      · exact discardShared_induct (running _ _ hended) scrap rfl
      · exact running _ _ hended

end Engine

namespace Floor

theorem anytime_endCarrier {V : Type} (c : Nat) : Anytime (V := V) (·.endCarrier c) := by
  intro f hf
  refine Engine.endCarrier_induct (P := fun e => Reached { f with engine := e }) hf ?_ ?_ ?_
  · intro e e' t he hpop
    exact he.step (.scrap hpop)
  · intro e he
    exact he.step (.other (Engine.frame_updateCarrier (fun _ => rfl) fun _ => rfl))
  · intro e n he
    exact he.step (.other (Engine.frame_running e n))

end Floor

end GreenThreads

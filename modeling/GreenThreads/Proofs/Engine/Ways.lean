import GreenThreads.Engine.Dispatch
import GreenThreads.Proofs.Engine.Tasks
import GreenThreads.Proofs.Timer.Armed
import GreenThreads.Proofs.Total

/-!
# Ways to go on

A task that has given its carrier away goes on through one of a few places of the engine: an entry
of a run queue, the slot for a yielded task, an armed timeout that resumes it, or an axis on which
it waits. Here these places are counted, and each access of the engine is described by what it does
to the counts.
-/

namespace GreenThreads

/-- The task that an entry lets go on. -/
def Runnable.task? : Runnable → Option TaskId
  | .start _ => none
  | .resume t => some t

/-- One if it is this task, else zero. -/
def tally (o : Option TaskId) (t : TaskId) : Nat := (decide (o = some t)).toNat

@[simp] theorem tally_none (t : TaskId) : tally none t = 0 := rfl

@[simp] theorem tally_self (t : TaskId) : tally (some t) t = 1 := by
  simp only [tally, decide_true, Bool.toNat_true]

theorem tally_of_ne {t u : TaskId} (h : u ≠ t) : tally (some t) u = 0 := by
  simp only [tally, Option.some.injEq, Ne.symm h, decide_false, Bool.toNat_false]

theorem count_resume_cons (r : Runnable) (l : List Runnable) (t : TaskId) :
    (r :: l).count (.resume t) = l.count (.resume t) + tally r.task? t := by
  cases r with
  | start s => simp [Runnable.task?]
  | resume u =>
      by_cases h : t = u
      · subst h; simp [Runnable.task?]
      · simp [Runnable.task?, tally_of_ne h, List.count_cons_of_ne, Ne.symm h]

theorem count_resume_concat (r : Runnable) (l : List Runnable) (t : TaskId) :
    (l ++ [r]).count (.resume t) = l.count (.resume t) + tally r.task? t := by
  rw [List.count_append, count_resume_cons, List.count_nil, Nat.zero_add]

theorem count_task_cons (t : TaskId) (l : List TaskId) (u : TaskId) :
    (t :: l).count u = l.count u + tally (some t) u := by
  by_cases h : u = t
  · subst h; simp
  · rw [tally_of_ne h, List.count_cons_of_ne (Ne.symm h), Nat.add_zero]

theorem count_task_concat (t : TaskId) (l : List TaskId) (u : TaskId) :
    (l ++ [t]).count u = l.count u + tally (some t) u := by
  rw [List.count_append, count_task_cons, List.count_nil, Nat.zero_add]

theorem count_task_erase {t : TaskId} {l : List TaskId} (h : t ∈ l) (u : TaskId) :
    (l.erase t).count u + tally (some t) u = l.count u := by
  by_cases hu : u = t
  · subst hu
    have hpos : 0 < l.count u := List.count_pos_iff.mpr h
    rw [List.count_erase_self, tally_self]
    omega
  · rw [tally_of_ne hu, List.count_erase_of_ne hu, Nat.add_zero]

namespace Engine

variable {V : Type} {e e' : Engine V} {t u : TaskId} {c owner : Nat} {f : Task → Task}
  {g : Carrier → Carrier} {p : Task → Bool} {x : Task}

/-- One if the task exists and has a property, else zero. -/
def flag (e : Engine V) (t : TaskId) (p : Task → Bool) : Nat := ((e.task? t).any p).toNat

/-- How many entries of run queues name a task. -/
def queued (e : Engine V) (t : TaskId) : Nat :=
  total (fun c => c.queue.count (.resume t)) e.carriers + e.shared.count (.resume t)

/-- On how many carriers a task is to be woken once the running one has switched out. -/
def deferrals (e : Engine V) (t : TaskId) : Nat :=
  total (fun c => tally c.deferred t) e.carriers

/-- How many pending timeouts will resume a task. -/
def armed (e : Engine V) (t : TaskId) : Nat :=
  e.precise.armed t + total (fun c => c.timers.armed t) e.carriers

/-- On how many axes a task waits without a carrier. -/
def waiting (e : Engine V) (t : TaskId) : Nat :=
  e.flag t (·.user == .waiting) + e.flag t (·.internal == .waiting)

/-- On how many carriers a task is current. -/
def seated (e : Engine V) (t : TaskId) : Nat :=
  total (fun c => tally c.current t) e.carriers

/-- How many places of pools hold a task. -/
def pooled (e : Engine V) (t : TaskId) : Nat :=
  total (fun c => c.pool.items.count t) e.carriers + e.pool.items.count t

/-- The timeout that a reference names, without its position. -/
def timeout? (e : Engine V) (r : TimeoutRef) : Option Timeout :=
  (e.timersOf r.owner).bind fun q => q.bare[r.number]?

/-- Whether a timeout will resume a task. -/
def resumes (e : Engine V) (t : TaskId) (r : TimeoutRef) : Bool :=
  (e.timersOf r.owner).any fun q => q.resumes t r.number

/-! ## Properties of one task -/

theorem flag_of_task? (h : e.task? t = some x) (p : Task → Bool) : e.flag t p = (p x).toNat := by
  simp only [flag, h, Option.any_some]

theorem flag_eq_one (h : e.task? t = some x) (hp : p x = true) : e.flag t p = 1 := by
  rw [flag_of_task? h, hp, Bool.toNat_true]

theorem flag_eq_zero (h : e.task? t = some x) (hp : p x = false) : e.flag t p = 0 := by
  rw [flag_of_task? h, hp, Bool.toNat_false]

theorem flag_le_one (e : Engine V) (t : TaskId) (p : Task → Bool) : e.flag t p ≤ 1 :=
  Bool.toNat_le _

theorem exists_of_flag_pos (h : 0 < e.flag t p) : ∃ x, e.task? t = some x ∧ p x = true := by
  cases ht : e.task? t with
  | none =>
      simp only [flag, ht, Option.any_none, Bool.toNat_false] at h
      omega
  | some x =>
      rw [flag_of_task? ht] at h
      cases hp : p x with
      | true => exact ⟨x, rfl, hp⟩
      | false => rw [hp, Bool.toNat_false] at h; omega

theorem flag_updateTask (e : Engine V) (t u : TaskId) (f : Task → Task) (p : Task → Bool) :
    (e.updateTask t f).flag u p = if u = t then e.flag u (fun x => p (f x)) else e.flag u p := by
  simp only [flag, task?_updateTask]
  split
  · cases e.task? u <;> rfl
  · rfl

theorem flag_updateTask_of_eq (h : ∀ x, p (f x) = p x) :
    (e.updateTask t f).flag u p = e.flag u p := by
  rw [flag_updateTask]
  split
  · simp only [h]
  · rfl

theorem waiting_updateTask_of_eq (hu : ∀ x, (f x).user = x.user)
    (hi : ∀ x, (f x).internal = x.internal) :
    (e.updateTask t f).waiting u = e.waiting u := by
  unfold waiting
  rw [flag_updateTask_of_eq (fun x => by rw [hu]), flag_updateTask_of_eq (fun x => by rw [hi])]

theorem waiting_of_task? (h : e.task? t = some x) :
    e.waiting t = (x.user == .waiting).toNat + (x.internal == .waiting).toNat := by
  rw [waiting, flag_of_task? h, flag_of_task? h]

theorem flag_updateTask_self (h : e.task? t = some x) (f : Task → Task) (p : Task → Bool) :
    (e.updateTask t f).flag t p = (p (f x)).toNat := by
  rw [flag_updateTask, if_pos rfl, flag_of_task? h]

theorem flag_updateTask_of_ne (h : u ≠ t) (f : Task → Task) (p : Task → Bool) :
    (e.updateTask t f).flag u p = e.flag u p := by
  rw [flag_updateTask, if_neg h]

@[simp] theorem queued_updateTask : (e.updateTask t f).queued u = e.queued u := rfl

@[simp] theorem deferrals_updateTask : (e.updateTask t f).deferrals u = e.deferrals u := rfl

@[simp] theorem seated_updateTask : (e.updateTask t f).seated u = e.seated u := rfl

@[simp] theorem pooled_updateTask : (e.updateTask t f).pooled u = e.pooled u := rfl

/-- The task that waits, if its parker says so. -/
def waiter (p : Parker) (t : TaskId) : Option TaskId := if p = .waiting then some t else none

theorem waiting_setParker (h : e.task? t = some x) (a : Axis) (p : Task → Parker) (u : TaskId) :
    (e.updateTask t fun y => y.setParker a (p y)).waiting u + tally (waiter (x.parker a) t) u =
      e.waiting u + tally (waiter (p x) t) u := by
  have hwaiter : ∀ q : Parker, tally (waiter q t) t = (q == .waiting).toNat := by
    intro q
    cases q with
    | waiting => exact tally_self t
    | _ => rfl
  by_cases hu : u = t
  · subst hu
    rw [hwaiter, hwaiter, waiting_of_task? h, waiting, flag_updateTask_self h,
      flag_updateTask_self h]
    cases a with
    | user =>
        simp only [Task.setParker, Task.parker]
        omega
    | internal =>
        simp only [Task.setParker, Task.parker]
        omega
  · have hnone : ∀ q : Parker, tally (waiter q t) u = 0 := by
      intro q
      cases q with
      | waiting => exact tally_of_ne hu
      | _ => rfl
    rw [hnone, hnone, waiting, flag_updateTask_of_ne hu, flag_updateTask_of_ne hu, ← waiting]

/-! ## Changes of carriers -/

theorem queued_updateCarrier (h : ∀ x, (g x).queue.count (.resume t) = x.queue.count (.resume t)) :
    (e.updateCarrier c g).queued t = e.queued t := by
  unfold queued updateCarrier
  rw [total_modify_of_eq g fun x _ => h x]

theorem deferrals_updateCarrier (h : ∀ x, (g x).deferred = x.deferred) :
    (e.updateCarrier c g).deferrals t = e.deferrals t :=
  total_modify_of_eq g fun x _ => by rw [h]

theorem armed_updateCarrier (h : ∀ x, (g x).timers.armed t = x.timers.armed t) :
    (e.updateCarrier c g).armed t = e.armed t := by
  unfold armed updateCarrier
  rw [total_modify_of_eq g fun x _ => h x]

theorem seated_updateCarrier (h : ∀ x, (g x).current = x.current) :
    (e.updateCarrier c g).seated t = e.seated t :=
  total_modify_of_eq g fun x _ => by rw [h]

theorem pooled_updateCarrier (h : ∀ x, (g x).pool = x.pool) :
    (e.updateCarrier c g).pooled t = e.pooled t := by
  unfold pooled updateCarrier
  rw [total_modify_of_eq g fun x _ => by rw [h]]

theorem getElem?_updateCarrier (e : Engine V) (c d : Nat) (g : Carrier → Carrier) :
    (e.updateCarrier c g).carriers[d]? =
      if c = d then e.carriers[d]?.map g else e.carriers[d]? := Array.getElem?_modify

theorem updateCarrier_congr {g' : Carrier → Carrier} {y : Carrier} (h : e.carriers[c]? = some y)
    (hg : g y = g' y) : e.updateCarrier c g = e.updateCarrier c g' := by
  simp only [updateCarrier, modify_congr h hg]

theorem updateCarrier_eq_self {y : Carrier} (h : e.carriers[c]? = some y) (hg : g y = y) :
    e.updateCarrier c g = e := by
  simp only [updateCarrier, modify_eq_self h hg]

theorem updateCarrier_updateCarrier (e : Engine V) (c : Nat) (g g' : Carrier → Carrier) :
    (e.updateCarrier c g).updateCarrier c g' = e.updateCarrier c fun x => g' (g x) := by
  simp only [updateCarrier, modify_modify]

theorem updateTask_congr {f' : Task → Task} (h : e.task? t = some x) (hf : f x = f' x) :
    e.updateTask t f = e.updateTask t f' := by
  simp only [updateTask, modify_congr h hf]

theorem updateTask_updateTask (e : Engine V) (t : TaskId) (f f' : Task → Task) :
    (e.updateTask t f).updateTask t f' = e.updateTask t fun x => f' (f x) := by
  simp only [updateTask, modify_modify]

section

variable {y : Carrier}

theorem queued_updateCarrier_add (h : e.carriers[c]? = some y) (g : Carrier → Carrier)
    (t : TaskId) : (e.updateCarrier c g).queued t + y.queue.count (.resume t) =
      e.queued t + (g y).queue.count (.resume t) := by
  have hmod := total_modify (f := fun c : Carrier => c.queue.count (.resume t)) g h
  simp only [queued, updateCarrier] at hmod ⊢
  omega

theorem deferrals_updateCarrier_add (h : e.carriers[c]? = some y) (g : Carrier → Carrier)
    (t : TaskId) : (e.updateCarrier c g).deferrals t + tally y.deferred t =
      e.deferrals t + tally (g y).deferred t :=
  total_modify (f := fun c : Carrier => tally c.deferred t) g h

theorem seated_updateCarrier_add (h : e.carriers[c]? = some y) (g : Carrier → Carrier)
    (t : TaskId) : (e.updateCarrier c g).seated t + tally y.current t =
      e.seated t + tally (g y).current t :=
  total_modify (f := fun c : Carrier => tally c.current t) g h

theorem pooled_updateCarrier_add (h : e.carriers[c]? = some y) (g : Carrier → Carrier)
    (t : TaskId) : (e.updateCarrier c g).pooled t + y.pool.items.count t =
      e.pooled t + (g y).pool.items.count t := by
  have hmod := total_modify (f := fun c : Carrier => c.pool.items.count t) g h
  simp only [pooled, updateCarrier] at hmod ⊢
  omega

end

/-! ## Changes of timers -/

theorem timersOf_precise (e : Engine V) : e.timersOf preciseOwner = some e.precise := if_pos rfl

theorem timersOf_carrier (hc : c ≠ preciseOwner) :
    e.timersOf c = e.carriers[c]?.map (·.timers) := if_neg hc

theorem timersOf_updateCarrier (h : ∀ x, (g x).timers = x.timers) (owner : Nat) :
    (e.updateCarrier c g).timersOf owner = e.timersOf owner := by
  unfold timersOf
  split
  · rfl
  · rw [getElem?_updateCarrier]
    split
    · cases e.carriers[owner]? with
      | none => rfl
      | some y => simp only [Option.map_some, h]
    · rfl

theorem timersOf_updateTimers (e : Engine V) (owner o : Nat) (f : TimerQueue → TimerQueue) :
    (e.updateTimers owner f).timersOf o =
      if o = owner then (e.timersOf o).map f else e.timersOf o := by
  unfold updateTimers
  by_cases howner : owner = preciseOwner
  · subst howner
    simp only [↓reduceIte, timersOf]
    split <;> rfl
  · simp only [howner, ↓reduceIte, timersOf, getElem?_updateCarrier]
    by_cases ho : o = owner
    · subst ho
      simp only [howner, ↓reduceIte]
      cases e.carriers[o]? <;> rfl
    · simp only [ho, Ne.symm ho, ↓reduceIte]
      rfl

@[simp] theorem tasks_updateTimers (e : Engine V) (owner : Nat) (f : TimerQueue → TimerQueue) :
    (e.updateTimers owner f).tasks = e.tasks := by
  unfold updateTimers; split <;> rfl

theorem armed_updateTimers {q : TimerQueue} (h : e.timersOf owner = some q)
    (f : TimerQueue → TimerQueue) (t : TaskId) :
    (e.updateTimers owner f).armed t + q.armed t = e.armed t + (f q).armed t := by
  unfold updateTimers
  by_cases howner : owner = preciseOwner
  · subst howner
    rw [timersOf_precise] at h
    cases h
    simp only [↓reduceIte, armed]
    omega
  · rw [timersOf_carrier howner] at h
    obtain ⟨carrier, hcarrier, rfl⟩ := Option.map_eq_some_iff.mp h
    have hmod := total_modify (f := fun c : Carrier => c.timers.armed t)
      (fun c : Carrier => { c with timers := f c.timers }) hcarrier
    simp only [howner, ↓reduceIte, armed, updateCarrier] at hmod ⊢
    omega

end Engine

end GreenThreads

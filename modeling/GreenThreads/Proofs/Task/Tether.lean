import GreenThreads.Proofs.Engine.Records
import GreenThreads.Proofs.Task.Incarnation

/-!
# Cancelling a task that parks

Whoever cancels a task looks whether it is still in the right incarnation, marks it, and releases
one axis after the other. The task parks on either axis again and again: it looks at the mark,
begins the park, may arm a timeout, waits, ends the park, disarms, and looks at the mark again.
Between any two of these steps all others can do theirs, axes can be released for other reasons, and
timeouts can fire.

What saves the task is the order: the mark comes before the releases, and each park that finds a
permit or is over is followed by a look at the mark.
-/

namespace GreenThreads

/-- What a task is doing. A park blocks its carrier or gives it away, and may be bounded. -/
inductive Course where
  /-- It has no work. -/
  | idle
  | running
  /-- It has looked at the mark and is about to begin a park. -/
  | checked (a : Axis) (native timed : Bool)
  /-- The park has begun, and the task is about to wait. -/
  | begun (a : Axis) (native timed : Bool)
  /-- It waits; a timeout may be armed. -/
  | parked (a : Axis) (native armed : Bool)
  /-- It goes on and is about to end the park. -/
  | resumed (a : Axis) (native armed : Bool)
  /-- The park is over, and the timeout is to be disarmed. -/
  | closing
  /-- It is about to look at the mark. -/
  | passing
  /-- It lets others go first. -/
  | yielding
deriving DecidableEq, Repr

namespace Course

/-- The axis of the park that has begun and is not over. -/
def axis? : Course → Option Axis
  | begun a _ _ | parked a _ _ | resumed a _ _ => some a
  | idle | running | checked _ _ _ | closing | passing | yielding => none

/-- Nothing on the axis keeps the task from looking at the mark. -/
def Clear (a : Axis) (p : Parker) : Course → Prop
  | checked b _ _ => b = a → p = .permitted
  | begun b _ _ | parked b _ _ => b = a → p.isWaiting = false
  | idle | running | resumed _ _ _ | closing | passing | yielding => True

theorem Clear.release {c : Course} {a : Axis} {p : Parker} (h : c.Clear a p) :
    c.Clear a p.release.1 := by
  cases c with
  | checked => exact fun hb => by rw [h hb]; rfl
  | begun | parked => exact fun _ => by cases p <;> rfl
  | _ => trivial

theorem Clear.free {c : Course} {a : Axis} {p : Parker} (h : c.Clear a p) :
    c.Clear a p.wakeWaiting.1 := by
  cases c with
  | checked => exact fun hb => by rw [h hb]; rfl
  | begun | parked => exact fun _ => by cases p <;> rfl
  | _ => trivial

end Course

/-- How far the cancellation of a task is. -/
inductive SummonsStage where
  /-- It is about to look whether the task is in the right incarnation. -/
  | checking
  /-- It is, and the mark is to be set. -/
  | striking
  /-- The mark is set, and these axes are to be released. -/
  | releasing (axes : List Axis)
  | returned
  /-- The task was in another incarnation. -/
  | refused
deriving DecidableEq, Repr

/-- A cancellation of one incarnation of a task. -/
structure Summons where
  generation : Nat
  stage : SummonsStage
deriving DecidableEq, Repr

/-- A task with those who cancel it. -/
structure Tether where
  task : Task
  course : Course := .idle
  calls : List Summons := []
  /-- The incarnations that were unwound by a cancellation, last first. -/
  raised : List Nat := []

namespace Tether

variable {s s' : Tether} {x y : Task} {c d : Course} {k : Summons} {n : SummonsStage} {a b : Axis}
  {g : Nat} {axes : List Axis}

/-- A cancellation gets on. -/
def advance (s : Tether) (k : Summons) (n : SummonsStage) : Tether :=
  { s with calls := { k with stage := n } :: s.calls.erase k }

/-- `y` is `x` apart from what parks and cancellations look at. -/
structure Apart (x y : Task) : Prop where
  parker : ∀ a, y.parker a = x.parker a
  cancelled : y.cancelled = x.cancelled
  delivered : y.delivered = x.delivered
  generation : y.generation = x.generation
  status : y.status = x.status

/-- What can happen at once. -/
inductive Step : Tether → Tether → Prop
  -- The task
  | give {s : Tether} {y : Task} (name : String) (carrier : Nat) (at_ : s.course = .idle)
      (given : s.task.reset name carrier = (y, none)) :
      Step s { s with task := y, course := .running }
  | check {s : Tether} {y : Task} (a : Axis) (native timed : Bool) (at_ : s.course = .running)
      (passed : s.task.checkpoint = (y, none)) :
      Step s { s with task := y, course := .checked a native timed }
  | pass {s : Tether} {y : Task} (at_ : s.course = .passing)
      (passed : s.task.checkpoint = (y, none)) : Step s { s with task := y, course := .running }
  /-- The work is unwound; it can catch that and go on. -/
  | unwind {s : Tether} {y : Task} {u : Unwind} (at_ : s.course = .running ∨ s.course = .passing)
      (caught : s.task.checkpoint = (y, some u)) :
      Step s { s with
        task := y
        course := .running
        raised := if u = .cancelled then s.task.generation :: s.raised else s.raised }
  /-- The park is too short. -/
  | skip {s : Tether} {a : Axis} {native : Bool} (at_ : s.course = .checked a native true) :
      Step s { s with course := .running }
  | begin {s : Tether} {a : Axis} {native timed blocks : Bool} {p : Parker}
      (at_ : s.course = .checked a native timed)
      (allowed : (s.task.parker a).begin native = .ok (p, blocks)) :
      Step s { s with
        task := s.task.setParker a p
        course := if blocks then .begun a native timed else .passing }
  | arm {s : Tether} {a : Axis} {native : Bool} (r : TimeoutRef)
      (at_ : s.course = .begun a native true) :
      Step s { s with task := { s.task with timeout := some r }, course := .parked a native true }
  /-- The park is not bounded, or the thread of the carrier looks at the time by itself. -/
  | leave {s : Tether} {a : Axis} {native timed : Bool} (at_ : s.course = .begun a native timed)
      (plain : timed = false ∨ native = true) :
      Step s { s with course := .parked a native false }
  /-- The task was woken, its time is over, or it goes on for another reason. -/
  | resume {s : Tether} {a : Axis} {native armed : Bool} (at_ : s.course = .parked a native armed) :
      Step s { s with course := .resumed a native armed }
  /-- A task that blocked its carrier disarms first. -/
  | disarm {s : Tether} {a : Axis} (at_ : s.course = .resumed a true true) :
      Step s { s with task := s.task.takeTimeout.1, course := .resumed a true false }
  | end_ {s : Tether} {a : Axis} {native armed : Bool} (at_ : s.course = .resumed a native armed)
      (order : native = false ∨ armed = false) :
      Step s { s with
        task := s.task.setParker a (s.task.parker a).finish
        course := if armed then .closing else .passing }
  | close {s : Tether} (at_ : s.course = .closing) :
      Step s { s with task := s.task.takeTimeout.1, course := .passing }
  | yield {s : Tether} {y : Task} (at_ : s.course = .running)
      (passed : s.task.checkpoint = (y, none)) : Step s { s with task := y, course := .yielding }
  | return_ {s : Tether} (at_ : s.course = .yielding) : Step s { s with course := .passing }
  | exit {s : Tether} (now : Nanos) (kept : Bool) (at_ : s.course = .running) :
      Step s { s with task := s.task.exited now kept, course := .idle }
  -- A cancellation
  | summon {s : Tether} (g : Nat) : Step s { s with calls := ⟨g, .checking⟩ :: s.calls }
  | agree {s : Tether} {k : Summons} (on : k ∈ s.calls) (stage : k.stage = .checking)
      (same : s.task.carries k.generation = true) : Step s (s.advance k .striking)
  | refuse {s : Tether} {k : Summons} (on : k ∈ s.calls) (stage : k.stage = .checking)
      (other : s.task.carries k.generation = false) : Step s (s.advance k .refused)
  | strike {s : Tether} {k : Summons} (on : k ∈ s.calls) (stage : k.stage = .striking) :
      Step s { s.advance k (.releasing [.internal, .user]) with
        task := { s.task with cancelled := true } }
  | release {s : Tether} {k : Summons} {a : Axis} {axes : List Axis} (on : k ∈ s.calls)
      (stage : k.stage = .releasing (a :: axes)) :
      Step s { s.advance k (.releasing axes) with task := (s.task.release a).1 }
  | answer {s : Tether} {k : Summons} (on : k ∈ s.calls) (stage : k.stage = .releasing []) :
      Step s (s.advance k .returned)
  -- Others
  | unpark {s : Tether} (a : Axis) : Step s { s with task := (s.task.release a).1 }
  /-- A timeout is due. -/
  | free {s : Tether} (a : Axis) :
      Step s { s with task := s.task.setParker a (s.task.parker a).wakeWaiting.1 }
  | aside {s : Tether} {y : Task} (h : Apart s.task y) : Step s { s with task := y }
  /-- The context of the task is thrown away. -/
  | discard {s : Tether} : Step s { s with task := s.task.discard }

/-- What can be reached from a task that has never had work. -/
inductive Reached : Tether → Prop
  | start (id : TaskId) : Reached { task := Task.fresh id }
  | step {s s' : Tether} (h : Reached s) (hs : Step s s') : Reached s'

/-! ## What holds between any two steps -/

/-- As long as the task has the work of the incarnation and was not unwound, it is marked, and
nothing on the axes that were released keeps it from looking at the mark. -/
def Bound (x : Task) (c : Course) (g : Nat) (axes : List Axis) : Prop :=
  g ≤ x.generation ∧ (x.carries g = true → x.delivered = false →
    x.cancelled = true ∧ ∀ a ∉ axes, c.Clear a (x.parker a))

/-- What a cancellation relies on as far as it is. -/
def Holds (x : Task) (c : Course) (k : Summons) : Prop :=
  match k.stage with
  | .checking | .refused => True
  | .striking => k.generation ≤ x.generation
  | .releasing axes => Bound x c k.generation axes
  | .returned => Bound x c k.generation []

structure Sound (s : Tether) : Prop where
  /-- The task waits on no axis but that of its park. -/
  waits : ∀ a, (s.task.parker a).isWaiting = true → s.course.axis? = some a
  calls : ∀ k ∈ s.calls, Holds s.task s.course k
  fresh : ∀ g ∈ s.raised, g ≤ s.task.generation ∧ (g = s.task.generation → s.task.delivered = true)
  once : s.raised.Nodup

/-- `y` has the work that `x` has, or has been unwound or has none; and if it has, it is marked if
`x` is, and clear where `x` is. -/
structure Keeps (x : Task) (c : Course) (y : Task) (d : Course) : Prop where
  generation : x.generation ≤ y.generation
  carries : ∀ g ≤ x.generation, y.carries g = true → y.delivered = false →
    x.carries g = true ∧ x.delivered = false ∧ (x.cancelled = true →
      y.cancelled = true ∧ ∀ a, c.Clear a (x.parker a) → d.Clear a (y.parker a))

theorem Bound.keep (h : Bound x c g axes) (hk : Keeps x c y d) : Bound y d g axes := by
  refine ⟨Nat.le_trans h.1 hk.generation, fun hcarries hdelivered => ?_⟩
  obtain ⟨hcarried, hopen, hmark⟩ := hk.carries g h.1 hcarries hdelivered
  obtain ⟨hcancelled, hclear⟩ := h.2 hcarried hopen
  exact ⟨(hmark hcancelled).1, fun a ha => (hmark hcancelled).2 a (hclear a ha)⟩

theorem Holds.keep (h : Holds x c k) (hk : Keeps x c y d) : Holds y d k := by
  unfold Holds at h ⊢
  split at h
  · trivial
  · trivial
  · exact Nat.le_trans h hk.generation
  · exact Bound.keep h hk
  · exact Bound.keep h hk

theorem Apart.keeps (h : Apart x y) (hcd : ∀ a, c.Clear a (x.parker a) → d.Clear a (x.parker a)) :
    Keeps x c y d where
  generation := Nat.le_of_eq h.generation.symm
  carries := fun g _ hcarries hdelivered => by
    have hcarried : x.carries g = true := by
      rw [Task.carries, ← h.generation, ← h.status]
      exact hcarries
    refine ⟨hcarried, h.delivered ▸ hdelivered, fun hc => ⟨h.cancelled ▸ hc, fun a ha => ?_⟩⟩
    rw [h.parker]
    exact hcd a ha

theorem Apart.refl (x : Task) : Apart x x := ⟨fun _ => rfl, rfl, rfl, rfl, rfl⟩

/-- A release on which nobody waits leaves a permit, and any other one frees who waits. -/
theorem clear_release {p : Parker} (h : p.isWaiting = true → c.axis? = some a) :
    c.Clear a p.release.1 := by
  cases c with
  | checked =>
      intro _
      cases p with
      | free | permitted => rfl
      | waiting | waitingNative => cases h rfl
  | begun | parked => exact fun _ => by cases p <;> rfl
  | _ => trivial

theorem parker_setParker (x : Task) (a b : Axis) (p : Parker) :
    (x.setParker a p).parker b = if b = a then p else x.parker b := by
  split
  · next hb => rw [hb, Task.parker_setParker_self]
  · next hb => rw [Task.parker_setParker_of_ne hb]

theorem keeps_setParker (x : Task) (c : Course) {a : Axis} {p : Parker}
    (ha : c.Clear a (x.parker a) → d.Clear a p)
    (hb : ∀ b ≠ a, c.Clear b (x.parker b) → d.Clear b (x.parker b)) :
    Keeps x c (x.setParker a p) d where
  generation := Nat.le_of_eq (Task.generation_setParker p).symm
  carries := fun g _ hcarries hdelivered => by
    have hsame : (x.setParker a p).carries g = x.carries g ∧
        (x.setParker a p).delivered = x.delivered ∧ (x.setParker a p).cancelled = x.cancelled := by
      cases a <;> exact ⟨rfl, rfl, rfl⟩
    refine ⟨hsame.1 ▸ hcarries, hsame.2.1 ▸ hdelivered, fun hc => ⟨hsame.2.2 ▸ hc, fun b => ?_⟩⟩
    rw [parker_setParker]
    split
    · next h => exact h ▸ ha
    · next h => exact hb b h

theorem exited_spec (x : Task) (now : Nanos) (kept : Bool) :
    (∀ a, (x.exited now kept).parker a = x.parker a) ∧
    (x.exited now kept).delivered = x.delivered ∧
    ((x.exited now kept).status = .alive → x.exited now kept = x) := by
  unfold Task.exited Task.takeElapsed
  split
  · refine ⟨fun a => ?_, ?_, fun halive => ?_⟩
    · split <;> cases a <;> rfl
    · split <;> rfl
    · cases kept <;> cases halive
  · exact ⟨fun _ => rfl, rfl, fun _ => rfl⟩

theorem of_checkpoint_none (h : x.checkpoint = (y, none)) :
    y = x ∧ (x.cancelled = true → x.delivered = true) := by
  unfold Task.checkpoint at h
  split at h
  · cases h
  · split at h
    · cases h
    · next hpassed =>
        cases h
        refine ⟨rfl, fun hc => ?_⟩
        rw [hc] at hpassed
        cases hd : x.delivered with
        | true => rfl
        | false => rw [hd] at hpassed; exact absurd rfl hpassed

theorem of_checkpoint_some {u : Unwind} (h : x.checkpoint = (y, some u)) :
    u = .discarded ∧ y = x ∨
      u = .cancelled ∧ x.delivered = false ∧ y = { x with delivered := true } := by
  unfold Task.checkpoint at h
  split at h
  · cases h
    exact .inl ⟨rfl, rfl⟩
  · split at h
    · next hcaught =>
        cases h
        refine .inr ⟨rfl, ?_, rfl⟩
        cases hd : x.delivered with
        | true => rw [hd] at hcaught; simp at hcaught
        | false => rfl
    · cases h

namespace Sound

theorem start (id : TaskId) : Sound { task := Task.fresh id } where
  waits := fun a => by cases a <;> exact nofun
  calls := fun _ hk => (List.not_mem_nil hk).elim
  fresh := fun _ hg => (List.not_mem_nil hg).elim
  once := .nil

theorem keep (h : Sound s) (hk : Keeps s.task s.course y d)
    (hwaits : ∀ a, (y.parker a).isWaiting = true → d.axis? = some a)
    (hdelivered : s.task.generation = y.generation → s.task.delivered = true → y.delivered = true) :
    Sound { s with task := y, course := d } where
  waits := hwaits
  calls := fun k hmem => (h.calls k hmem).keep hk
  fresh := fun g hg => by
    obtain ⟨hle, hraised⟩ := h.fresh g hg
    refine ⟨Nat.le_trans hle hk.generation, fun hgy => ?_⟩
    have hgx : g = s.task.generation :=
      Nat.le_antisymm hle (Nat.le_trans hk.generation (Nat.le_of_eq hgy.symm))
    exact hdelivered (hgx ▸ hgy) (hraised hgx)
  once := h.once

/-- The task is where it is, or goes on, and has only been changed apart from its parks. -/
theorem turn (h : Sound s) (ha : Apart s.task y)
    (hclear : ∀ a, s.course.Clear a (s.task.parker a) → d.Clear a (s.task.parker a))
    (haxis : d.axis? = s.course.axis? ∨ s.course.axis? = none) :
    Sound { s with task := y, course := d } := by
  refine h.keep (ha.keeps hclear) (fun a hw => ?_) fun _ hd => ha.delivered ▸ hd
  rw [ha.parker] at hw
  rcases haxis with hsame | hnone
  · exact hsame.trans (h.waits a hw)
  · have := h.waits a hw
    rw [hnone] at this
    cases this

/-- A task that is not marked, or was unwound, looks at the mark. -/
theorem look (h : Sound s) (hpassed : s.task.checkpoint = (y, none))
    (hnone : s.course.axis? = none) : Sound { s with task := y, course := d } := by
  obtain ⟨rfl, hunmarked⟩ := of_checkpoint_none hpassed
  refine h.keep ⟨Nat.le_refl _, fun g _ hcarries hdelivered => ⟨hcarries, hdelivered, fun hc => ?_⟩⟩
    (fun a hw => ?_) fun _ hd => hd
  · rw [hunmarked hc] at hdelivered
    cases hdelivered
  · have := h.waits a hw
    rw [hnone] at this
    cases this

theorem setParker (h : Sound s) {a : Axis} {p : Parker}
    (ha : s.course.Clear a (s.task.parker a) → d.Clear a p)
    (hb : ∀ b ≠ a, s.course.Clear b (s.task.parker b) → d.Clear b (s.task.parker b))
    (hp : p.isWaiting = true → d.axis? = some a)
    (hother : ∀ b ≠ a, s.course.axis? = some b → d.axis? = some b) :
    Sound { s with task := s.task.setParker a p, course := d } := by
  refine h.keep (keeps_setParker _ _ ha hb) (fun b hw => ?_) fun _ hd => by cases a <;> exact hd
  rw [parker_setParker] at hw
  split at hw
  · next hba => exact hba ▸ hp hw
  · next hba => exact hother b hba (h.waits b hw)

theorem advance (h : Sound s) (hn : Holds s.task s.course { k with stage := n }) :
    Sound (s.advance k n) := by
  refine ⟨h.waits, fun k' hk' => ?_, h.fresh, h.once⟩
  cases hk' with
  | head => exact hn
  | tail _ hk' => exact h.calls k' (List.mem_of_mem_erase hk')

theorem release (h : Sound s) (a : Axis) : Sound { s with task := (s.task.release a).1 } :=
  h.setParker .release (fun _ _ hc => hc) (by cases s.task.parker a <;> exact nofun)
    fun _ _ hb => hb

theorem give (h : Sound s) (hnone : s.course.axis? = none) {name : String} {carrier : Nat}
    (given : s.task.reset name carrier = (y, none)) :
    Sound { s with task := y, course := .running } := by
  have hwaits (a : Axis) : (s.task.parker a).isWaiting = false := by
    cases hw : (s.task.parker a).isWaiting with
    | false => rfl
    | true => have := h.waits a hw; rw [hnone] at this; cases this
  have hcached : s.task.status = .cached := by
    cases hstatus : s.task.status with
    | cached => rfl
    | alive | dead => simp only [Task.reset, hstatus] at given; cases given
  rw [Task.reset_of_idle hcached hwaits] at given
  cases given
  refine h.keep ⟨Nat.le_succ _, fun g hg hcarries => ?_⟩ (fun a hw => ?_) fun heq => ?_
  · have hlater := beq_iff_eq.mp (Bool.and_eq_true_iff.mp hcarries).1
    exact absurd (hlater ▸ hg) (Nat.not_succ_le_self _)
  · cases a <;> cases hw
  · exact absurd heq (Nat.succ_ne_self _).symm

theorem raise (h : Sound s) (hopen : s.task.delivered = false) (hnone : s.course.axis? = none) :
    Sound { s with
      task := { s.task with delivered := true }
      course := .running
      raised := s.task.generation :: s.raised } := by
  have hdelivered : Sound { s with
      task := { s.task with delivered := true }, course := .running } := by
    refine h.keep ⟨Nat.le_refl _, fun g _ _ hd => absurd hd nofun⟩ (fun a hw => ?_) fun _ _ => rfl
    have := h.waits a (by cases a <;> exact hw)
    rw [hnone] at this
    cases this
  refine ⟨hdelivered.waits, hdelivered.calls, fun g hg => ?_,
    List.nodup_cons.mpr ⟨fun hold => ?_, h.once⟩⟩
  · cases hg with
    | head => exact ⟨Nat.le_refl _, fun _ => rfl⟩
    | tail _ hg => exact hdelivered.fresh g hg
  · rw [(h.fresh _ hold).2 rfl] at hopen
    cases hopen

theorem step (h : Sound s) (hs : Step s s') : Sound s' := by
  cases hs with
  | give name carrier at_ given => exact h.give (by rw [at_]; rfl) given
  | check a native timed at_ passed => exact h.look passed (by rw [at_]; rfl)
  | pass at_ passed => exact h.look passed (by rw [at_]; rfl)
  | @unwind y u at_ caught =>
      have hnone : s.course.axis? = none := by rcases at_ with hat | hat <;> rw [hat] <;> rfl
      rcases of_checkpoint_some caught with ⟨rfl, rfl⟩ | ⟨rfl, hopen, rfl⟩
      · exact h.turn (.refl _) (fun _ _ => trivial) (.inr hnone)
      · exact h.raise hopen hnone
  | skip at_ => exact h.turn (.refl _) (fun _ _ => trivial) (.inr (by rw [at_]; rfl))
  | @begin a native timed blocks p at_ allowed =>
      refine h.setParker (fun hc => ?_) (fun b hb hc => ?_) (fun hp => ?_) fun b _ hb => ?_
      · rw [at_] at hc
        rw [hc rfl] at allowed
        cases allowed
        trivial
      · cases blocks with
        | true => exact fun ha => absurd ha.symm hb
        | false => trivial
      · cases hq : s.task.parker a with
        | free => rw [hq] at allowed; cases allowed; rfl
        | permitted => rw [hq] at allowed; cases allowed; cases hp
        | waiting | waitingNative => rw [hq] at allowed; cases allowed
      · rw [at_] at hb
        cases hb
  | arm r at_ =>
      exact h.turn ⟨fun a => by cases a <;> rfl, rfl, rfl, rfl, rfl⟩ (by rw [at_]; exact fun _ => id)
        (.inl (by rw [at_]; rfl))
  | leave at_ plain =>
      exact h.turn (.refl _) (by rw [at_]; exact fun _ => id) (.inl (by rw [at_]; rfl))
  | resume at_ => exact h.turn (.refl _) (fun _ _ => trivial) (.inl (by rw [at_]; rfl))
  | disarm at_ =>
      exact h.turn ⟨fun a => by cases a <;> rfl, rfl, rfl, rfl, rfl⟩ (fun _ _ => trivial)
        (.inl (by rw [at_]; rfl))
  | @end_ a native armed at_ order =>
      refine h.setParker (fun _ => ?_) (fun b hb hc => ?_) (fun hp => ?_) fun b hb hab => ?_
      · cases armed <;> trivial
      · cases armed <;> trivial
      · revert hp
        cases s.task.parker a <;> exact nofun
      · rw [at_] at hab
        exact absurd (Option.some.inj hab).symm hb
  | close at_ =>
      exact h.turn ⟨fun a => by cases a <;> rfl, rfl, rfl, rfl, rfl⟩ (fun _ _ => trivial)
        (.inl (by rw [at_]; rfl))
  | yield at_ passed => exact h.look passed (by rw [at_]; rfl)
  | return_ at_ => exact h.turn (.refl _) (fun _ _ => trivial) (.inl (by rw [at_]; rfl))
  | exit now kept at_ =>
      obtain ⟨hparker, hdelivered, halive⟩ := exited_spec s.task now kept
      refine h.keep ⟨Nat.le_of_eq (Task.generation_exited kept).symm, fun g _ hcarries hopen => ?_⟩
        (fun a hw => ?_) fun _ hd => hdelivered.trans hd
      · have hsame := halive (eq_of_beq (Bool.and_eq_true_iff.mp hcarries).2)
        rw [hsame] at hcarries hopen ⊢
        exact ⟨hcarries, hopen, fun hc => ⟨hc, fun _ _ => trivial⟩⟩
      · rw [hparker] at hw
        have := h.waits a hw
        rw [at_] at this
        cases this
  | summon g =>
      refine ⟨h.waits, fun k hk => ?_, h.fresh, h.once⟩
      cases hk with
      | head => trivial
      | tail _ hk => exact h.calls k hk
  | agree on stage same =>
      have hgeneration := (Bool.and_eq_true_iff.mp same).1
      exact h.advance (Nat.le_of_eq (beq_iff_eq.mp hgeneration).symm)
  | refuse on stage other => exact h.advance trivial
  | @strike k on stage =>
      have hle := h.calls k on
      rw [Holds, stage] at hle
      have hmarked : Sound { s with task := { s.task with cancelled := true } } := by
        refine h.keep ⟨Nat.le_refl _, fun g _ hcarries hdelivered =>
          ⟨hcarries, hdelivered, fun _ => ⟨rfl, fun a hc => ?_⟩⟩⟩ (fun a hw => ?_) fun _ hd => hd
        · cases a <;> exact hc
        · exact h.waits a (by cases a <;> exact hw)
      exact hmarked.advance ⟨hle, fun _ _ => ⟨rfl, fun a ha => by cases a <;> simp at ha⟩⟩
  | @release k a axes on stage =>
      have hreleased := h.release a
      have hbound := hreleased.calls k on
      rw [Holds, stage] at hbound
      refine hreleased.advance ⟨hbound.1, fun hcarries hopen => ?_⟩
      obtain ⟨hcancelled, hclear⟩ := hbound.2 hcarries hopen
      refine ⟨hcancelled, fun b hb => ?_⟩
      by_cases hba : b = a
      · subst hba
        rw [Task.release, Task.parker_setParker_self]
        exact clear_release (h.waits b)
      · exact hclear b fun hmem => (List.mem_cons.mp hmem).elim hba hb
  | answer on stage =>
      have hk := h.calls _ on
      rw [Holds, stage] at hk
      exact h.advance hk
  | unpark a => exact h.release a
  | free a =>
      exact h.setParker .free (fun _ _ hc => hc) (by cases s.task.parker a <;> exact nofun)
        fun _ _ hb => hb
  | aside ha => exact h.turn ha (fun _ hc => hc) (.inl rfl)
  | discard =>
      refine h.keep ⟨Nat.le_refl _, fun g _ hcarries => ?_⟩ (fun a hw => ?_) fun _ hd => hd
      · cases (Bool.and_eq_true_iff.mp hcarries).2
      · exact h.waits a (by cases a <;> exact hw)

end Sound

theorem Reached.sound (h : Reached s) : Sound s := by
  induction h with
  | start id => exact .start id
  | step _ hs ih => exact ih.step hs

/-! ## What an engine does -/

theorem advance_cons {ks : List Summons} (h : s.calls = k :: ks) (n : SummonsStage) :
    s.advance k n = { s with calls := { k with stage := n } :: ks } := by
  rw [advance, h, List.erase_cons_head]

/-- A cancellation that nobody interrupts is that of the task. -/
theorem Reached.cancel (h : Reached s) (g : Nat) :
    Reached { s with
      task := (s.task.cancel g).1
      calls := ⟨g, if s.task.carries g then .returned else .refused⟩ :: s.calls } := by
  have hsummon := h.step (.summon g)
  unfold Task.cancel
  cases hc : s.task.carries g with
  | false =>
      have hrefuse := hsummon.step (.refuse (.head _) rfl hc)
      rw [advance_cons rfl] at hrefuse
      exact hrefuse
  | true =>
      have hagree := hsummon.step (.agree (.head _) rfl hc)
      rw [advance_cons rfl] at hagree
      have hstrike := hagree.step (.strike (.head _) rfl)
      rw [advance_cons rfl] at hstrike
      have hinternal := hstrike.step (.release (.head _) rfl)
      rw [advance_cons rfl] at hinternal
      have huser := hinternal.step (.release (.head _) rfl)
      rw [advance_cons rfl] at huser
      have hanswer := huser.step (.answer (.head _) rfl)
      rw [advance_cons rfl] at hanswer
      exact hanswer

theorem apart_wokenBy (x : Task) (now : Nanos) (r : Released) : Apart x (x.wokenBy now r) := by
  cases r with
  | cooperative =>
      simp only [Task.wokenBy, Task.woken]
      split
      · exact ⟨fun a => by cases a <;> rfl, rfl, rfl, rfl, rfl⟩
      · exact .refl x
  | native => exact .refl x
  | permit => exact .refl x

theorem Reached.unparked (h : Reached s) (now : Nanos) (a : Axis) :
    Reached { s with task := s.task.unparked now a } :=
  (h.step (.unpark a)).step (.aside (apart_wokenBy _ now _))

theorem Reached.fired (h : Reached s) (now : Nanos) (r : TimeoutRef) (action : TimeoutAction) :
    Reached { s with task := s.task.fired now r action } := by
  have hclear : Reached { s with task := s.task.clearTimeoutIf r } := by
    refine h.step (.aside ?_)
    unfold Task.clearTimeoutIf
    split
    · exact ⟨fun a => by cases a <;> rfl, rfl, rfl, rfl, rfl⟩
    · exact .refl _
  have hwake (a : Axis) :
      Reached { s with task := (s.task.clearTimeoutIf r).wokenWaiting now a } := by
    unfold Task.wokenWaiting
    split
    · next p found hp =>
        have hfree := hclear.step (.free a)
        simp only [hp] at hfree
        exact hfree.step (.aside (apart_wokenBy _ now found))
    · exact hclear
  cases action with
  | resume => exact hclear.step (.aside (apart_wokenBy _ now .cooperative))
  | wakeCooperative a => exact hwake a
  | wakeNative a => exact hwake a

theorem Reached.park (h : Reached s) (at_ : s.course = .running) (a : Axis) (native : Bool)
    (hpassed : s.task.checkpoint = (s.task, none)) (hfree : s.task.parker a = .free) :
    Reached { s with task := s.task.parked a native, course := .parked a native false } := by
  have hbegin : (s.task.parker a).begin native = .ok (.blocked native, true) := by
    rw [hfree]
    rfl
  have hparked : s.task.parked a native = s.task.setParker a (.blocked native) := by
    rw [Task.parked, hbegin]
  rw [hparked]
  exact ((h.step (.check a native false at_ hpassed)).step (.begin rfl hbegin)).step
    (.leave rfl (.inl rfl))

/-! ## A cancelled task does not stay blocked -/

/-- When a cancellation has returned and the task still has that work and was not unwound, it is
marked, and it does not wait on the axis of its park. No incarnation is unwound by cancellation
twice. -/
theorem Reached.never_stays_blocked (h : Reached s) :
    (∀ k ∈ s.calls, k.stage = .returned → s.task.carries k.generation = true →
      s.task.delivered = false → s.task.cancelled = true ∧ ∀ a native armed,
        s.course = .begun a native armed ∨ s.course = .parked a native armed →
          (s.task.parker a).isWaiting = false) ∧
    s.raised.Nodup := by
  refine ⟨fun k hk hstage hcarries hopen => ?_, h.sound.once⟩
  have hbound := h.sound.calls k hk
  rw [Holds, hstage] at hbound
  obtain ⟨hcancelled, hclear⟩ := hbound.2 hcarries hopen
  refine ⟨hcancelled, fun a native armed hat => ?_⟩
  have hfree := hclear a List.not_mem_nil
  rcases hat with hat | hat
  · rw [hat] at hfree
    exact hfree rfl
  · rw [hat] at hfree
    exact hfree rfl

/-- The task is about to block its carrier when it is marked, begins its park after one axis was
released and before the other one was, and is unwound. -/
theorem never_stays_blocked_between_steps :
    (∃ (s : Tether) (k : Summons), Reached s ∧ k ∈ s.calls ∧ k.stage = .returned ∧
      s.task.carries k.generation = true ∧ s.task.delivered = false ∧
      s.course = .parked .user true false ∧ (s.task.parker .user).isWaiting = false) ∧
    ∃ s : Tether, Reached s ∧ s.raised = [1] ∧ s.raised.Nodup := by
  have h0 := (Reached.start ⟨0⟩).step (.give "work" 0 rfl rfl)
  have h1 := h0.step (.check .user true false rfl rfl)
  have h2 := (h1.step (.summon 1)).step (.agree (.head _) rfl rfl)
  have h3 := (h2.step (.strike (.head _) rfl)).step (.release (.head _) rfl)
  have h4 := (h3.step (.begin (p := .waitingNative) rfl rfl)).step (.leave rfl (.inl rfl))
  have h5 := (h4.step (.release (.head _) rfl)).step (.answer (.head _) rfl)
  have h6 := (h5.step (.resume rfl)).step (.end_ rfl (.inr rfl))
  have h7 := h6.step (.unwind (.inr rfl) rfl)
  constructor
  · obtain ⟨-, hfree⟩ := h5.never_stays_blocked.1 _ (.head _) rfl rfl rfl
    exact ⟨_, _, h5, .head _, rfl, rfl, rfl, rfl, hfree .user true false (.inr rfl)⟩
  · exact ⟨_, h7, rfl, h7.never_stays_blocked.2⟩

end Tether

end GreenThreads

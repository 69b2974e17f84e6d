import GreenThreads.Proofs.Workshop.Flow
import Mathlib.Logic.Relation

/-!
# Cancelling work through its handle

Whoever cancels work through its handle marks the cell of the work, looks which task the cell names,
looks whether that task still has the work, and only then cancels and releases the task. Meanwhile
the work can begin, it can end, and its task can be given other work.

Two gaps are left. Between the look of a carrier at the mark and the moment at which the cell is
told of the task, the handle finds neither work that will be given up nor a task, and the work runs
on. And between the look at the task and its cancellation the task can be given other work, which is
then cancelled in place of work that is over. But for these, a cancellation reaches its own work.
-/

namespace GreenThreads

/-- How far a cancellation is. -/
inductive CallStage where
  /-- The cell of the work is marked. -/
  | marked
  /-- The cell was found to name this incarnation of a task. -/
  | comparing (b : Binding)
  /-- The task was found to be that incarnation. -/
  | striking (b : Binding)
  /-- The task is cancelled, and is to be released on these axes. -/
  | releasing (b : Binding) (axes : List Axis)
  /-- It is over; it may have looked for a task when the work was about to begin. -/
  | returned (missed : Bool)
deriving DecidableEq, Repr

/-- A cancellation through the handle of a piece of work. -/
structure Call where
  job : JobId
  stage : CallStage
deriving DecidableEq, Repr

/-- Whether a carrier has a task ready for a piece of work. -/
def Phase.readies (j : JobId) : Phase → Bool
  | readying _ a => a.job == j
  | looking | holding _ | resuming _ | working _ | blocked _ _ | leaving _ _ | settling => false

namespace Workshop

open Engine

variable {V : Type} {w w' : Workshop V} {j : JobId} {cell : Join V} {b : Binding} {x : Task}

/-- Whether a piece of work was found worth beginning, and its cell does not name a task yet. -/
def emerges (w : Workshop V) (j : JobId) : Bool :=
  w.floor.phases.toList.any (Phase.readies j) ||
    w.bench.any fun s => s.stage == .given && s.work.job == j

/-- The work will not begin any more, and a task that has it is cancelled. -/
structure Revoked (w : Workshop V) (j : JobId) : Prop where
  unready : ∀ (c : Nat) t a, w.floor.phases[c]? = some (Phase.readying t a) → a.job ≠ j
  cancelled : ∀ s ∈ w.bench, s.work.job = j →
    ∃ x, w.engine.task? s.task = some x ∧ x.cancelled = true

/-- The cell of a piece of work names the last task that had it, as long as that task has no other
work. -/
def Filed (w : Workshop V) : Prop :=
  ∀ (j : JobId) cell b, w.engine.jobs[j]? = some cell → cell.binding = some b →
    ∃ x, w.engine.task? b.task = some x ∧
      (x.generation = b.generation ∧ x.job = some j ∨ b.generation < x.generation)

theorem unready_of_emerges (h : w.emerges j = false) :
    (∀ (c : Nat) t a, w.floor.phases[c]? = some (Phase.readying t a) → a.job ≠ j) ∧
    ∀ s ∈ w.bench, s.work.job = j → s.stage ≠ .given := by
  obtain ⟨hphases, hbench⟩ := Bool.or_eq_false_iff.mp h
  refine ⟨fun c t a at_ ha => ?_, fun s hs hsj hstage => ?_⟩
  · have hnone := List.any_eq_false.mp hphases _
      (Array.mem_toList_iff.mpr (Array.mem_of_getElem? at_))
    exact hnone (beq_iff_eq.mpr ha)
  · have hnone := List.any_eq_false.mp hbench s hs
    rw [hstage, hsj] at hnone
    exact hnone (by simp)

namespace Sound

theorem revoked_of_unbound (h : Sound w) (hj : w.engine.jobs[j]? = some cell)
    (hb : cell.binding = none) (he : w.emerges j = false) : Revoked w j := by
  obtain ⟨hunready, hgiven⟩ := unready_of_emerges he
  refine ⟨hunready, fun s hs hsj => ?_⟩
  obtain ⟨x, cell', -, -, hj', hbinding, -⟩ := h.duty s hs
  rw [hsj, hj] at hj'
  cases hj'
  rw [if_neg (hgiven s hs hsj), hb] at hbinding
  cases hbinding

/-- A task that has work whose cell names one is the one that is named. -/
theorem carries_of_bound (h : Sound w) (hj : w.engine.jobs[j]? = some cell)
    (hb : cell.binding = some b) {s : Stint} (hs : s ∈ w.bench) (hsj : s.work.job = j) :
    s.task = b.task ∧ ∃ x, w.engine.task? b.task = some x ∧ x.carries b.generation = true := by
  obtain ⟨x, cell', hx, -, hj', hbinding, -⟩ := h.duty s hs
  obtain ⟨y, hy, halive⟩ := h.alive hs
  rw [hx] at hy
  cases hy
  rw [hsj, hj] at hj'
  cases hj'
  rw [hb] at hbinding
  split at hbinding
  · cases hbinding
  · cases hbinding
    exact ⟨rfl, x, hx, by rw [Task.carries, beq_self_eq_true, halive]; rfl⟩

theorem unready_of_bound (h : Sound w) (hj : w.engine.jobs[j]? = some cell)
    (hb : cell.binding = some b) (c : Nat) (t : TaskId) (a : Submission)
    (at_ : w.floor.phases[c]? = some (Phase.readying t a)) : a.job ≠ j := by
  rintro rfl
  have hmem : a.job ∈ w.pending :=
    List.mem_map_of_mem (List.mem_append_left _ (Floor.mem_hands at_ (.head _)))
  rw [h.waits a.job hmem cell hj] at hb
  cases hb

theorem revoked_of_bound (h : Sound w) (hj : w.engine.jobs[j]? = some cell)
    (hb : cell.binding = some b)
    (hc : ∀ x, w.engine.task? b.task = some x → x.carries b.generation = true →
      x.cancelled = true) : Revoked w j := by
  refine ⟨h.unready_of_bound hj hb, fun s hs hsj => ?_⟩
  obtain ⟨htask, x, hx, hcarries⟩ := h.carries_of_bound hj hb hs hsj
  exact ⟨x, htask ▸ hx, hc x hx hcarries⟩

/-- If the task that is named is still the incarnation that was named, it has the work. -/
theorem own_of_carries (h : Sound w) (hf : Filed w) (hj : w.engine.jobs[j]? = some cell)
    (hb : cell.binding = some b) (hx : w.engine.task? b.task = some x)
    (hc : x.carries b.generation = true) : ∃ s ∈ w.bench, s.task = b.task ∧ s.work.job = j := by
  obtain ⟨hgeneration, halive⟩ := Bool.and_eq_true_iff.mp hc
  obtain ⟨y, hy, hwhere⟩ := hf j cell b hj hb
  rw [hx] at hy
  cases hy
  have hown : x.job = some j := by
    rcases hwhere with ⟨-, hjob⟩ | hlater
    · exact hjob
    · rw [eq_of_beq hgeneration] at hlater
      exact absurd hlater (Nat.lt_irrefl _)
  obtain ⟨s, hs, htask⟩ := h.exists_stint hx (eq_of_beq halive)
  obtain ⟨z, -, hz, hjob, -⟩ := h.duty s hs
  rw [htask, hx] at hz
  cases hz
  rw [hown] at hjob
  exact ⟨s, hs, htask, (Option.some.inj hjob).symm⟩

theorem done_of_carries (h : Sound w) (hj : w.engine.jobs[j]? = some cell)
    (hb : cell.binding = some b) (hx : w.engine.task? b.task = some x)
    (hc : x.carries b.generation = false) : cell.done = true := by
  rcases h.cases (Array.getElem?_eq_some_iff.mp hj).1 with hpending | htasked | hsettled
  · rw [h.waits j hpending cell hj] at hb
    cases hb
  · obtain ⟨s, hs, hsj⟩ := List.mem_map.mp htasked
    obtain ⟨-, y, hy, hcarries⟩ := h.carries_of_bound hj hb hs hsj
    rw [hx] at hy
    cases hy
    rw [hc] at hcarries
    cases hcarries
  · exact h.done j hsettled cell hj

end Sound

/-! ## What later steps leave as it is -/

namespace Onward

variable (ho : Onward w w')

include ho

theorem filed (hf : Filed w) : Filed w' := by
  intro j cell' b hj' hb
  rcases ho.bound j cell' b hj' hb with ⟨cell, hj, hb⟩ | ⟨y, hy, hgeneration, hjob⟩
  · obtain ⟨x, hx, hwhere⟩ := hf j cell b hj hb
    obtain ⟨y, hy, hxy⟩ := ho.past _ x hx
    refine ⟨y, hy, ?_⟩
    rcases hwhere with ⟨hgeneration, hjob⟩ | hlater
    · rcases hxy with ⟨hsame, hsamejob⟩ | hlater
      · exact .inl ⟨hsame.trans hgeneration, hsamejob.trans hjob⟩
      · exact .inr (hgeneration ▸ hlater)
    · rcases hxy with ⟨hsame, -⟩ | hmore
      · exact .inr (hsame ▸ hlater)
      · exact .inr (Nat.lt_trans hlater hmore)
  · exact ⟨y, hy, .inl ⟨hgeneration, hjob⟩⟩

variable (hj : w.engine.jobs[j]? = some cell) (hr : cell.cancelRequested = true)

include hj hr

theorem unready (h : ∀ (c : Nat) t a, w.floor.phases[c]? = some (Phase.readying t a) → a.job ≠ j)
    (c : Nat) (t : TaskId) (a : Submission)
    (at_ : w'.floor.phases[c]? = some (Phase.readying t a)) : a.job ≠ j := by
  rintro rfl
  rcases ho.readying c t a at_ with hold | hsound
  · exact h c t a hold rfl
  · rw [isMoot, hj, Option.map_some, Option.getD_some, hr, Bool.true_or] at hsound
    cases hsound

theorem revoked (h' : Sound w') (h : Revoked w j) : Revoked w' j := by
  refine ⟨ho.unready hj hr h.unready, fun s' hs' hsj => ?_⟩
  rcases ho.bench s' hs' with ⟨s, hs, htask, hwork, -⟩ | ⟨-, c, at_⟩
  · obtain ⟨y, hy, -⟩ := h'.alive hs'
    obtain ⟨x, hx, hcancelled⟩ := h.cancelled s hs (by rw [hwork, hsj])
    obtain ⟨x', hx', -, hstays⟩ := ho.tasks s hs y (by rw [htask, hy])
    rw [hx] at hx'
    cases hx'
    exact ⟨y, hy, hstays hcancelled⟩
  · exact absurd hsj (h.unready c _ _ at_)

/-- Work that was cancelled before a task had it is never given to one. -/
theorem untasked (h : Revoked w j) (hn : j ∉ w.tasked) : Revoked w' j ∧ j ∉ w'.tasked := by
  have hnever : j ∉ w'.tasked := by
    intro htasked
    obtain ⟨s', hs', hsj⟩ := List.mem_map.mp htasked
    rcases ho.bench s' hs' with ⟨s, hs, -, hwork, -⟩ | ⟨-, c, at_⟩
    · exact hn (hsj ▸ hwork ▸ List.mem_map_of_mem hs)
    · exact h.unready c _ _ at_ hsj
  exact ⟨⟨ho.unready hj hr h.unready, fun s hs hsj =>
    absurd (hsj ▸ List.mem_map_of_mem hs) hnever⟩, hnever⟩

end Onward

end Workshop

/-- A workshop with the cancellations through handles. -/
structure Recall (V : Type) where
  shop : Workshop V
  calls : List Call := []

namespace Recall

open Engine

variable {V : Type} {r r' : Recall V} {w : Workshop V} {k : Call} {j : JobId} {n : CallStage}

/-- The engine of a recall. -/
abbrev engine (r : Recall V) : Engine V := r.shop.engine

/-- A cancellation gets on. -/
def advance (r : Recall V) (k : Call) (n : CallStage) : Recall V :=
  { r with calls := { k with stage := n } :: r.calls.erase k }

/-- What can happen at once. -/
inductive Step : Recall V → Recall V → Prop
  | aside {r : Recall V} {w : Workshop V} (h : r.shop.Aside w) : Step r { r with shop := w }
  | work {r : Recall V} {w : Workshop V} (h : r.shop.Work w) : Step r { r with shop := w }
  /-- Work is accepted; who submits it from inside is a task that has work. -/
  | place {r : Recall V} (caller : Option TaskId) (name : String) (group : Option GroupId)
      (here : ∀ t, caller = some t → ∃ s ∈ r.shop.bench, s.task = t) :
      Step r { r with shop := r.shop.place caller name group }
  -- A cancellation
  | mark {r : Recall V} {j : JobId} (h : j < r.engine.jobs.size) :
      Step r { shop := r.shop.request j, calls := ⟨j, .marked⟩ :: r.calls }
  /-- The cell names no task. -/
  | overlook {r : Recall V} {k : Call} {cell : Join V} (on : k ∈ r.calls)
      (stage : k.stage = .marked) (found : r.engine.jobs[k.job]? = some cell)
      (unbound : cell.binding = none) :
      Step r (r.advance k (.returned (r.shop.emerges k.job)))
  | read {r : Recall V} {k : Call} {cell : Join V} {b : Binding} (on : k ∈ r.calls)
      (stage : k.stage = .marked) (found : r.engine.jobs[k.job]? = some cell)
      (bound : cell.binding = some b) : Step r (r.advance k (.comparing b))
  | agree {r : Recall V} {k : Call} {b : Binding} {x : Task} (on : k ∈ r.calls)
      (stage : k.stage = .comparing b) (found : r.engine.task? b.task = some x)
      (same : x.carries b.generation = true) : Step r (r.advance k (.striking b))
  | differ {r : Recall V} {k : Call} {b : Binding} {x : Task} (on : k ∈ r.calls)
      (stage : k.stage = .comparing b) (found : r.engine.task? b.task = some x)
      (other : x.carries b.generation = false) : Step r (r.advance k (.returned false))
  | strike {r : Recall V} {k : Call} {b : Binding} (on : k ∈ r.calls)
      (stage : k.stage = .striking b) :
      Step r { r.advance k (.releasing b [.internal, .user]) with shop := r.shop.strike b.task }
  | release {r : Recall V} {k : Call} {b : Binding} {a : Axis} {axes : List Axis} {x : Task}
      (on : k ∈ r.calls) (stage : k.stage = .releasing b (a :: axes))
      (found : r.engine.task? b.task = some x) :
      Step r { r.advance k (.releasing b axes) with shop := r.shop.release b.task x a }
  | leave {r : Recall V} {k : Call} {b : Binding} (on : k ∈ r.calls)
      (stage : k.stage = .releasing b []) : Step r (r.advance k (.returned false))

/-- What can be reached from an engine that starts. -/
inductive Reached : Recall V → Prop
  | start {config : Config} {processors : Nat} {groups : List ControlGroup} {pump : EventPump}
      {e : Engine V} (h : Engine.start config processors groups pump = .ok e) :
      Reached { shop := { floor := Floor.quiet e } }
  | step {r r' : Recall V} (h : Reached r) (s : Step r r') : Reached r'

/-- What a cancellation relies on as far as it is. -/
def Holds (w : Workshop V) (k : Call) : Prop :=
  ∃ cell, w.engine.jobs[k.job]? = some cell ∧ cell.cancelRequested = true ∧
    match k.stage with
    | .marked | .returned true => True
    | .comparing b | .striking b => cell.binding = some b
    | .releasing _ _ | .returned false => w.Revoked k.job

/-- What holds between any two steps. -/
structure Sound (r : Recall V) : Prop where
  shop : r.shop.Sound
  filed : r.shop.Filed
  calls : ∀ k ∈ r.calls, Holds r.shop k

theorem Holds.onward (h : Holds w k) {w' : Workshop V} (ho : w.Onward w') (h' : w'.Sound) :
    Holds w' k := by
  obtain ⟨cell, hj, hr, hstage⟩ := h
  obtain ⟨cell', hj', hcell⟩ := ho.cells _ cell hj
  refine ⟨cell', hj', hcell.requested hr, ?_⟩
  cases hk : k.stage with
  | marked => trivial
  | comparing b =>
      rw [hk] at hstage
      exact hcell.binding b hstage
  | striking b =>
      rw [hk] at hstage
      exact hcell.binding b hstage
  | releasing b axes =>
      rw [hk] at hstage
      exact ho.revoked hj hr h' hstage
  | returned missed =>
      rw [hk] at hstage
      cases missed with
      | true => trivial
      | false => exact ho.revoked hj hr h' hstage

namespace Sound

theorem start {config : Config} {processors : Nat} {groups : List ControlGroup} {pump : EventPump}
    {e : Engine V} (h : Engine.start config processors groups pump = .ok e) :
    Sound { shop := { floor := Floor.quiet e } } := by
  refine ⟨.start h, fun j cell b hj => ?_, fun _ hk => (List.not_mem_nil hk).elim⟩
  have hnone : e.jobs[j]? = some cell := hj
  rw [start_eq h] at hnone
  cases hnone

theorem onward (h : Sound r) (ho : r.shop.Onward w) (hw : w.Sound) :
    Sound { r with shop := w } :=
  ⟨hw, ho.filed h.filed, fun k hk => (h.calls k hk).onward ho hw⟩

theorem aside (h : Sound r) (ha : r.shop.Aside w) : Sound { r with shop := w } :=
  h.onward (ha.onward h.shop) (h.shop.aside ha)

theorem advance (h : Sound r) (hn : Holds r.shop { k with stage := n }) :
    Sound (r.advance k n) := by
  refine ⟨h.shop, h.filed, fun k' hk' => ?_⟩
  cases hk' with
  | head => exact hn
  | tail _ hk' => exact h.calls k' (List.mem_of_mem_erase hk')

theorem step (h : Sound r) (hs : Step r r') : Sound r' := by
  cases hs with
  | aside ha => exact h.aside ha
  | work hw => exact h.onward (hw.onward h.shop) (h.shop.work hw)
  | place caller name group here =>
      exact h.onward (Workshop.onward_place r.shop caller name group)
        (h.shop.place here name group)
  | @mark j hlt =>
      obtain ⟨hshop, hfiled, hcalls⟩ := h.aside (Workshop.aside_request r.shop j)
      refine ⟨hshop, hfiled, fun k hk => ?_⟩
      cases hk with
      | head =>
          have hmarked : (r.engine.jobs.modify j fun cell => cell.requestCancel.1)[j]? =
              some r.engine.jobs[j].requestCancel.1 := by
            rw [Array.getElem?_modify, if_pos rfl, Array.getElem?_eq_getElem hlt, Option.map_some]
          exact ⟨_, hmarked, rfl, trivial⟩
      | tail _ hk => exact hcalls k hk
  | @overlook k cell on stage found unbound =>
      obtain ⟨cell', hj, hr, -⟩ := h.calls k on
      refine h.advance ⟨cell', hj, hr, ?_⟩
      cases he : r.shop.emerges k.job with
      | true => trivial
      | false => exact h.shop.revoked_of_unbound found unbound he
  | read on stage found bound =>
      obtain ⟨cell', hj, hr, -⟩ := h.calls _ on
      rw [found] at hj
      cases hj
      exact h.advance ⟨_, found, hr, bound⟩
  | agree on stage found same =>
      obtain ⟨cell, hj, hr, hb⟩ := h.calls _ on
      rw [stage] at hb
      exact h.advance ⟨cell, hj, hr, hb⟩
  | differ on stage found other =>
      obtain ⟨cell, hj, hr, hb⟩ := h.calls _ on
      rw [stage] at hb
      refine h.advance ⟨cell, hj, hr, h.shop.revoked_of_bound hj hb fun x hx hc => ?_⟩
      rw [found] at hx
      cases hx
      rw [other] at hc
      cases hc
  | @strike k b on stage =>
      have hstruck := h.aside (Workshop.aside_strike r.shop b.task)
      obtain ⟨cell, hj, hr, hb⟩ := hstruck.calls k on
      rw [stage] at hb
      refine hstruck.advance ⟨cell, hj, hr, hstruck.shop.revoked_of_bound hj hb fun x hx _ => ?_⟩
      obtain ⟨y, hy, -⟩ := h.filed k.job cell b hj hb
      rw [Workshop.task?_strike hy] at hx
      cases hx
      rfl
  | @release k b a axes x on stage found =>
      have hreleased := h.aside ((Workshop.nudged_release found a).1)
      obtain ⟨cell, hj, hr, hrevoked⟩ := hreleased.calls k on
      rw [stage] at hrevoked
      exact hreleased.advance ⟨cell, hj, hr, hrevoked⟩
  | leave on stage =>
      obtain ⟨cell, hj, hr, hrevoked⟩ := h.calls _ on
      rw [stage] at hrevoked
      exact h.advance ⟨cell, hj, hr, hrevoked⟩

end Sound

theorem Reached.sound (h : Reached r) : Sound r := by
  induction h with
  | start hstart => exact .start hstart
  | step _ hs ih => exact ih.step hs

/-! ## What an engine does -/

theorem advance_cons (w : Workshop V) (k : Call) (calls : List Call) (n : CallStage) :
    ({ shop := w, calls := k :: calls } : Recall V).advance k n =
      { shop := w, calls := { k with stage := n } :: calls } := by
  simp only [advance, List.erase_cons_head]

theorem Reached.nudged {w' : Workshop V} (h : Reached { r with shop := w })
    (hn : Relation.ReflTransGen Workshop.Nudged w w') : Reached { r with shop := w' } := by
  induction hn with
  | refl => exact h
  | tail _ hn ih => exact ih.step (.aside hn.1)

/-- A cancellation that nobody interrupts is that of the engine. -/
theorem Reached.cancelJob (h : Reached r) (now : Nanos) (hj : j < r.engine.jobs.size) :
    ∃ missed, Reached {
      shop := r.shop.put (r.engine.cancelJob now j)
      calls := ⟨j, .returned missed⟩ :: r.calls } := by
  obtain ⟨cell, hcell⟩ : ∃ cell, r.engine.jobs[j]? = some cell :=
    ⟨_, Array.getElem?_eq_getElem hj⟩
  obtain ⟨e, he⟩ : ∃ e, e = r.engine.updateJob j fun _ => cell.requestCancel.1 := ⟨_, rfl⟩
  have hmarked : Reached { shop := r.shop.put e, calls := ⟨j, .marked⟩ :: r.calls } := by
    have hstep := h.step (.mark hj)
    rw [Workshop.request, updateJob, modify_congr (k := fun _ => cell.requestCancel.1) hcell rfl,
      ← updateJob, ← he] at hstep
    exact hstep
  have hfound : e.jobs[j]? = some cell.requestCancel.1 := by
    rw [he, updateJob, Array.getElem?_modify, if_pos rfl, hcell, Option.map_some]
  simp only [Engine.cancelJob, hcell, ← he]
  cases hb : cell.binding with
  | none =>
      have hover := hmarked.step (.overlook (.head _) rfl hfound hb)
      rw [advance_cons] at hover
      simp only [Join.requestCancel, hb]
      exact ⟨_, hover⟩
  | some b =>
      obtain ⟨x, hx, -⟩ := hmarked.sound.filed j _ b hfound hb
      have hx : e.task? b.task = some x := hx
      have hread := hmarked.step (.read (.head _) rfl hfound hb)
      rw [advance_cons] at hread
      refine ⟨false, ?_⟩
      simp only [Join.requestCancel, hb]
      cases hc : x.carries b.generation with
      | false =>
          have hover := hread.step (.differ (.head _) rfl hx hc)
          rw [advance_cons] at hover
          simp only [cancelTask, hx, Task.cancel, hc, Bool.false_eq_true, ↓reduceIte]
          exact hover
      | true =>
          have hagree := hread.step (.agree (.head _) rfl hx hc)
          rw [advance_cons] at hagree
          have hstrike := hagree.step (.strike (.head _) rfl)
          rw [advance_cons] at hstrike
          have hinternal := hstrike.step
            (.release (.head _) rfl (Workshop.task?_strike (w := r.shop.put e) hx))
          rw [advance_cons] at hinternal
          have huser := hinternal.step (.release (.head _) rfl (Workshop.task?_release
            (Workshop.task?_strike (w := r.shop.put e) hx) .internal))
          rw [advance_cons] at huser
          have hover := huser.step (.leave (.head _) rfl)
          rw [advance_cons] at hover
          exact Reached.nudged (r := ⟨r.shop, ⟨j, .returned false⟩ :: r.calls⟩) hover
            (Workshop.nudged_cancelTask (w := r.shop.put e) hx hc now)

theorem Reached.later (h : Reached r) (hlater : Relation.ReflTransGen Step r r') : Reached r' := by
  induction hlater with
  | refl => exact h
  | tail _ hs ih => exact ih.step hs

/-! ## Cancellations reach their own work -/

theorem Step.onward (hs : Step r r') (h : Sound r) : r.shop.Onward r'.shop := by
  cases hs with
  | aside ha => exact ha.onward h.shop
  | work hw => exact hw.onward h.shop
  | place caller name group => exact Workshop.onward_place r.shop caller name group
  | mark => exact (Workshop.aside_request r.shop _).onward h.shop
  | strike => exact (Workshop.aside_strike r.shop _).onward h.shop
  | release _ _ found => exact (Workshop.nudged_release found _).1.onward h.shop
  | _ => exact .refl r.shop

theorem Reached.never_tasked (h : Reached r) {cell : Join V}
    (hj : r.engine.jobs[j]? = some cell) (hr : cell.cancelRequested = true)
    (hrevoked : r.shop.Revoked j) (hn : j ∉ r.shop.tasked)
    (hlater : Relation.ReflTransGen Step r r') : j ∉ r'.shop.tasked := by
  suffices hkept : ∃ cell', r'.engine.jobs[j]? = some cell' ∧ cell'.cancelRequested = true ∧
      r'.shop.Revoked j ∧ j ∉ r'.shop.tasked from hkept.choose_spec.2.2.2
  induction hlater with
  | refl => exact ⟨cell, hj, hr, hrevoked, hn⟩
  | tail hbefore hs ih =>
      obtain ⟨cell', hj', hr', hrevoked', hn'⟩ := ih
      have ho := hs.onward (h.later hbefore).sound
      obtain ⟨cell'', hj'', hcell⟩ := ho.cells j cell' hj'
      obtain ⟨hrevoked'', hn''⟩ := ho.untasked hj' hr' hrevoked' hn'
      exact ⟨cell'', hj'', hcell.requested hr', hrevoked'', hn''⟩

/-- When a cancellation is over that did not look for a task while the work was about to begin, the
work is over, or waits and will never be given to a task, or the task that has it is cancelled.
Whoever is about to cancel a task is about to cancel the work of the handle, or else that work is
over. -/
theorem Reached.cancels_own_work (h : Reached r) (hk : k ∈ r.calls) :
    (k.stage = .returned false → ∃ cell, r.engine.jobs[k.job]? = some cell ∧
      (cell.done = true ∨
        k.job ∈ r.shop.pending ∧ cell.cancelRequested = true ∧
          (∀ r', Relation.ReflTransGen Step r r' → k.job ∉ r'.shop.tasked) ∨
        ∃ s ∈ r.shop.bench, s.work.job = k.job ∧
          ∃ x, r.engine.task? s.task = some x ∧ x.cancelled = true)) ∧
    ∀ b, k.stage = .striking b → ∃ x cell, r.engine.task? b.task = some x ∧
      r.engine.jobs[k.job]? = some cell ∧
      (x.carries b.generation = true → ∃ s ∈ r.shop.bench, s.task = b.task ∧ s.work.job = k.job) ∧
      (x.carries b.generation = false → cell.done = true) := by
  have hsound := h.sound
  obtain ⟨cell, hj, hr, hstage⟩ := hsound.calls k hk
  refine ⟨fun hreturned => ?_, fun b hstriking => ?_⟩
  · rw [hreturned] at hstage
    refine ⟨cell, hj, ?_⟩
    by_cases htasked : k.job ∈ r.shop.tasked
    · obtain ⟨s, hs, hsj⟩ := List.mem_map.mp htasked
      exact .inr (.inr ⟨s, hs, hsj, hstage.cancelled s hs hsj⟩)
    · rcases hsound.shop.cases (Array.getElem?_eq_some_iff.mp hj).1 with hpending | hbench | hsettled
      · exact .inr (.inl ⟨hpending, hr, fun _ => h.never_tasked hj hr hstage htasked⟩)
      · exact absurd hbench htasked
      · exact .inl (hsound.shop.done _ hsettled cell hj)
  · rw [hstriking] at hstage
    obtain ⟨x, hx, -⟩ := hsound.filed _ cell b hj hstage
    exact ⟨x, cell, hx, hj, hsound.shop.own_of_carries hsound.filed hj hstage hx,
      hsound.shop.done_of_carries hj hstage hx⟩

/-- The work runs, and then it is cancelled. -/
theorem cancels_own_work_running : ∃ (r : Recall Unit) (k : Call) (s : Stint) (x : Task),
    Reached r ∧ k ∈ r.calls ∧ k.stage = .returned false ∧ s ∈ r.shop.bench ∧ s.stage = .running ∧
      s.work.job = k.job ∧ r.engine.task? s.task = some x ∧ x.cancelled = true := by
  have h0 := Reached.start (V := Unit) (show Engine.start {} 1 [] .absent = .ok _ from rfl)
  have h1 := h0.step (.place none "work" none nofun)
  have h2 := h1.step (.work (.take (c := 0) (s := ⟨0, "work", none⟩) rfl (.shared rfl rfl)))
  have h3 := h2.step (.work (.obtain (c := 0) rfl rfl .fresh))
  have h4 := h3.step (.work (.give (c := 0) rfl))
  have h5 := h4.step (.work (.bind (.head _) rfl rfl))
  have h6 := h5.step (.work (.pass (.head _) rfl (.inl rfl)))
  have h7 := h6.step (.aside (Workshop.aside_move (.switchIn (c := 0) 5 rfl rfl rfl rfl) rfl rfl
    (nudges_switchIn _ 5 0 ⟨0⟩).steady rfl))
  have h8 := h7.step (.work (.run (c := 0) (.head _) rfl rfl))
  have h9 := h8.step (.mark (j := 0) (by decide))
  have h10 := h9.step (.read (.head _) rfl rfl rfl)
  have h11 := h10.step (.agree (.head _) rfl rfl rfl)
  have h12 := h11.step (.strike (.head _) rfl)
  have h13 := h12.step (.release (.head _) rfl rfl)
  have h14 := h13.step (.release (.head _) rfl rfl)
  have h15 := h14.step (.leave (.head _) rfl)
  obtain ⟨hover, -⟩ := h15.cancels_own_work (.head _)
  obtain ⟨cell, hj, hcase⟩ := hover rfl
  cases hj
  rcases hcase with hdone | ⟨-, -, hnever⟩ | ⟨s, hs, hsj, x, hx, hc⟩
  · cases hdone
  · exact absurd (.head _) (hnever _ .refl)
  · refine ⟨_, _, s, x, h15, .head _, rfl, hs, ?_, hsj, hx, hc⟩
    cases hs with
    | head => rfl
    | tail _ hs => cases hs

/-- The two gaps: work that was about to begin runs on after its cancellation, and a task is
cancelled that has had other work since the work of the handle was over. -/
theorem cancellation_gaps :
    (∃ (r : Recall Unit) (k : Call) (s : Stint) (x : Task) (cell : Join Unit), Reached r ∧
      k ∈ r.calls ∧ k.stage = .returned true ∧ s ∈ r.shop.bench ∧ s.stage = .running ∧
      s.work.job = k.job ∧ r.engine.task? s.task = some x ∧ x.cancelled = false ∧
      r.engine.jobs[k.job]? = some cell ∧ cell.done = false) ∧
    ∃ (r r' : Recall Unit) (k : Call) (b : Binding) (s : Stint) (x : Task), Reached r ∧
      k ∈ r.calls ∧ k.stage = .striking b ∧ s ∈ r.shop.bench ∧ s.stage = .running ∧
      s.task = b.task ∧ s.work.job ≠ k.job ∧ r.engine.task? b.task = some x ∧
      x.cancelled = false ∧ Step r r' ∧ r'.engine.task? b.task = some { x with cancelled := true } := by
  have h0 := Reached.start (V := Unit) (show Engine.start {} 1 [] .absent = .ok _ from rfl)
  have h1 := h0.step (.place none "work" none nofun)
  have h2 := h1.step (.work (.take (c := 0) (s := ⟨0, "work", none⟩) rfl (.shared rfl rfl)))
  have h3 := h2.step (.work (.obtain (c := 0) rfl rfl .fresh))
  have h4 := h3.step (.work (.give (c := 0) rfl))
  constructor
  -- The handle comes after the look of the carrier and before the cell is told of the task.
  · have h5 := h4.step (.mark (j := 0) (by decide))
    have h6 := h5.step (.overlook (.head _) rfl rfl rfl)
    have h7 := h6.step (.work (.bind (.head _) rfl rfl))
    have h8 := h7.step (.work (.pass (.head _) rfl (.inl rfl)))
    have h9 := h8.step (.aside (Workshop.aside_move (.switchIn (c := 0) 5 rfl rfl rfl rfl) rfl rfl
      (nudges_switchIn _ 5 0 ⟨0⟩).steady rfl))
    have h10 := h9.step (.work (.run (c := 0) (.head _) rfl rfl))
    exact ⟨_, _, _, _, _, h10, .head _, rfl, .head _, rfl, rfl, rfl, rfl, rfl, rfl⟩
  · have h5 := h4.step (.work (.bind (.head _) rfl rfl))
    have h6 := h5.step (.work (.pass (.head _) rfl (.inl rfl)))
    have h7 := h6.step (.aside (Workshop.aside_move (.switchIn (c := 0) 5 rfl rfl rfl rfl) rfl rfl
      (nudges_switchIn _ 5 0 ⟨0⟩).steady rfl))
    have h8 := h7.step (.work (.run (c := 0) (.head _) rfl rfl))
    have h9 := h8.step (.mark (j := 0) (by decide))
    have h10 := h9.step (.read (.head _) rfl rfl rfl)
    have h11 := h10.step (.agree (.head _) rfl rfl rfl)
    -- The task is found to have the work; now the work ends, and the task is given other work.
    have h12 := h11.step (.work (.finish (c := 0) (.ok ()) (.head _) rfl rfl))
    have h13 := h12.step (.work (.exit (c := 0) (.head _) rfl rfl rfl rfl))
    have h14 := h13.step (.aside (Workshop.aside_move (.leave (c := 0) rfl) rfl rfl
      (steady_vacate _ 0 ⟨0⟩) rfl))
    have h15 := h14.step (.aside (Workshop.aside_move (.settle (c := 0) rfl rfl rfl rfl) rfl rfl
      (.refl _) rfl))
    have h16 := h15.step (.place none "other" none nofun)
    have h17 := h16.step (.work (.take (c := 0) (s := ⟨1, "other", none⟩) rfl (.shared rfl rfl)))
    have h18 := h17.step (.work (.obtain (c := 0) rfl rfl (.pooled (.own (i := 0) rfl))))
    have h19 := h18.step (.work (.give (c := 0) rfl))
    have h20 := h19.step (.work (.bind (.head _) rfl rfl))
    have h21 := h20.step (.work (.pass (.head _) rfl (.inl rfl)))
    have h22 := h21.step (.aside (Workshop.aside_move (.switchIn (c := 0) 6 rfl rfl rfl rfl) rfl rfl
      (nudges_switchIn _ 6 0 ⟨0⟩).steady rfl))
    have h23 := h22.step (.work (.run (c := 0) (.head _) rfl rfl))
    exact ⟨_, _, _, _, _, _, h23, .head _, rfl, .head _, rfl, rfl, by decide, rfl, rfl,
      .strike (.head _) rfl, rfl⟩

end Recall

end GreenThreads

import GreenThreads.Proofs.Quota.Membership
import GreenThreads.Proofs.Workshop.Flow
import Mathlib.Logic.Relation

/-!
# Destroying a group

Whoever destroys a group closes it first, so that carriers give up its work and it takes no members,
takes down who is a member then, cancels them one by one, and waits until nobody is left. But a
carrier looks at the group before it begins the work, and a task looks at it before it gets into the
list; both act on what they saw. And a task may leave the group before its work is over.

So what the destruction does not reach is the work of the group that was begun and whose task was
not in the list when the members were taken down. All else of it is cancelled or never begins.
-/

namespace GreenThreads

/-- What whoever destroys a group found when the members were taken down. -/
structure Census where
  /-- The task that destroys the group. -/
  caller : Option TaskId
  /-- The work of that task. -/
  own : Option JobId
  /-- How many other members there were. -/
  count : Nat
  /-- The work of the group that was begun and was not that of a member. -/
  strays : List JobId
deriving DecidableEq, Repr

/-- How far the destruction of a group is. -/
inductive ClosingStage where
  /-- The group is closed. -/
  | closed
  /-- These members are yet to be cancelled. -/
  | striking (census : Census) (left : List Member)
  /-- Nobody is left, and the destruction has returned. -/
  | returned (census : Census)
deriving DecidableEq, Repr

/-- The destruction of a group. -/
structure Closing where
  group : GroupId
  stage : ClosingStage
deriving DecidableEq, Repr

/-- The work of a group for which a carrier has a task ready. -/
def Phase.begins (g : GroupId) : Phase → List JobId
  | readying _ a => if a.group = some g then [a.job] else []
  | looking | holding _ | resuming _ | working _ | blocked _ _ | leaving _ _ | settling => []

/-- Whether the work was submitted in a group, or its task found the group open. -/
def Stint.concerns (g : GroupId) (s : Stint) : Bool :=
  s.work.group == some g || match s.stage with
    | .joining k _ => k == g
    | .given | .bound | .ready | .running | .returned => false

theorem Stint.concerns_of_concerns {g : GroupId} {s s' : Stint} (h : s'.concerns g = true)
    (hwork : s.work = s'.work)
    (hjoining : ∀ begun, s'.stage = .joining g begun → s.stage = .joining g begun) :
    s.concerns g = true := by
  rw [concerns, Bool.or_eq_true] at h ⊢
  rcases h with hgroup | hstage
  · exact .inl (hwork ▸ hgroup)
  · refine .inr ?_
    cases hp : s'.stage with
    | joining k begun =>
        rw [hp] at hstage
        rw [eq_of_beq hstage] at hp
        rw [hjoining begun hp]
        exact beq_self_eq_true g
    | _ =>
        rw [hp] at hstage
        cases hstage

theorem ControlGroup.destroyed_detach (G : ControlGroup) (k : GroupId) (x : Task) (now : Nanos) :
    (G.detach k x now).1.destroyed = G.destroyed := by
  unfold detach
  split <;> rfl

namespace Engine

variable {V : Type} {e e' e'' : Engine V} {t : TaskId} {g k : GroupId} {x y : Task}

/-- The group that a task is in. -/
def groupOf (e : Engine V) (t : TaskId) : Option GroupId := (e.task? t).bind (·.group)

/-- `e'` has the tasks of `e` in the groups of `e`, and a group that was destroyed still is. -/
structure SameRolls (e e' : Engine V) : Prop extends SameMembers e e' where
  gone : ∀ g, e.isGone (some g) = true → e'.isGone (some g) = true

namespace SameRolls

theorem refl (e : Engine V) : SameRolls e e := ⟨.refl e, fun _ h => h⟩

theorem trans (h : SameRolls e e') (h' : SameRolls e' e'') : SameRolls e e'' :=
  ⟨h.toSameMembers.trans h'.toSameMembers, fun g hg => h'.gone g (h.gone g hg)⟩

theorem of_eq (ht : e'.tasks.map Task.place = e.tasks.map Task.place) (hg : e'.groups = e.groups) :
    SameRolls e e' := by
  refine ⟨⟨ht, by rw [hg]⟩, fun g h => ?_⟩
  rw [isGone, hg]
  exact h

theorem groupOf (h : SameRolls e e') (t : TaskId) : e'.groupOf t = e.groupOf t := by
  have hget := congrArg (·[t.index]?) h.tasks
  simp only [Array.getElem?_map] at hget
  have hplace := congrArg (Option.bind · (·.2.2)) hget
  simp only [Option.bind_map] at hplace
  exact hplace

end SameRolls

theorem isGone_iff :
    e.isGone (some g) = true ↔ ∃ G, e.groups[g]? = some G ∧ G.destroyed = true := by
  rw [isGone, Option.bind_some]
  cases e.groups[g]? with
  | none => simp
  | some G => simp

/-- Whatever is done to a group, it stays destroyed. -/
theorem isGone_updateGroup {f : ControlGroup → ControlGroup}
    (hf : ∀ G, e.groups[k]? = some G → G.destroyed = true → (f G).destroyed = true)
    (h : e.isGone (some g) = true) : (e.updateGroup k f).isGone (some g) = true := by
  obtain ⟨G, hG, hgone⟩ := isGone_iff.mp h
  rw [isGone_iff]
  simp only [updateGroup, Array.getElem?_modify]
  split
  · next hk =>
      subst hk
      exact ⟨f G, by rw [hG]; rfl, hf G hG hgone⟩
  · exact ⟨G, hG, hgone⟩

theorem sameRolls_updateTask {f : Task → Task} (h : ∀ x, e.task? t = some x → (f x).place = x.place) :
    SameRolls e (e.updateTask t f) := .of_eq (map_modify_of_eq h) rfl

theorem Nudge.sameRolls (h : Nudge e e') : SameRolls e e' := by
  cases h with
  | task h _ => exact sameRolls_updateTask fun x hx => (congrArg Task.place (h x hx).badge :)
  | @group k f same =>
      refine ⟨sameMembers_updateGroup fun G hG => congrArg Prod.fst (same G hG), fun g hg => ?_⟩
      refine isGone_updateGroup (fun G hG hgone => ?_) hg
      exact (congrArg Prod.snd (same G hG)).trans hgone
  | _ => exact .of_eq rfl rfl

theorem Nudges.sameRolls (h : Nudges e e') : SameRolls e e' := h.induct .refl .trans Nudge.sameRolls

/-! ## Groups and the parts of operations -/

theorem Taken.sameRolls {c : Nat} {r : Runnable} (h : e.Taken c r e') : SameRolls e e' := by
  obtain ⟨carriers, shared, rfl⟩ := h.eq
  exact .of_eq rfl rfl

theorem Popped.sameRolls (h : e.Popped t e') : SameRolls e e' := by
  obtain ⟨carriers, pool, rfl⟩ := h.eq
  exact .of_eq rfl rfl

theorem sameRolls_recycle (e : Engine V) (c : Nat) (t : TaskId) : SameRolls e (e.recycle c t) := by
  obtain ⟨n, carriers, pool, stats, hrecycle⟩ := recycle_eq e c t
  have htasks : (e.updateTask t ({ · with status := n })).tasks.map Task.place =
      e.tasks.map Task.place := map_updateTask fun _ => rfl
  rw [hrecycle]
  exact .of_eq htasks rfl

theorem isGone_enroll (now : Nanos) (t : TaskId) (k : GroupId) (h : e.isGone (some g) = true) :
    (e.enroll now t k).isGone (some g) = true := by
  unfold enroll
  split
  · next x G _ hG =>
      split
      · refine isGone_updateGroup (fun G' hG' hgone => ?_) h
        rw [hG] at hG'
        cases hG'
        exact hgone
      · exact h
  · exact h

theorem isGone_detach (now : Nanos) (t : TaskId) (k : GroupId) (h : e.isGone (some g) = true) :
    (e.detach now t k).isGone (some g) = true := by
  unfold detach
  split
  · next x G _ hG =>
      refine isGone_updateGroup (fun G' hG' hgone => ?_) h
      rw [hG] at hG'
      cases hG'
      exact (ControlGroup.destroyed_detach G k x now).trans hgone
  · exact h

theorem listed_enroll (h : Listed (· ≤ ·) e) (now : Nanos) (t : TaskId) (g : GroupId) :
    Listed (· ≤ ·) (e.enroll now t g) := by
  unfold enroll
  split
  · next x G hx hG =>
      split
      · next hnone =>
          have hid : (x.takeElapsed now).1.id = t :=
            (congrArg Prod.fst (x.place_takeElapsed now)).trans (h.ids t x hx)
          have hgeneration : (x.takeElapsed now).1.generation = x.generation :=
            congrArg (·.2.1) (x.place_takeElapsed now)
          exact h.enroll Nat.le_refl hx hG hnone (Prod.ext hid (Prod.ext hgeneration rfl))
      · exact h
  · exact h

/-- A task that is given work is in no group, and no list takes it for a member. -/
theorem listed_assigned {r : Nat → Nat → Prop} (h : Listed r e) (hx : e.task? t = some x)
    (hended : x.Ended) (hle : ∀ m n, r m n → m ≤ n)
    (hnext : ∀ g n, ⟨t, n⟩ ∈ e.membersOf g → r n (x.generation + 1)) (c : Nat) (a : Submission) :
    Listed r (e.updateTask t (Floor.assigned c a)) := by
  have hreset := h.reset hx hended.cached hle hnext a.name c
  have hjob := hreset.same (sameMembers_updateTask (f := fun x : Task => { x with job := some a.job })
    (t := t) fun _ => rfl)
  have hassigned : (e.updateTask t fun x => { (x.reset a.name c).1 with job := some a.job }) =
      e.updateTask t (Floor.assigned c a) :=
    updateTask_congr hx (by rw [Task.reset_of_ended hended]; rfl)
  rw [updateTask_updateTask, hassigned] at hjob
  exact hjob

/-- A task that is in a group after it joined one was in that group, or it is the one that it
joined. -/
theorem groupOf_enroll {now : Nanos} {u : TaskId} (h : (e.enroll now t k).groupOf u = some g) :
    e.groupOf u = some g ∨ u = t ∧ k = g := by
  unfold enroll at h
  split at h
  · next x G hx _ =>
      split at h
      · rw [groupOf, task?_updateTask] at h
        split at h
        · next hu =>
            have h : ((e.task? u).map fun _ => { (x.takeElapsed now).1 with group := some k }).bind
              (·.group) = some g := h
            rw [hu, hx] at h
            cases h
            exact .inr ⟨hu, rfl⟩
        · exact .inl h
      · exact .inl h
  · exact .inl h

theorem groupOf_detach {now : Nanos} {u : TaskId} (h : (e.detach now t k).groupOf u = some g) :
    e.groupOf u = some g := by
  unfold detach at h
  split at h
  · next x G hx _ =>
      rw [groupOf, task?_updateTask] at h
      split at h
      · next hu =>
          have h : ((e.task? u).map fun _ => (G.detach k x now).2).bind (·.group) = some g := h
          rw [hu, hx, Option.map_some, Option.bind_some] at h
          by_cases hin : x.group = some k
          · rw [ControlGroup.detach_of_eq hin] at h
            cases h
          · rw [ControlGroup.detach_of_ne hin] at h
            rw [groupOf, hu, hx]
            exact h
      · exact h
  · exact h

end Engine

namespace Workshop

open Engine

variable {V : Type} {w w' : Workshop V} {s : Stint} {g : GroupId} {c : Nat} {x y : Task}

/-- The work of a group that was begun and is not that of a member. -/
def strays (w : Workshop V) (g : GroupId) : List JobId :=
  w.floor.phases.toList.flatMap (Phase.begins g) ++
    (w.bench.filter fun s => s.concerns g && w.engine.groupOf s.task != some g).map (·.work.job)

/-- What no step undoes as far as groups go. -/
structure Ordered (w w' : Workshop V) : Prop extends Onward w w' where
  listed : Listed (· ≤ ·) w.engine → Listed (· ≤ ·) w'.engine
  gone : ∀ g, w.engine.isGone (some g) = true → w'.engine.isGone (some g) = true
  group : ∀ s ∈ w.bench, ∀ g, w'.engine.groupOf s.task = some g →
    w.engine.groupOf s.task = some g ∨ s.concerns g = true

theorem Onward.ordered (ho : Onward w w') (h : w.engine.SameRolls w'.engine) : Ordered w w' :=
  ⟨ho, fun hl => hl.same h.toSameMembers, h.gone,
    fun s _ _ hg => .inl ((h.groupOf s.task).symm.trans hg)⟩

theorem Work.listed (hw : Work w w') (h : Sound w) (hl : Listed (· ≤ ·) w.engine) :
    Listed (· ≤ ·) w'.engine := by
  cases hw with
  | take _ ht => exact hl.same ht.sameRolls.toSameMembers
  | obtain _ _ ho =>
      cases ho with
      | pooled hp => exact hl.same hp.sameRolls.toSameMembers
      | fresh => exact hl.make
  | abandon | bind | pass | knock | run | enter | finish => exact hl.same ⟨rfl, rfl⟩
  | give at_ =>
      obtain ⟨x, hx, hended⟩ := h.floor.sound.ended at_
      refine listed_assigned hl hx hended (fun _ _ => id) (fun g n hm => ?_) _ _
      obtain ⟨x', hx', hle⟩ := hl.entries g _ hm
      rw [hx] at hx'
      cases hx'
      exact Nat.le_succ_of_le hle
  | @enroll s k _ now => exact listed_enroll hl now s.task k
  | @detach c s k now => exact hl.detach now s.task k
  | @exit c s =>
      have hover : Listed (· ≤ ·) (w.engine.signOff s.task) := hl.same ⟨rfl, rfl⟩
      exact hover.same (sameRolls_recycle _ c s.task).toSameMembers

theorem Work.gone (hw : Work w w') (hg : w.engine.isGone (some g) = true) :
    w'.engine.isGone (some g) = true := by
  cases hw with
  | take _ ht => exact ht.sameRolls.gone g hg
  | obtain _ _ ho =>
      cases ho with
      | pooled hp => exact hp.sameRolls.gone g hg
      | fresh => exact hg
  | abandon | give | bind | pass | knock | run | enter | finish => exact hg
  | @enroll s k _ now => exact isGone_enroll now s.task k hg
  | @detach c s k now => exact isGone_detach now s.task k hg
  | @exit c s => exact (sameRolls_recycle (w.engine.signOff s.task) c s.task).gone g hg

/-- A task with work gets into a group only if it was about to. -/
theorem Work.group (hw : Work w w') (h : Sound w) (hs : s ∈ w.bench)
    (hg : w'.engine.groupOf s.task = some g) :
    w.engine.groupOf s.task = some g ∨ s.concerns g = true := by
  obtain ⟨x, hx, halive⟩ := h.alive hs
  cases hw with
  | take _ ht => exact .inl ((ht.sameRolls.groupOf _).symm.trans hg)
  | obtain _ _ ho =>
      cases ho with
      | pooled hp => exact .inl ((hp.sameRolls.groupOf _).symm.trans hg)
      | fresh =>
          have hg : (w.engine.makeTask.1.task? s.task).bind (·.group) = some g := hg
          rw [task?_makeTask] at hg
          split at hg
          · cases hg
          · exact .inl hg
  | abandon | bind | pass | knock | run | enter | finish => exact .inl hg
  | @give c t a =>
      have hg : (w.engine.updateTask t (Floor.assigned c a)).groupOf s.task = some g := hg
      rw [groupOf, task?_updateTask] at hg
      split at hg
      · rw [hx] at hg
        cases hg
      · exact .inl hg
  | @enroll s₀ k begun now on stage =>
      rcases groupOf_enroll hg with hold | ⟨htask, rfl⟩
      · exact .inl hold
      · have hself : s = s₀ := h.eq_of_task on hs htask
        refine .inr ?_
        rw [Stint.concerns, hself, stage]
        simp
  | @detach c s₀ k now => exact .inl (groupOf_detach hg)
  | @exit c s₀ =>
      have hrolls := sameRolls_recycle (w.engine.signOff s₀.task) c s₀.task
      exact .inl ((hrolls.groupOf s.task).symm.trans hg)

theorem Work.ordered (hw : Work w w') (h : Sound w) : Ordered w w' :=
  ⟨hw.onward h, hw.listed h, fun _ hg => hw.gone hg, fun _ hs _ hg => hw.group h hs hg⟩

theorem ordered_place (w : Workshop V) (caller : Option TaskId) (name : String)
    (group : Option GroupId) : Ordered w (w.place caller name group) := by
  refine (onward_place w caller name group).ordered ?_
  obtain ⟨carriers, shared, hplace⟩ := w.place_eq_put caller name group
  rw [hplace]
  exact .of_eq rfl rfl

/-- A group takes no more work and no more members. -/
def close (w : Workshop V) (g : GroupId) : Workshop V :=
  w.put (w.engine.updateGroup g ({ · with destroyed := true }))

theorem aside_close (w : Workshop V) (g : GroupId) : Aside w (w.close g) :=
  aside_put (frame_updateGroup _ g _) (steady_of_eq rfl rfl rfl) rfl

theorem sameRolls_close (w : Workshop V) (g : GroupId) : w.engine.SameRolls (w.close g).engine :=
  ⟨sameMembers_updateGroup fun _ _ => rfl, fun _ hg => isGone_updateGroup (fun _ _ _ => rfl) hg⟩

theorem groups_close {G : ControlGroup} (hG : w.engine.groups[g]? = some G) :
    (w.close g).engine.groups[g]? = some { G with destroyed := true } := by
  have hmodify : (w.engine.groups.modify g ({ · with destroyed := true }))[g]? =
      some { G with destroyed := true } := by
    rw [Array.getElem?_modify, if_pos rfl, hG, Option.map_some]
  exact hmodify

/-- All work of the group that tasks have or get is that of `strays`, or of the one who destroys the
group, or is that of a task that is cancelled or in the list `left`. -/
structure Cleared (w : Workshop V) (g : GroupId) (census : Census) (left : List Member) : Prop where
  unready : ∀ (c : Nat) t a, w.floor.phases[c]? = some (Phase.readying t a) → a.group = some g →
    a.job ∈ census.strays
  bench : ∀ s ∈ w.bench, ∀ x, w.engine.task? s.task = some x →
    (x.group = some g ∨ s.concerns g = true) →
      x.cancelled = true ∨ ⟨s.task, x.generation⟩ ∈ left ∨ s.work.job ∈ census.strays ∨
        census.own = some s.work.job

theorem mem_strays_of_readying {t : TaskId} {a : Submission}
    (at_ : w.floor.phases[c]? = some (Phase.readying t a)) (hg : a.group = some g) :
    a.job ∈ w.strays g := by
  have hbegins : a.job ∈ (Phase.readying t a).begins g := by
    rw [Phase.begins, if_pos hg]
    exact List.mem_singleton.mpr rfl
  exact List.mem_append_left _ (List.mem_flatMap.mpr
    ⟨_, Array.mem_toList_iff.mpr (Array.mem_of_getElem? at_), hbegins⟩)

theorem mem_strays_of_concerns (hs : s ∈ w.bench) (hc : s.concerns g = true)
    (hout : w.engine.groupOf s.task ≠ some g) : s.work.job ∈ w.strays g := by
  refine List.mem_append_right _ (List.mem_map_of_mem (List.mem_filter.mpr ⟨hs, ?_⟩))
  rw [hc, Bool.true_and]
  exact bne_iff_ne.mpr hout

/-- Whoever takes down the members of a group has them all. -/
theorem Sound.cleared (h : Sound w) (hl : Listed (· ≤ ·) w.engine) {G : ControlGroup}
    (hG : w.engine.groups[g]? = some G) {caller : Option TaskId} {own : Option JobId} {n : Nat}
    (here : ∀ t, caller = some t → ∃ s ∈ w.bench, s.task = t ∧ own = some s.work.job) :
    Cleared w g ⟨caller, own, n, w.strays g⟩ (G.others caller) := by
  refine ⟨fun c t a at_ hg => mem_strays_of_readying at_ hg, fun s hs x hx hconcerns => .inr ?_⟩
  have hslot : w.engine.groupOf s.task = x.group := by rw [groupOf, hx, Option.bind_some]
  by_cases hin : x.group = some g
  · have hmember : ⟨s.task, x.generation⟩ ∈ G.members := by
      rw [← membersOf_eq hG]
      exact (hl.iff_slot s.task x g hx).mpr hin
    by_cases hcaller : caller = some s.task
    · obtain ⟨s', hs', htask, hown⟩ := here s.task hcaller
      rw [h.eq_of_task hs hs' htask] at hown
      exact .inr (.inr hown)
    · refine .inl (List.mem_filter.mpr ⟨hmember, ?_⟩)
      exact bne_iff_ne.mpr (Ne.symm hcaller)
  · refine .inr (.inl (mem_strays_of_concerns hs (hconcerns.resolve_left hin) ?_))
    rw [hslot]
    exact hin

theorem Ordered.cleared {census : Census} {left : List Member} (ho : Ordered w w')
    (hg : w.engine.isGone (some g) = true) (hc : Cleared w g census left) :
    Cleared w' g census left := by
  refine ⟨fun c t a at_ ha => ?_, fun s' hs' y hy hconcerns => ?_⟩
  · rcases ho.readying c t a at_ with hold | hsound
    · exact hc.unready c t a hold ha
    · rw [isMoot, ha, hg, Bool.or_true] at hsound
      cases hsound
  rcases ho.bench s' hs' with ⟨s, hs, htask, hwork, hjoining⟩ | ⟨⟨hgiven, hnone⟩, c, at_⟩
  · obtain ⟨x, hx, hgeneration, hstays⟩ := ho.tasks s hs y (htask ▸ hy)
    have hbefore : x.group = some g ∨ s.concerns g = true := by
      rcases hconcerns with hin | hconcerns
      · have hgroup : w'.engine.groupOf s.task = some g := by
          rw [groupOf, htask, hy, Option.bind_some, hin]
        rcases ho.group s hs g hgroup with hold | hconcerns
        · rw [groupOf, hx, Option.bind_some] at hold
          exact .inl hold
        · exact .inr hconcerns
      · exact .inr (Stint.concerns_of_concerns hconcerns hwork fun begun hstage =>
          (hjoining g begun hstage).resolve_right (by rw [hg]; exact Bool.noConfusion))
    rw [← htask, ← hwork, hgeneration]
    rcases hc.bench s hs x hx hbefore with hcancelled | hrest
    · exact .inl (hstays hcancelled)
    · exact .inr hrest
  · rcases hconcerns with hin | hconcerns
    · rw [hnone y hy] at hin
      cases hin
    · refine .inr (.inr (.inl (hc.unready c _ _ at_ ?_)))
      rw [Stint.concerns, hgiven, Bool.or_false] at hconcerns
      exact eq_of_beq hconcerns

/-- A member is cancelled, if it is still the incarnation that was taken down. -/
def strikeMember (w : Workshop V) (m : Member) : Workshop V :=
  match w.engine.task? m.task with
  | some x => if x.carries m.generation then w.strike m.task else w
  | none => w

theorem strikeMember_cases (w : Workshop V) (m : Member) :
    (w.strikeMember m = w ∧ ∀ x, w.engine.task? m.task = some x → x.carries m.generation = false) ∨
    w.strikeMember m = w.strike m.task ∧
      ∃ x, w.engine.task? m.task = some x ∧ x.carries m.generation = true := by
  unfold strikeMember
  split
  · next x hx =>
      cases hc : x.carries m.generation with
      | false =>
          refine .inl ⟨rfl, fun y hy => ?_⟩
          rw [hx] at hy
          cases hy
          exact hc
      | true => exact .inr ⟨rfl, x, hx, hc⟩
  · next hx =>
      refine .inl ⟨rfl, fun y hy => ?_⟩
      rw [hx] at hy
      cases hy

/-- What the engine does to cancel a member: it is released besides. -/
theorem nudged_strikeMember (w : Workshop V) (m : Member) (now : Nanos) :
    Relation.ReflTransGen Nudged (w.strikeMember m)
      (w.put (w.engine.cancelTask now m.task m.generation).1) := by
  rcases w.strikeMember_cases m with ⟨hsame, hother⟩ | ⟨hstruck, x, hx, hc⟩
  · have hcancel : (w.engine.cancelTask now m.task m.generation).1 = w.engine := by
      unfold cancelTask Task.cancel
      split
      · rfl
      · next x hx =>
          rw [hother x hx]
          rfl
    rw [hsame, hcancel]
    exact .refl
  · rw [hstruck]
    have hinternal := nudged_release (task?_strike hx) .internal
    have huser := nudged_release (task?_release (task?_strike hx) .internal) .user
    exact .trans (.tail (.single hinternal) huser) (nudged_cancelTask hx hc now)

theorem sound_strikeMember (h : Sound w) (m : Member) : Sound (w.strikeMember m) := by
  rcases w.strikeMember_cases m with ⟨hsame, -⟩ | ⟨hstruck, -⟩
  · rw [hsame]
    exact h
  · rw [hstruck]
    exact h.aside (aside_strike w m.task)

theorem ordered_strikeMember (h : Sound w) (m : Member) : Ordered w (w.strikeMember m) := by
  rcases w.strikeMember_cases m with ⟨hsame, -⟩ | ⟨hstruck, -⟩
  · rw [hsame]
    exact (Onward.refl w).ordered (.refl _)
  · rw [hstruck]
    exact ((aside_strike w m.task).onward h).ordered (sameRolls_updateTask fun _ _ => rfl)

theorem Cleared.strike {census : Census} {left : List Member} (hc : Cleared w g census left)
    (h : Sound w) (m : Member) : Cleared (w.strikeMember m) g census (left.erase m) := by
  rcases w.strikeMember_cases m with ⟨hsame, hother⟩ | ⟨hstruck, x, hx, -⟩
  · rw [hsame]
    refine ⟨hc.unready, fun s hs y hy hconcerns => ?_⟩
    rcases hc.bench s hs y hy hconcerns with hcancelled | hleft | hrest
    · exact .inl hcancelled
    · refine .inr (.inl ((List.mem_erase_of_ne ?_).mpr hleft))
      -- Who has work is the incarnation that it is.
      rintro rfl
      obtain ⟨z, hz, halive⟩ := h.alive hs
      have hcarries := hother y hy
      rw [hy] at hz
      cases hz
      rw [Task.carries, beq_self_eq_true, halive] at hcarries
      cases hcarries
    · exact .inr (.inr hrest)
  · rw [hstruck]
    refine ⟨hc.unready, fun s hs y hy hconcerns => ?_⟩
    by_cases htask : s.task = m.task
    · rw [htask, task?_strike hx] at hy
      cases hy
      exact .inl rfl
    · have hold : w.engine.task? s.task = some y := by
        rw [← hy]
        exact (if_neg htask ▸ task?_updateTask w.engine m.task s.task _).symm
      rcases hc.bench s hs y hold hconcerns with hcancelled | hleft | hrest
      · exact .inl hcancelled
      · exact .inr (.inl ((List.mem_erase_of_ne fun heq => htask (congrArg Member.task heq)).mpr
          hleft))
      · exact .inr (.inr hrest)

end Workshop

/-- A workshop with those who destroy groups. -/
structure Purge (V : Type) where
  shop : Workshop V
  closings : List Closing := []

namespace Purge

open Engine

variable {V : Type} {r r' : Purge V} {w : Workshop V} {k : Closing} {g : GroupId} {n : ClosingStage}
  {G : ControlGroup}

/-- The engine of a purge. -/
abbrev engine (r : Purge V) : Engine V := r.shop.engine

/-- The destruction of a group gets on. -/
def advance (r : Purge V) (k : Closing) (n : ClosingStage) : Purge V :=
  { r with closings := { k with stage := n } :: r.closings.erase k }

/-- What can happen at once. Whoever destroys a group that was destroyed before does nothing, and
whoever runs out of time while members are left does nothing more. -/
inductive Step : Purge V → Purge V → Prop
  | aside {r : Purge V} {w : Workshop V} (h : r.shop.Aside w) (rolls : r.engine.SameRolls w.engine) :
      Step r { r with shop := w }
  | work {r : Purge V} {w : Workshop V} (h : r.shop.Work w) : Step r { r with shop := w }
  /-- Work is accepted; who submits it from inside is a task that has work. -/
  | place {r : Purge V} (caller : Option TaskId) (name : String) (group : Option GroupId)
      (here : ∀ t, caller = some t → ∃ s ∈ r.shop.bench, s.task = t) :
      Step r { r with shop := r.shop.place caller name group }
  -- The destruction of a group
  | close {r : Purge V} {g : GroupId} {G : ControlGroup} (found : r.engine.groups[g]? = some G)
      (stands : G.destroyed = false) :
      Step r { shop := r.shop.close g, closings := ⟨g, .closed⟩ :: r.closings }
  /-- The members are taken down, all but the task that destroys the group. -/
  | census {r : Purge V} {k : Closing} {G : ControlGroup} (caller : Option TaskId)
      (own : Option JobId) (on : k ∈ r.closings) (stage : k.stage = .closed)
      (found : r.engine.groups[k.group]? = some G)
      (here : ∀ t, caller = some t → ∃ s ∈ r.shop.bench, s.task = t ∧ own = some s.work.job) :
      Step r (r.advance k (.striking
        ⟨caller, own, (G.others caller).length, r.shop.strays k.group⟩ (G.others caller)))
  | strike {r : Purge V} {k : Closing} {census : Census} {left : List Member} {m : Member}
      (on : k ∈ r.closings) (stage : k.stage = .striking census left) (next : m ∈ left) :
      Step r { r.advance k (.striking census (left.erase m)) with shop := r.shop.strikeMember m }
  /-- The destruction returns. -/
  | finish {r : Purge V} {k : Closing} {census : Census} {G : ControlGroup} (on : k ∈ r.closings)
      (stage : k.stage = .striking census []) (found : r.engine.groups[k.group]? = some G)
      (alone : G.others census.caller = []) : Step r (r.advance k (.returned census))

/-- What can be reached from an engine that starts with new groups. -/
inductive Reached : Purge V → Prop
  | start {config : Config} {processors : Nat} {groups : List ControlGroup} {pump : EventPump}
      {e : Engine V} (h : Engine.start config processors groups pump = .ok e)
      (opened : ∀ G ∈ groups, G.IsNew) : Reached { shop := { floor := Floor.quiet e } }
  | step {r r' : Purge V} (h : Reached r) (s : Step r r') : Reached r'

/-- What the destruction of a group relies on as far as it is. -/
def Holds (w : Workshop V) (k : Closing) : Prop :=
  w.engine.isGone (some k.group) = true ∧ match k.stage with
    | .closed => True
    | .striking census left => w.Cleared k.group census left
    | .returned census => w.Cleared k.group census []

/-- What holds between any two steps. -/
structure Sound (r : Purge V) : Prop where
  shop : r.shop.Sound
  listed : Listed (· ≤ ·) r.engine
  closings : ∀ k ∈ r.closings, Holds r.shop k

theorem Holds.ordered (h : Holds w k) {w' : Workshop V} (ho : w.Ordered w') : Holds w' k := by
  obtain ⟨hgone, hstage⟩ := h
  refine ⟨ho.gone _ hgone, ?_⟩
  cases hk : k.stage with
  | closed => trivial
  | striking census left =>
      rw [hk] at hstage
      exact ho.cleared hgone hstage
  | returned census =>
      rw [hk] at hstage
      exact ho.cleared hgone hstage

namespace Sound

theorem start {config : Config} {processors : Nat} {groups : List ControlGroup} {pump : EventPump}
    {e : Engine V} (h : Engine.start config processors groups pump = .ok e)
    (opened : ∀ G ∈ groups, G.IsNew) : Sound { shop := { floor := Floor.quiet e } } :=
  ⟨.start h, Membership.listed_start h opened, fun _ hk => (List.not_mem_nil hk).elim⟩

theorem ordered (h : Sound r) (ho : r.shop.Ordered w) (hw : w.Sound) :
    Sound { r with shop := w } :=
  ⟨hw, ho.listed h.listed, fun k hk => (h.closings k hk).ordered ho⟩

theorem aside (h : Sound r) (ha : r.shop.Aside w) (hrolls : r.engine.SameRolls w.engine) :
    Sound { r with shop := w } :=
  h.ordered ((ha.onward h.shop).ordered hrolls) (h.shop.aside ha)

theorem advance (h : Sound r) (hn : Holds r.shop { k with stage := n }) :
    Sound (r.advance k n) := by
  refine ⟨h.shop, h.listed, fun k' hk' => ?_⟩
  cases hk' with
  | head => exact hn
  | tail _ hk' => exact h.closings k' (List.mem_of_mem_erase hk')

theorem strike (h : Sound r) (m : Member) : Sound { r with shop := r.shop.strikeMember m } :=
  h.ordered (Workshop.ordered_strikeMember h.shop m) (Workshop.sound_strikeMember h.shop m)

theorem step (h : Sound r) (hs : Step r r') : Sound r' := by
  cases hs with
  | aside ha rolls => exact h.aside ha rolls
  | work hw => exact h.ordered (hw.ordered h.shop) (h.shop.work hw)
  | place caller name group here =>
      exact h.ordered (Workshop.ordered_place r.shop caller name group)
        (h.shop.place here name group)
  | @close g G found stands =>
      obtain ⟨hshop, hlisted, hclosings⟩ :=
        h.aside (r.shop.aside_close g) (r.shop.sameRolls_close g)
      refine ⟨hshop, hlisted, fun k hk => ?_⟩
      cases hk with
      | head => exact ⟨isGone_iff.mpr ⟨_, Workshop.groups_close found, rfl⟩, trivial⟩
      | tail _ hk => exact hclosings k hk
  | census caller own on stage found here =>
      obtain ⟨hgone, -⟩ := h.closings _ on
      exact h.advance ⟨hgone, h.shop.cleared h.listed found here⟩
  | @strike k census left m on stage next =>
      obtain ⟨hgone, hcleared⟩ := h.closings k on
      rw [stage] at hcleared
      have hstruck := h.strike m
      exact hstruck.advance ⟨(hstruck.closings k on).1, hcleared.strike h.shop m⟩
  | finish on stage =>
      obtain ⟨hgone, hcleared⟩ := h.closings _ on
      rw [stage] at hcleared
      exact h.advance ⟨hgone, hcleared⟩

end Sound

theorem Reached.sound (h : Reached r) : Sound r := by
  induction h with
  | start hstart opened => exact .start hstart opened
  | step _ hs ih => exact ih.step hs

/-! ## What an engine does -/

theorem advance_cons (w : Workshop V) (k : Closing) (closings : List Closing) (n : ClosingStage) :
    ({ shop := w, closings := k :: closings } : Purge V).advance k n =
      { shop := w, closings := { k with stage := n } :: closings } := by
  simp only [advance, List.erase_cons_head]

theorem Reached.nudged {w' : Workshop V} (h : Reached { r with shop := w })
    (hn : Relation.ReflTransGen Workshop.Nudged w w') : Reached { r with shop := w' } := by
  induction hn with
  | refl => exact h
  | tail _ hn ih => exact ih.step (.aside hn.1 hn.2.sameRolls)

theorem Reached.strikeAll {census : Census} {left : List Member} {closings : List Closing}
    (now : Nanos) (h : Reached { shop := w, closings := ⟨g, .striking census left⟩ :: closings }) :
    Reached {
      shop := w.put (left.foldl (fun e m => (e.cancelTask now m.task m.generation).1) w.engine)
      closings := ⟨g, .striking census []⟩ :: closings } := by
  induction left generalizing w with
  | nil => exact h
  | cons m left ih =>
      have hstrike := h.step (.strike (.head _) rfl (.head _))
      rw [advance_cons, List.erase_cons_head] at hstrike
      exact ih (Reached.nudged (r := ⟨w, _⟩) hstrike (w.nudged_strikeMember m now))

/-- A destruction that nobody interrupts is that of the engine. -/
theorem Reached.destroy (h : Reached r) (now : Nanos) (found : r.engine.groups[g]? = some G)
    (stands : G.destroyed = false) {caller : Option TaskId} {own : Option JobId}
    (here : ∀ t, caller = some t → ∃ s ∈ r.shop.bench, s.task = t ∧ own = some s.work.job) :
    ∃ members, G.close caller = ({ G with destroyed := true }, some members) ∧ Reached {
      shop := r.shop.put
        (members.foldl (fun e m => (e.cancelTask now m.task m.generation).1) (r.shop.close g).engine)
      closings := ⟨g, .striking ⟨caller, own, members.length, r.shop.strays g⟩ []⟩ :: r.closings } := by
  refine ⟨G.others caller, by rw [ControlGroup.close, stands]; rfl, ?_⟩
  have hclosed := h.step (.close found stands)
  have hcensus := hclosed.step
    (.census caller own (.head _) rfl (Workshop.groups_close found) here)
  rw [advance_cons] at hcensus
  exact hcensus.strikeAll now

theorem Reached.later (h : Reached r) (hlater : Relation.ReflTransGen Step r r') : Reached r' := by
  induction hlater with
  | refl => exact h
  | tail _ hs ih => exact ih.step hs

/-! ## Members are cancelled -/

theorem Step.ordered (hs : Step r r') (h : Sound r) : r.shop.Ordered r'.shop := by
  cases hs with
  | aside ha rolls => exact (ha.onward h.shop).ordered rolls
  | work hw => exact hw.ordered h.shop
  | place caller name group => exact Workshop.ordered_place r.shop caller name group
  | @close g => exact ((r.shop.aside_close g).onward h.shop).ordered (r.shop.sameRolls_close g)
  | @strike _ _ _ m => exact Workshop.ordered_strikeMember h.shop m
  | census | finish => exact (Workshop.Onward.refl r.shop).ordered (.refl _)

/-- What a destruction that is over has reached stays reached. -/
theorem Reached.cleared_later (h : Reached r) {census : Census}
    (hgone : r.engine.isGone (some g) = true) (hcleared : r.shop.Cleared g census [])
    (hlater : Relation.ReflTransGen Step r r') :
    r'.engine.isGone (some g) = true ∧ r'.shop.Cleared g census [] := by
  induction hlater with
  | refl => exact ⟨hgone, hcleared⟩
  | tail hbefore hs ih =>
      have ho := hs.ordered (h.later hbefore).sound
      exact ⟨ho.gone g ih.1, ho.cleared ih.1 ih.2⟩

/-- When all members that were taken down were cancelled, and ever after, no carrier begins work of
the group, and a task that is in the group or has work of it is cancelled; but for work that was
begun before the members were taken down and was not that of a member, and for the work of the task
that destroys the group. -/
theorem Reached.destruction_cancels (h : Reached r) (hk : k ∈ r.closings) {census : Census}
    (hover : k.stage = .striking census [] ∨ k.stage = .returned census)
    (hlater : Relation.ReflTransGen Step r r') :
    (∀ s ∈ r'.shop.bench, ∀ x, r'.engine.task? s.task = some x →
      (x.group = some k.group ∨ s.work.group = some k.group) →
        x.cancelled = true ∨ s.work.job ∈ census.strays ∨ census.own = some s.work.job) ∧
    ∀ a : Submission, a.group = some k.group → r'.engine.isMoot a = true ∧
      ∀ (c : Nat) t, r'.shop.floor.phases[c]? = some (Phase.readying t a) →
        a.job ∈ census.strays := by
  obtain ⟨hgone, hstage⟩ := h.sound.closings k hk
  have hcleared : r.shop.Cleared k.group census [] := by
    rcases hover with hstriking | hreturned
    · rw [hstriking] at hstage
      exact hstage
    · rw [hreturned] at hstage
      exact hstage
  obtain ⟨hgone', hcleared'⟩ := h.cleared_later hgone hcleared hlater
  refine ⟨fun s hs x hx hof => ?_, fun a ha => ⟨?_, fun c t at_ => hcleared'.unready c t a at_ ha⟩⟩
  · have hconcerns : x.group = some k.group ∨ s.concerns k.group = true := by
      rcases hof with hin | hgroup
      · exact .inl hin
      · exact .inr (by rw [Stint.concerns, hgroup, beq_self_eq_true, Bool.true_or])
    rcases hcleared'.bench s hs x hx hconcerns with hcancelled | hleft | hrest
    · exact .inl hcancelled
    · cases hleft
    · exact .inr hrest
  · rw [isMoot, ha, hgone', Bool.or_true]

/-- A member that runs is cancelled when its group is destroyed. -/
theorem destruction_cancels_member : ∃ (r : Purge Unit) (k : Closing) (census : Census) (s : Stint)
    (x : Task), Reached r ∧ k ∈ r.closings ∧ k.stage = .striking census [] ∧ s ∈ r.shop.bench ∧
      s.stage = .running ∧ r.engine.task? s.task = some x ∧ x.group = some k.group ∧
      x.cancelled = true := by
  have h0 := Reached.start (V := Unit)
    (show Engine.start {} 1 [{ bucket := Bucket.full 10 100 0 }] .absent = .ok _ from rfl)
    (fun G hG => ⟨10, 100, 0, by rw [List.mem_singleton.mp hG]; rfl⟩)
  have h1 := h0.step (.place none "work" (some 0) nofun)
  have h2 := h1.step (.work (.take (c := 0) (s := ⟨0, "work", some 0⟩) rfl (.shared rfl rfl)))
  have h3 := h2.step (.work (.obtain (c := 0) rfl rfl .fresh))
  have h4 := h3.step (.work (.give (c := 0) rfl))
  have h5 := h4.step (.work (.bind (.head _) rfl rfl))
  have h6 := h5.step (.work (.knock (.head _) rfl rfl rfl))
  have h7 := h6.step (.work (.enroll 4 (.head _) rfl))
  have h8 := h7.step (.aside (Workshop.aside_move (.switchIn (c := 0) 5 rfl rfl rfl rfl) rfl rfl
    (nudges_switchIn _ 5 0 ⟨0⟩).steady rfl) (nudges_switchIn _ 5 0 ⟨0⟩).sameRolls)
  have h9 := h8.step (.work (.run (c := 0) (.head _) rfl rfl))
  have h10 := h9.step (.close (g := 0) rfl rfl)
  have h11 := h10.step (.census none none (.head _) rfl rfl nofun)
  have h12 := h11.step (.strike (m := ⟨⟨0⟩, 1⟩) (.head _) rfl (.head _))
  obtain ⟨hcancelled, -⟩ := h12.destruction_cancels (.head _) (.inl rfl) .refl
  rcases hcancelled _ (.head _) _ rfl (.inl rfl) with hc | hstray | hown
  · exact ⟨_, _, _, _, _, h12, .head _, rfl, .head _, rfl, rfl, rfl, hc⟩
  · exact absurd hstray (by decide)
  · cases hown

/-- What a destruction does not reach: a task that found the group open gets into it after all
members were cancelled; work that was begun runs unmetered after the destruction has returned; and
so does that of a member which has left. -/
theorem destruction_gaps :
    (∃ (r : Purge Unit) (k : Closing) (census : Census) (s : Stint) (x : Task), Reached r ∧
      k ∈ r.closings ∧ k.stage = .striking census [] ∧ census.own = none ∧ s ∈ r.shop.bench ∧
      r.engine.task? s.task = some x ∧ x.group = some k.group ∧ x.cancelled = false) ∧
    (∃ (r : Purge Unit) (k : Closing) (census : Census) (s : Stint) (x : Task), Reached r ∧
      k ∈ r.closings ∧ k.stage = .returned census ∧ census.own = none ∧ s ∈ r.shop.bench ∧
      s.stage = .running ∧ s.work.group = some k.group ∧ r.engine.task? s.task = some x ∧
      x.group = none ∧ x.cancelled = false) ∧
    ∃ (r₀ r : Purge Unit) (k : Closing) (census : Census) (s : Stint) (x₀ x : Task), Reached r₀ ∧
      s ∈ r₀.shop.bench ∧ r₀.engine.task? s.task = some x₀ ∧ x₀.group = some k.group ∧
      Relation.ReflTransGen Step r₀ r ∧ k ∈ r.closings ∧ k.stage = .returned census ∧
      census.own = none ∧ s ∈ r.shop.bench ∧ s.stage = .running ∧ s.work.group = some k.group ∧
      r.engine.task? s.task = some x ∧ x.cancelled = false := by
  -- A run from a state that was reached by the steps above it.
  have hrun : ∀ {r : Purge Unit}, Reached r → Relation.ReflTransGen Step r r := fun _ => .refl
  have h0 := Reached.start (V := Unit)
    (show Engine.start {} 1 [{ bucket := Bucket.full 10 100 0 }] .absent = .ok _ from rfl)
    (fun G hG => ⟨10, 100, 0, by rw [List.mem_singleton.mp hG]; rfl⟩)
  have h1 := h0.step (.place none "work" (some 0) nofun)
  have h2 := h1.step (.work (.take (c := 0) (s := ⟨0, "work", some 0⟩) rfl (.shared rfl rfl)))
  have h3 := h2.step (.work (.obtain (c := 0) rfl rfl .fresh))
  have h4 := h3.step (.work (.give (c := 0) rfl))
  have h5 := h4.step (.work (.bind (.head _) rfl rfl))
  refine ⟨?_, ?_, ?_⟩
  -- The task finds the group open, and is not in its list yet when the members are taken down.
  · have h6 := h5.step (.work (.knock (.head _) rfl rfl rfl))
    have h7 := h6.step (.close (g := 0) rfl rfl)
    have h8 := h7.step (.census none none (.head _) rfl rfl nofun)
    have h9 := h8.step (.work (.enroll 4 (.head _) rfl))
    exact ⟨_, _, _, _, _, h9, .head _, rfl, rfl, .head _, rfl, rfl, rfl⟩
  -- The work was begun, and the task finds the group closed.
  · have h6 := h5.step (.close (g := 0) rfl rfl)
    have h7 := h6.step (.census none none (.head _) rfl rfl nofun)
    have h8 := h7.step (.finish (.head _) rfl rfl rfl)
    have h9 := h8.step (.work (.pass (.head _) rfl (.inr rfl)))
    have h10 := h9.step (.aside (Workshop.aside_move (.switchIn (c := 0) 5 rfl rfl rfl rfl) rfl rfl
      (nudges_switchIn _ 5 0 ⟨0⟩).steady rfl) (nudges_switchIn _ 5 0 ⟨0⟩).sameRolls)
    have h11 := h10.step (.work (.run (c := 0) (.head _) rfl rfl))
    exact ⟨_, _, _, _, _, h11, .head _, rfl, rfl, .head _, rfl, rfl, rfl, rfl, rfl⟩
  -- The task leaves the group before its work is over.
  · have h6 := h5.step (.work (.knock (.head _) rfl rfl rfl))
    have h7 := h6.step (.work (.enroll 4 (.head _) rfl))
    have h8 := h7.step (.aside (Workshop.aside_move (.switchIn (c := 0) 5 rfl rfl rfl rfl) rfl rfl
      (nudges_switchIn _ 5 0 ⟨0⟩).steady rfl) (nudges_switchIn _ 5 0 ⟨0⟩).sameRolls)
    have h9 := h8.step (.work (.run (c := 0) (.head _) rfl rfl))
    have h10 := (hrun h9).tail (.work (.detach (c := 0) (g := 0) 6 (.head _) (.inl rfl) rfl))
    have h11 := h10.tail (.close (g := 0) rfl rfl)
    have h12 := h11.tail (.census none none (.head _) rfl rfl nofun)
    have h13 := h12.tail (.finish (.head _) rfl rfl rfl)
    exact ⟨_, _, _, _, _, _, _, h9, .head _, rfl, rfl, h13, .head _, rfl, rfl, .head _, rfl, rfl,
      rfl, rfl⟩

end Purge

end GreenThreads

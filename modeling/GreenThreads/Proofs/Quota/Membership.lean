import GreenThreads.Proofs.Engine.Records
import GreenThreads.Proofs.Floor.Work

/-!
# Members of groups

That a task is in a group is noted twice: the task has a slot for its group, and the group lists the
incarnation in which the task joined. Joining and leaving write both. New work clears the slot and
begins another incarnation, but it does not touch the list. So the two agree on the present
incarnations; they agree on every entry if new work is only given to tasks that are in no group.
-/

namespace GreenThreads

/-- The present incarnation of a task, with its group. -/
def Task.place (t : Task) : TaskId × Nat × Option GroupId := (t.id, t.generation, t.group)

/-- A group that has had no members yet. -/
def ControlGroup.IsNew (g : ControlGroup) : Prop :=
  ∃ quota period now, ControlGroup.make quota period now = .ok g

theorem ControlGroup.IsNew.eq {g : ControlGroup} (h : g.IsNew) :
    ∃ quota period now, g = { bucket := Bucket.full quota period now } := by
  obtain ⟨quota, period, now, hmake⟩ := h
  unfold ControlGroup.make at hmake
  split at hmake
  · cases hmake
  · cases hmake
    exact ⟨quota, period, now, rfl⟩

/-! ## One task and one group -/

theorem Task.place_takeElapsed (x : Task) (now : Nanos) :
    (x.takeElapsed now).1.place = x.place := by
  unfold takeElapsed
  split <;> rfl

namespace ControlGroup

variable {g g' : ControlGroup} {id : GroupId} {x y : Task} {now : Nanos} {m : Member}

theorem mem_enroll : m ∈ (g.enroll x).members ↔
    (m ∈ g.members ∧ m.task ≠ x.id) ∨ m = { task := x.id, generation := x.generation } := by
  simp [enroll]

theorem mem_dismiss {t : TaskId} : m ∈ (g.dismiss t).members ↔ m ∈ g.members ∧ m.task ≠ t := by
  simp [dismiss]

/-- Either the task is in the group already, or it was in none and joins. -/
theorem attach_spec (h : g.attach id x now = .ok (g', y)) :
    (x.group = some id ∧ g' = g ∧ y = x) ∨
      (x.group = none ∧ y = { (x.takeElapsed now).1 with group := some id } ∧
        g' = g.enroll y) := by
  unfold attach at h
  split at h
  · cases h
  · split at h
    · next other hgroup =>
        split at h
        · next heq =>
            cases h
            exact .inl ⟨heq ▸ hgroup, rfl, rfl⟩
        · cases h
    · next hgroup =>
        cases h
        exact .inr ⟨hgroup, rfl, rfl⟩

theorem detach_of_ne (h : x.group ≠ some id) : g.detach id x now = (g, x) := if_neg h

theorem detach_of_eq (h : x.group = some id) :
    g.detach id x now = ((g.charge (x.takeElapsed now).2).dismiss (x.takeElapsed now).1.id,
      { (x.takeElapsed now).1 with group := none }) := if_pos h

end ControlGroup

namespace Engine

variable {V : Type} {e e' e'' : Engine V} {t : TaskId} {x y : Task} {g : GroupId}
  {r : Nat → Nat → Prop}

/-- The members of a group; there are none if there is no such group. -/
def membersOf (e : Engine V) (g : GroupId) : List Member := ((e.groups[g]?).map (·.members)).getD []

theorem membersOf_eq {G : ControlGroup} (h : e.groups[g]? = some G) :
    e.membersOf g = G.members := by
  simp only [membersOf, h, Option.map_some, Option.getD_some]

/-- `e'` has the tasks of `e` in the groups of `e`. -/
structure SameMembers (e e' : Engine V) : Prop where
  tasks : e'.tasks.map Task.place = e.tasks.map Task.place
  groups : e'.groups.map (·.members) = e.groups.map (·.members)

namespace SameMembers

theorem refl (e : Engine V) : SameMembers e e := ⟨rfl, rfl⟩

theorem trans (h : SameMembers e e') (h' : SameMembers e' e'') : SameMembers e e'' :=
  ⟨h'.tasks.trans h.tasks, h'.groups.trans h.groups⟩

theorem membersOf (h : SameMembers e e') (g : GroupId) : e'.membersOf g = e.membersOf g := by
  have hget := congrArg (·[g]?) h.groups
  simp only [Array.getElem?_map] at hget
  simp only [Engine.membersOf, hget]

theorem exists_task {x' : Task} (h : SameMembers e e') (hx : e'.task? t = some x') :
    ∃ x, e.task? t = some x ∧ x'.place = x.place := exists_of_map_eq h.tasks hx

end SameMembers

theorem SameRecords.sameMembers (h : SameRecords e e') : SameMembers e e' := by
  refine ⟨?_, by rw [h.groups]⟩
  have hplace := congrArg (Array.map Task.place) h.tasks
  simp only [Array.map_map] at hplace
  exact hplace

theorem task?_put (hx : e.task? t = some x) (y : Task) (u : TaskId) :
    (e.updateTask t fun _ => y).task? u = if u = t then some y else e.task? u := by
  rw [task?_updateTask]
  split
  · next hu => rw [hu, hx, Option.map_some]
  · rfl

theorem membersOf_putGroup {G : ControlGroup} (hG : e.groups[g]? = some G) (G' : ControlGroup)
    (k : GroupId) : (e.updateGroup g fun _ => G').membersOf k =
      if k = g then G'.members else e.membersOf k := by
  simp only [membersOf, updateGroup, Array.getElem?_modify]
  split
  · next hk => rw [if_pos hk.symm, ← hk, hG]; rfl
  · next hk => rw [if_neg (Ne.symm hk)]

@[simp] theorem membersOf_updateTask {f : Task → Task} :
    (e.updateTask t f).membersOf g = e.membersOf g := rfl

theorem sameMembers_updateTask {f : Task → Task} (h : ∀ x, (f x).place = x.place) :
    SameMembers e (e.updateTask t f) := ⟨map_updateTask h, rfl⟩

theorem sameMembers_updateGroup {f : ControlGroup → ControlGroup}
    (h : ∀ G, e.groups[g]? = some G → (f G).members = G.members) :
    SameMembers e (e.updateGroup g f) := ⟨rfl, map_modify_of_eq h⟩

theorem sameMembers_put {G G' : ControlGroup} (hx : e.task? t = some x)
    (hG : e.groups[g]? = some G) (hmembers : G'.members = G.members) (hplace : y.place = x.place) :
    SameMembers e ((e.updateGroup g fun _ => G').updateTask t fun _ => y) := by
  have hgroup : SameMembers e (e.updateGroup g fun _ => G') := by
    refine sameMembers_updateGroup fun G₁ hG₁ => ?_
    rw [hG] at hG₁
    cases hG₁
    exact hmembers
  exact ⟨map_put hx hplace, hgroup.groups⟩

theorem members_charge (G : ControlGroup) (used : Nanos) : (G.charge used).members = G.members := rfl

theorem sameMembers_accountRun (e : Engine V) (now : Nanos) (t : TaskId) :
    SameMembers e (e.accountRun now t) := by
  unfold accountRun
  split
  · exact .refl e
  · next x hx =>
      have hput : SameMembers e (e.updateTask t fun _ => (x.takeElapsed now).1) :=
        ⟨map_put hx (x.place_takeElapsed now), rfl⟩
      dsimp only
      split
      · exact hput.trans (sameMembers_updateGroup fun G _ => members_charge G _)
      · exact ⟨hput.tasks, rfl⟩

theorem sameMembers_recycle (e : Engine V) (c : Nat) (t : TaskId) :
    SameMembers e (e.recycle c t) := by
  have hcached : SameMembers e (e.updateTask t ({ · with status := .cached })) :=
    sameMembers_updateTask fun _ => rfl
  unfold recycle
  dsimp only
  split
  · exact ⟨hcached.tasks, rfl⟩
  · split
    · exact ⟨hcached.tasks, rfl⟩
    · refine hcached.trans (SameMembers.trans ?_ (sameRecords_count _ rfl).sameMembers)
      exact sameMembers_updateTask fun _ => rfl

theorem sameMembers_finish (e : Engine V) (now : Nanos) (c : Nat) (t : TaskId) :
    SameMembers e
      (({ e with live := e.live.filter (· != t) }.finishOne.recycle c t).switchOut now c) := by
  have hover : SameMembers e { e with live := e.live.filter (· != t) }.finishOne := ⟨rfl, rfl⟩
  exact (hover.trans (sameMembers_recycle _ c t)).trans (sameRecords_switchOut _ now c).sameMembers

theorem sameMembers_settle (e : Engine V) (now : Nanos) (t : TaskId) :
    SameMembers e (((e.unregisterChannel t).disarm t).accountRun now t) :=
  ((sameRecords_unregisterChannel e t).trans (sameRecords_disarm _ t)).sameMembers.trans
    (sameMembers_accountRun _ now t)

/-! ## Lists and slots -/

/-- The groups list the present incarnation of a task exactly if its slot names them; an entry and
the present incarnation are related by `r`. -/
structure Listed (r : Nat → Nat → Prop) (e : Engine V) : Prop where
  ids : ∀ t x, e.task? t = some x → x.id = t
  iff_slot : ∀ t x g, e.task? t = some x →
    (⟨t, x.generation⟩ ∈ e.membersOf g ↔ x.group = some g)
  entries : ∀ g m, m ∈ e.membersOf g → ∃ x, e.task? m.task = some x ∧ r m.generation x.generation

namespace Listed

/-- Only the task `t` and its own entries change. -/
theorem change (h : Listed r e) (htasks : ∀ u, e'.task? u = if u = t then some y else e.task? u)
    (hothers : ∀ k m, m.task ≠ t → (m ∈ e'.membersOf k ↔ m ∈ e.membersOf k)) (hid : y.id = t)
    (hslot : ∀ k, ⟨t, y.generation⟩ ∈ e'.membersOf k ↔ y.group = some k)
    (hentry : ∀ k m, m ∈ e'.membersOf k → m.task = t → r m.generation y.generation) :
    Listed r e' := by
  refine ⟨?_, ?_, ?_⟩
  · intro u z hz
    rw [htasks] at hz
    split at hz
    · next hu => cases hz; exact hid.trans hu.symm
    · exact h.ids u z hz
  · intro u z k hz
    rw [htasks] at hz
    split at hz
    · next hu => cases hz; exact hu ▸ hslot k
    · next hu => exact (hothers k ⟨u, z.generation⟩ hu).trans (h.iff_slot u z k hz)
  · intro k m hm
    rw [htasks]
    split
    · next hu => exact ⟨y, rfl, hentry k m hm hu⟩
    · next hu => exact h.entries k m ((hothers k m hu).mp hm)

theorem same (h : Listed r e) (hs : SameMembers e e') : Listed r e' := by
  refine ⟨?_, ?_, ?_⟩
  · intro u z hz
    obtain ⟨x, hx, hplace⟩ := hs.exists_task hz
    exact (congrArg Prod.fst hplace).trans (h.ids u x hx)
  · intro u z k hz
    obtain ⟨x, hx, hplace⟩ := hs.exists_task hz
    have hgeneration : z.generation = x.generation := congrArg (·.2.1) hplace
    have hgroup : z.group = x.group := congrArg (·.2.2) hplace
    rw [hs.membersOf, hgeneration, hgroup]
    exact h.iff_slot u x k hx
  · intro k m hm
    rw [hs.membersOf] at hm
    obtain ⟨x, hx, hr⟩ := h.entries k m hm
    obtain ⟨z, hz, hplace⟩ := exists_of_map_eq hs.tasks.symm hx
    have hgeneration : x.generation = z.generation := congrArg (·.2.1) hplace
    exact ⟨z, hz, hgeneration ▸ hr⟩

theorem make (h : Listed r e) : Listed r e.makeTask.1 := by
  have hsize : e.task? e.makeTask.2 = none := Array.getElem?_eq_none (Nat.le_refl _)
  have hnew : ∀ k m, m ∈ e.membersOf k → m.task ≠ e.makeTask.2 := by
    intro k m hm heq
    obtain ⟨x, hx, -⟩ := h.entries k m hm
    rw [heq, hsize] at hx
    cases hx
  refine ⟨?_, ?_, ?_⟩
  · intro u z hz
    rw [task?_makeTask] at hz
    split at hz
    · cases hz; rfl
    · exact h.ids u z hz
  · intro u z k hz
    rw [task?_makeTask] at hz
    split at hz
    · next hu =>
        cases hz
        refine ⟨fun hm => absurd hu (hnew k _ hm), fun hgroup => ?_⟩
        cases hgroup
    · exact h.iff_slot u z k hz
  · intro k m hm
    rw [task?_makeTask, if_neg (hnew k m hm)]
    exact h.entries k m hm

/-- The task joins the group, where an entry of an earlier incarnation makes place for it. -/
theorem enroll (h : Listed r e) (hr : ∀ n, r n n) {G : ControlGroup} (hx : e.task? t = some x)
    (hG : e.groups[g]? = some G) (hnone : x.group = none)
    (hy : y.place = (t, x.generation, some g)) :
    Listed r ((e.updateGroup g fun _ => G.enroll y).updateTask t fun _ => y) := by
  have hid : y.id = t := congrArg Prod.fst hy
  have hgeneration : y.generation = x.generation := congrArg (·.2.1) hy
  have hgroup : y.group = some g := congrArg (·.2.2) hy
  have hmembers : ∀ k m, m ∈ (e.updateGroup g fun _ => G.enroll y).membersOf k ↔
      (m ∈ e.membersOf k ∧ (k = g → m.task ≠ t)) ∨ (k = g ∧ m = ⟨t, x.generation⟩) := by
    intro k m
    rw [membersOf_putGroup hG]
    split
    · next hk => rw [ControlGroup.mem_enroll, hid, hgeneration, hk, membersOf_eq hG]; simp
    · next hk => simp [hk]
  refine h.change (task?_put hx y) ?_ hid ?_ ?_
  · intro k m hm
    rw [membersOf_updateTask, hmembers]
    have hne : m ≠ ⟨t, x.generation⟩ := fun he => hm (congrArg Member.task he)
    simp [hm, hne]
  · intro k
    rw [membersOf_updateTask, hmembers, hgeneration, hgroup, h.iff_slot t x k hx, hnone]
    simp [eq_comm]
  · intro k m hm hmt
    rw [membersOf_updateTask, hmembers] at hm
    rw [hgeneration]
    rcases hm with ⟨hm, -⟩ | ⟨-, rfl⟩
    · obtain ⟨x', hx', hold⟩ := h.entries k m hm
      rw [hmt, hx] at hx'
      cases hx'
      exact hold
    · exact hr x.generation

/-- The task leaves its group, and with it goes every entry of the task there. -/
theorem dismiss (h : Listed r e) {G G' : ControlGroup} (hx : e.task? t = some x)
    (hG : e.groups[g]? = some G) (hin : x.group = some g)
    (hG' : ∀ m, m ∈ G'.members ↔ m ∈ G.members ∧ m.task ≠ t)
    (hy : y.place = (t, x.generation, none)) :
    Listed r ((e.updateGroup g fun _ => G').updateTask t fun _ => y) := by
  have hid : y.id = t := congrArg Prod.fst hy
  have hgeneration : y.generation = x.generation := congrArg (·.2.1) hy
  have hgroup : y.group = none := congrArg (·.2.2) hy
  have hmembers : ∀ k m, m ∈ (e.updateGroup g fun _ => G').membersOf k ↔
      m ∈ e.membersOf k ∧ (k = g → m.task ≠ t) := by
    intro k m
    rw [membersOf_putGroup hG]
    split
    · next hk => rw [hG', hk, membersOf_eq hG]; simp
    · next hk => simp [hk]
  refine h.change (task?_put hx y) ?_ hid ?_ ?_
  · intro k m hm
    rw [membersOf_updateTask, hmembers]
    simp [hm]
  · intro k
    rw [membersOf_updateTask, hmembers, hgeneration, hgroup, h.iff_slot t x k hx, hin]
    simp [eq_comm]
  · intro k m hm hmt
    rw [membersOf_updateTask, hmembers] at hm
    obtain ⟨x', hx', hold⟩ := h.entries k m hm.1
    rw [hmt, hx] at hx'
    cases hx'
    rw [hgeneration]
    exact hold

theorem attach (h : Listed r e) (hr : ∀ n, r n n) (now : Nanos) (t : TaskId) (g : GroupId) :
    Listed r (e.attach now t g).1 := by
  unfold Engine.attach
  split
  · next x G hx hG =>
      split
      · next G' y hattach =>
          rcases ControlGroup.attach_spec hattach with ⟨-, rfl, rfl⟩ | ⟨hnone, rfl, rfl⟩
          · exact h.same (sameMembers_put hx hG rfl rfl)
          · have hid : (x.takeElapsed now).1.id = t :=
              (congrArg Prod.fst (x.place_takeElapsed now)).trans (h.ids t x hx)
            have hgeneration : (x.takeElapsed now).1.generation = x.generation :=
              congrArg (·.2.1) (x.place_takeElapsed now)
            exact h.enroll hr hx hG hnone (Prod.ext hid (Prod.ext hgeneration rfl))
      · exact h
  · exact h

theorem detach (h : Listed r e) (now : Nanos) (t : TaskId) (g : GroupId) :
    Listed r (e.detach now t g) := by
  unfold Engine.detach
  split
  · next x G hx hG =>
      by_cases hin : x.group = some g
      · have hid : (x.takeElapsed now).1.id = t :=
          (congrArg Prod.fst (x.place_takeElapsed now)).trans (h.ids t x hx)
        have hgeneration : (x.takeElapsed now).1.generation = x.generation :=
          congrArg (·.2.1) (x.place_takeElapsed now)
        rw [ControlGroup.detach_of_eq hin]
        refine h.dismiss hx hG hin (fun m => ?_) (Prod.ext hid (Prod.ext hgeneration rfl))
        rw [ControlGroup.mem_dismiss, hid]
        rfl
      · rw [ControlGroup.detach_of_ne hin]
        exact h.same (sameMembers_put hx hG rfl rfl)
  · exact h

/-- New work finds no entry that could be taken for one of its own incarnation. -/
theorem reset (h : Listed r e) (hx : e.task? t = some x) (hcached : x.status = .cached)
    (hle : ∀ m n, r m n → m ≤ n) (hnext : ∀ g n, ⟨t, n⟩ ∈ e.membersOf g → r n (x.generation + 1))
    (name : String) (c : Nat) : Listed r (e.updateTask t fun x => (x.reset name c).1) := by
  have hy : (x.reset name c).1.place = (t, x.generation + 1, none) := by
    rw [← h.ids t x hx]
    simp only [Task.reset, hcached]
    split
    · rfl
    · split <;> rfl
  have hput : (e.updateTask t fun x => (x.reset name c).1) =
      e.updateTask t fun _ => (x.reset name c).1 := updateTask_congr hx rfl
  rw [hput]
  have hid : (x.reset name c).1.id = t := congrArg Prod.fst hy
  have hgeneration : (x.reset name c).1.generation = x.generation + 1 := congrArg (·.2.1) hy
  have hgroup : (x.reset name c).1.group = none := congrArg (·.2.2) hy
  refine h.change (task?_put hx _) (fun _ _ _ => Iff.rfl) hid ?_ ?_
  · intro k
    rw [hgeneration, hgroup, membersOf_updateTask]
    refine ⟨fun hm => ?_, fun hk => by cases hk⟩
    -- All entries that there are belong to incarnations before the new one.
    obtain ⟨x', hx', hold⟩ := h.entries k _ hm
    rw [hx] at hx'
    cases hx'
    exact absurd (hle _ _ hold) (Nat.not_succ_le_self _)
  · rintro k ⟨u, n⟩ hm rfl
    rw [hgeneration]
    exact hnext k n hm

theorem exit (h : Listed r e) (now : Nanos) (c : Nat) (t : TaskId) :
    Listed r (e.exit now c t) := by
  have hsettled := h.same (sameMembers_settle e now t)
  unfold Engine.exit
  dsimp only
  split
  · exact (hsettled.detach now t _).same (sameMembers_finish _ now c t)
  · exact hsettled.same (sameMembers_finish _ now c t)

end Listed

theorem mem_membersOf {m : Member} :
    m ∈ e.membersOf g ↔ ∃ G, e.groups[g]? = some G ∧ m ∈ G.members := by
  cases hG : e.groups[g]? with
  | none => simp [membersOf, hG]
  | some G => simp [membersOf_eq hG]

theorem hasMember_iff {G : ControlGroup} (hG : e.groups[g]? = some G) :
    G.hasMember t = true ↔ ∃ n, ⟨t, n⟩ ∈ e.membersOf g := by
  rw [membersOf_eq hG]
  simp only [ControlGroup.hasMember, List.any_eq_true, beq_iff_eq]
  constructor
  · rintro ⟨⟨u, n⟩, hm, rfl⟩
    exact ⟨n, hm⟩
  · rintro ⟨n, hm⟩
    exact ⟨_, hm, rfl⟩

theorem not_mem_detach (hx : e.task? t = some x) (hid : x.id = t) (hin : x.group = some g)
    (now : Nanos) {m : Member} (hm : m ∈ (e.detach now t g).membersOf g) : m.task ≠ t := by
  cases hG : e.groups[g]? with
  | none =>
      obtain ⟨G, hG', -⟩ := mem_membersOf.mp hm
      simp only [detach, hx, hG] at hG'
      cases hG'
  | some G =>
      simp only [detach, hx, hG, ControlGroup.detach_of_eq hin, membersOf_updateTask] at hm
      rw [membersOf_putGroup hG, if_pos rfl, ControlGroup.mem_dismiss] at hm
      have htaken : (x.takeElapsed now).1.id = x.id := congrArg Prod.fst (x.place_takeElapsed now)
      rw [← hid, ← htaken]
      exact hm.2

/-- The end of its work takes a task out of its group. -/
theorem not_mem_exit (hx : e.task? t = some x) (hid : x.id = t) (hin : x.group = some g)
    (now : Nanos) (c : Nat) {m : Member} (hm : m ∈ (e.exit now c t).membersOf g) :
    m.task ≠ t := by
  obtain ⟨y, hy, hplace⟩ := exists_of_map_eq (sameMembers_settle e now t).tasks.symm hx
  have hyid : y.id = t := (congrArg Prod.fst hplace).symm.trans hid
  have hyin : y.group = some g := (congrArg (·.2.2) hplace).symm.trans hin
  unfold exit at hm
  have hslot : ((((e.unregisterChannel t).disarm t).accountRun now t).task? t).bind (·.group) =
      some g := by
    rw [task?, hy]
    exact hyin
  simp only [hslot] at hm
  rw [(sameMembers_finish _ now c t).membersOf] at hm
  exact not_mem_detach hy hyid hyin now hm

end Engine

/-! ## Every sequence of steps -/

namespace Membership

variable {V : Type} {e e' : Engine V} {t : TaskId} {x : Task} {g : GroupId} {P : Task → Prop}

/-- What can happen to the tasks and the groups of an engine. Only tasks that fulfil `P` are given
new work. What runs in a group does so between an `attach` and a `detach`. -/
inductive Step (P : Task → Prop) : Engine V → Engine V → Prop
  /-- Anything that leaves slots, lists and incarnations as they are. -/
  | other {e e' : Engine V} (h : e.SameMembers e') : Step P e e'
  | make {e : Engine V} : Step P e e.makeTask.1
  | attach {e : Engine V} (now : Nanos) (t : TaskId) (g : GroupId) :
      Step P e (e.attach now t g).1
  | detach {e : Engine V} (now : Nanos) (t : TaskId) (g : GroupId) : Step P e (e.detach now t g)
  | reset {e : Engine V} {t : TaskId} {x : Task} (found : e.task? t = some x)
      (cached : x.status = .cached) (fit : P x) (name : String) (c : Nat) :
      Step P e (e.updateTask t fun x => (x.reset name c).1)
  | exit {e : Engine V} (now : Nanos) (c : Nat) (t : TaskId) : Step P e (e.exit now c t)
  /-- A group takes no more members. -/
  | close {e : Engine V} (g : GroupId) (caller : Option TaskId) :
      Step P e (e.updateGroup g fun G => (G.close caller).1)

/-- What can be reached from an engine that starts with new groups. -/
inductive Reached (P : Task → Prop) : Engine V → Prop
  | start {config : Config} {processors : Nat} {groups : List ControlGroup} {pump : EventPump}
      {e : Engine V} (h : Engine.start config processors groups pump = .ok e)
      (opened : ∀ G ∈ groups, G.IsNew) : Reached P e
  | step {e e' : Engine V} (h : Reached P e) (s : Step P e e') : Reached P e'

theorem members_close (G : ControlGroup) (caller : Option TaskId) :
    (G.close caller).1.members = G.members := by
  unfold ControlGroup.close
  split <;> rfl

section

variable {r : Nat → Nat → Prop}

theorem listed_start {config : Config} {processors : Nat} {groups : List ControlGroup}
    {pump : EventPump} (h : Engine.start config processors groups pump = .ok e)
    (hnew : ∀ G ∈ groups, G.IsNew) : e.Listed r := by
  have htask : ∀ u, e.task? u = none := by
    intro u
    rw [Engine.start_eq h]
    rfl
  refine ⟨?_, ?_, ?_⟩
  · intro u y hy
    rw [htask] at hy
    cases hy
  · intro u y k hy
    rw [htask] at hy
    cases hy
  · intro k m hm
    obtain ⟨G, hG, hm⟩ := Engine.mem_membersOf.mp hm
    rw [Engine.start_eq h] at hG
    obtain ⟨quota, period, now, rfl⟩ := (hnew G (List.mem_of_getElem? (by simpa using hG))).eq
    cases hm

/-- One proof for all entries and for those of the present incarnations. -/
theorem Reached.listed_of (h : Reached P e) (hr : ∀ n, r n n) (hle : ∀ m n, r m n → m ≤ n)
    (hnext : ∀ (e : Engine V) t x, e.Listed r → e.task? t = some x → P x →
      ∀ g n, ⟨t, n⟩ ∈ e.membersOf g → r n (x.generation + 1)) : e.Listed r := by
  induction h with
  | start h hnew => exact listed_start h hnew
  | step _ s ih =>
      cases s with
      | other h => exact ih.same h
      | make => exact ih.make
      | attach now t g => exact ih.attach hr now t g
      | detach now t g => exact ih.detach now t g
      | reset found cached fit name c =>
          exact ih.reset found cached hle (hnext _ _ _ ih found fit) name c
      | exit now c t => exact ih.exit now c t
      | close g caller =>
          exact ih.same (Engine.sameMembers_updateGroup fun G _ => members_close G caller)

end

theorem Reached.listed (h : Reached P e) : e.Listed (· ≤ ·) := by
  refine h.listed_of Nat.le_refl (fun _ _ => id) ?_
  intro e t x hl hx _ g n hm
  obtain ⟨x', hx', hle⟩ := hl.entries g _ hm
  rw [hx] at hx'
  cases hx'
  exact Nat.le_succ_of_le hle

theorem Reached.listed_present (h : Reached P e) (hP : ∀ x, P x → x.group = none) :
    e.Listed (· = ·) := by
  refine h.listed_of (fun _ => rfl) (fun _ _ => Nat.le_of_eq) ?_
  intro e t x hl hx hfit g n hm
  obtain ⟨x', hx', heq⟩ := hl.entries g _ hm
  rw [hx] at hx'
  cases hx'
  -- An entry of the task would be one of its present incarnation, which is in no group.
  have hslot := (hl.iff_slot t x g hx).mp (heq ▸ hm)
  rw [hP x hfit] at hslot
  cases hslot

/-- At any time the slot of a task names a group exactly if the group lists the present incarnation
of the task. If new work is only given to tasks that are in no group, then a task is in the group
that its slot names and in no other; and all for which the destruction of a group can wait are tasks
that are in it, which leave it when they are detached and when their work is over. -/
theorem Reached.slot_iff_member (h : Reached P e) :
    (∀ t x g, e.task? t = some x → (x.group = some g ↔
      ∃ G, e.groups[g]? = some G ∧ ⟨t, x.generation⟩ ∈ G.members)) ∧
    ((∀ x, P x → x.group = none) →
      (∀ t x g, e.task? t = some x → (x.group = some g ↔
        ∃ G, e.groups[g]? = some G ∧ G.hasMember t = true)) ∧
      (∀ t (g k : GroupId) (G K : ControlGroup), e.groups[g]? = some G → e.groups[k]? = some K →
        G.hasMember t = true → K.hasMember t = true → g = k) ∧
      ∀ (g : GroupId) (G : ControlGroup) m caller, e.groups[g]? = some G → m ∈ G.others caller →
        (∃ x, e.task? m.task = some x ∧ x.group = some g) ∧
          ∀ now c, (∀ m' ∈ (e.detach now m.task g).membersOf g, m'.task ≠ m.task) ∧
            ∀ m' ∈ (e.exit now c m.task).membersOf g, m'.task ≠ m.task) := by
  refine ⟨fun t x g hx => ?_, fun hP => ?_⟩
  · rw [← h.listed.iff_slot t x g hx, Engine.mem_membersOf]
  have hl := h.listed_present hP
  have hmember : ∀ g t n, ⟨t, n⟩ ∈ e.membersOf g →
      ∃ x, e.task? t = some x ∧ x.group = some g := by
    intro g t n hm
    obtain ⟨x, hx, heq⟩ := hl.entries g _ hm
    exact ⟨x, hx, (hl.iff_slot t x g hx).mp (heq ▸ hm)⟩
  refine ⟨?_, ?_, ?_⟩
  · intro t x g hx
    constructor
    · intro hin
      obtain ⟨G, hG, hm⟩ := Engine.mem_membersOf.mp ((hl.iff_slot t x g hx).mpr hin)
      exact ⟨G, hG, (Engine.hasMember_iff hG).mpr ⟨_, Engine.mem_membersOf.mpr ⟨G, hG, hm⟩⟩⟩
    · rintro ⟨G, hG, hm⟩
      obtain ⟨n, hm⟩ := (Engine.hasMember_iff hG).mp hm
      obtain ⟨x', hx', hin⟩ := hmember g t n hm
      rw [hx] at hx'
      cases hx'
      exact hin
  · intro t g k G K hG hK hg hk
    obtain ⟨n, hm⟩ := (Engine.hasMember_iff hG).mp hg
    obtain ⟨n', hm'⟩ := (Engine.hasMember_iff hK).mp hk
    obtain ⟨x, hx, hin⟩ := hmember g t n hm
    obtain ⟨x', hx', hin'⟩ := hmember k t n' hm'
    rw [hx] at hx'
    cases hx'
    exact Option.some.inj (hin.symm.trans hin')
  · intro g G m caller hG hm
    have hlisted : m ∈ e.membersOf g :=
      Engine.mem_membersOf.mpr ⟨G, hG, (List.mem_filter.mp hm).1⟩
    obtain ⟨x, hx, hin⟩ := hmember g m.task m.generation hlisted
    have hid := hl.ids m.task x hx
    exact ⟨⟨x, hx, hin⟩, fun now c => ⟨fun m' hm' => Engine.not_mem_detach hx hid hin now hm',
      fun m' hm' => Engine.not_mem_exit hx hid hin now c hm'⟩⟩

/-- A task that was in a group for one piece of work is in it again for the next. -/
theorem slot_iff_member_again : ∃ (e : Engine Unit) (x : Task) (G : ControlGroup),
    Reached (·.group = none) e ∧ e.task? ⟨0⟩ = some x ∧ x.group = some 0 ∧
      e.groups[0]? = some G ∧ G.members = [⟨⟨0⟩, 2⟩] ∧ G.hasMember ⟨0⟩ = true := by
  have h0 := Reached.start (V := Unit) (P := (·.group = none))
    (show Engine.start {} 1 [{ bucket := Bucket.full 10 100 0 }] .absent = .ok _ from rfl)
    (fun G hG => ⟨10, 100, 0, by rw [List.mem_singleton.mp hG]; rfl⟩)
  have h1 := h0.step .make
  have h2 := h1.step (.reset (t := ⟨0⟩) rfl rfl (by rfl) "first" 0)
  have h3 := h2.step (.attach 5 ⟨0⟩ 0)
  have h4 := h3.step (.exit 9 0 ⟨0⟩)
  have h5 := h4.step (.reset (t := ⟨0⟩) rfl rfl (by rfl) "second" 0)
  have h6 := h5.step (.attach 12 ⟨0⟩ 0)
  obtain ⟨-, hpresent⟩ := h6.slot_iff_member
  obtain ⟨hslot, -, -⟩ := hpresent fun _ => id
  obtain ⟨G, hG, hmember⟩ := (hslot ⟨0⟩ _ 0 rfl).mp rfl
  exact ⟨_, _, G, h6, rfl, rfl, hG, by cases hG; rfl, hmember⟩

/-- New work for a task that is in a group leaves the group with an entry that nobody takes out: the
slot of the task is empty, and not even the end of the new work changes the list. -/
theorem stray_member_after_reset : ∃ (e : Engine Unit) (x : Task) (G : ControlGroup),
    Reached (fun _ => True) e ∧ e.task? ⟨0⟩ = some x ∧ x.status = .alive ∧ x.group = none ∧
      e.groups[0]? = some G ∧ G.hasMember ⟨0⟩ = true ∧ G.others none = [⟨⟨0⟩, 0⟩] ∧
      (e.exit 9 0 ⟨0⟩).membersOf 0 = [⟨⟨0⟩, 0⟩] := by
  have h0 := Reached.start (V := Unit) (P := fun _ => True)
    (show Engine.start {} 1 [{ bucket := Bucket.full 10 100 0 }] .absent = .ok _ from rfl)
    (fun G hG => ⟨10, 100, 0, by rw [List.mem_singleton.mp hG]; rfl⟩)
  have h1 := h0.step .make
  have h2 := h1.step (.attach 5 ⟨0⟩ 0)
  have h3 := h2.step (.reset (t := ⟨0⟩) rfl rfl trivial "second" 0)
  exact ⟨_, _, _, h3, rfl, rfl, rfl, rfl, rfl, rfl, rfl⟩

end Membership

end GreenThreads

import GreenThreads.Proofs.Program.Schedule

/-!
# Transfers

Each operation of an engine changes the group of one task at most. Between two operations slots and
lists agree on every entry, because a task that is kept for reuse is in no group. So who is in a
group is known from the places of the tasks.
-/

namespace GreenThreads.Engine

variable {V : Type} {e e' e'' : Engine V} {t u : TaskId} {g k : GroupId} {x y : Task} {m : Member}
  {c : Nat} {s : Submission}

/-! ## Slots and lists -/

/-- Slots and lists agree on every entry, and a task that is kept for reuse is in no group. -/
structure Settled (e : Engine V) : Prop where
  listed : e.Listed (· = ·)
  idle : ∀ t x, e.task? t = some x → x.status = .cached → x.group = none

/-- The present incarnation of a task, with its group. -/
def placeOf (e : Engine V) (t : TaskId) : Option (TaskId × Nat × Option GroupId) :=
  (e.task? t).map Task.place

theorem groupOf_eq (hx : e.task? t = some x) : e.groupOf t = x.group := by
  rw [groupOf, hx, Option.bind_some]

theorem groupOf_of_placeOf (h : e'.placeOf t = e.placeOf t) : e'.groupOf t = e.groupOf t := by
  have hgroup := congrArg (Option.bind · (·.2.2)) h
  simp only [placeOf, Option.bind_map] at hgroup
  exact hgroup

theorem SameMembers.placeOf (h : SameMembers e e') (t : TaskId) : e'.placeOf t = e.placeOf t := by
  have hget := congrArg (·[t.index]?) h.tasks
  simp only [Array.getElem?_map] at hget
  exact hget

/-- The places of the tasks say who is in a group. -/
theorem Settled.mem_iff (h : Settled e) :
    m ∈ e.membersOf g ↔ e.placeOf m.task = some (m.task, m.generation, some g) := by
  constructor
  · intro hm
    obtain ⟨x, hx, hgeneration⟩ := h.listed.entries g m hm
    have hgroup : x.group = some g := by
      refine (h.listed.iff_slot m.task x g hx).mp ?_
      rw [← hgeneration]
      exact hm
    rw [placeOf, hx, Option.map_some, Task.place, h.listed.ids m.task x hx, ← hgeneration, hgroup]
  · intro hplace
    obtain ⟨x, hx, heq⟩ := Option.map_eq_some_iff.mp hplace
    have hgeneration : x.generation = m.generation := congrArg (·.2.1) heq
    have hm := (h.listed.iff_slot m.task x g hx).mpr (congrArg (·.2.2) heq)
    rw [hgeneration] at hm
    exact hm

theorem Settled.not_mem (h : Settled e) (hnone : e.groupOf t = none) (hm : m ∈ e.membersOf g) :
    m.task ≠ t := by
  rintro rfl
  obtain ⟨x, hx, heq⟩ := Option.map_eq_some_iff.mp (h.mem_iff.mp hm)
  rw [groupOf_eq hx] at hnone
  have hgroup : x.group = some g := congrArg (·.2.2) heq
  rw [hnone] at hgroup
  cases hgroup

theorem Settled.still (h : Settled e) (hs : Still e e') : Settled e' := by
  refine ⟨h.listed.same hs.toSameMembers, fun t y hy hc => ?_⟩
  obtain ⟨x, hx, hcached⟩ := hs.cached t y hy hc
  rw [← groupOf_eq hy, hs.groupOf, groupOf_eq hx]
  exact h.idle t x hx hcached

/-! ## Transfers -/

/-- A task that is there and is not kept for reuse. -/
def Busy (e : Engine V) (t : TaskId) : Prop := ∃ x, e.task? t = some x ∧ x.status ≠ .cached

theorem Busy.status (h : e.Busy t) (hx : e.task? t = some x) : x.status ≠ .cached := by
  obtain ⟨x', hx', hbusy⟩ := h
  rw [hx] at hx'
  cases hx'
  exact hbusy

theorem Busy.still (h : e.Busy t) (hs : Still e e') : e'.Busy t := by
  obtain ⟨x, hx, hbusy⟩ := h
  obtain ⟨y, hy, -⟩ := exists_of_map_eq hs.tasks.symm hx
  refine ⟨y, hy, fun hc => ?_⟩
  obtain ⟨x', hx', hcached⟩ := hs.cached t y hy hc
  rw [hx] at hx'
  cases hx'
  exact hbusy hcached

/-- Only the task `t` may have changed its place, and no other was put away for reuse. -/
structure Transfers (t : TaskId) (e e' : Engine V) : Prop where
  busy : ∀ u, u ≠ t → e.Busy u → e'.Busy u
  idle : ∀ u y, u ≠ t → e'.task? u = some y → y.status = .cached →
    ∃ x, e.task? u = some x ∧ x.status = .cached
  others : ∀ u, u ≠ t → e'.placeOf u = e.placeOf u

theorem transfers_of_task? (h : ∀ u, u ≠ t → e'.task? u = e.task? u) : Transfers t e e' := by
  refine ⟨fun u hu hbusy => ?_, fun u y hu hy hc => ?_, fun u hu => ?_⟩
  · rw [Busy, h u hu]
    exact hbusy
  · rw [h u hu] at hy
    exact ⟨y, hy, hc⟩
  · rw [placeOf, h u hu, placeOf]

theorem Still.transfers (h : Still e e') (t : TaskId) : Transfers t e e' :=
  ⟨fun _ _ hbusy => hbusy.still h, fun u y _ => h.cached u y, fun u _ => h.placeOf u⟩

theorem Transfers.refl (t : TaskId) (e : Engine V) : Transfers t e e := (Still.refl e).transfers t

theorem Transfers.trans (h : Transfers t e e') (h' : Transfers t e' e'') : Transfers t e e'' := by
  refine ⟨fun u hu hbusy => h'.busy u hu (h.busy u hu hbusy), fun u z hu hz hc => ?_,
    fun u hu => (h'.others u hu).trans (h.others u hu)⟩
  obtain ⟨y, hy, hc'⟩ := h'.idle u z hu hz hc
  exact h.idle u y hu hy hc'

theorem Transfers.groupOf (h : Transfers t e e') (hu : u ≠ t) : e'.groupOf u = e.groupOf u :=
  groupOf_of_placeOf (h.others u hu)

theorem Transfers.mem_iff (h : Transfers t e e') (hs : Settled e) (hs' : Settled e')
    (hm : m.task ≠ t) : m ∈ e'.membersOf g ↔ m ∈ e.membersOf g := by
  rw [hs'.mem_iff, hs.mem_iff, h.others m.task hm]

/-- What keeps lists and slots in agreement keeps an engine settled, as long as the task that may
have changed its place is not put away in a group. -/
theorem Settled.transfers (h : Settled e) (ht : Transfers t e e') (hl : e'.Listed (· = ·))
    (hself : ∀ y, e'.task? t = some y → y.status = .cached → y.group = none) : Settled e' := by
  refine ⟨hl, fun u y hy hc => ?_⟩
  by_cases hu : u = t
  · subst hu
    exact hself y hy hc
  · obtain ⟨x, hx, hcached⟩ := ht.idle u y hu hy hc
    rw [← groupOf_eq hy, ht.groupOf hu, groupOf_eq hx]
    exact h.idle u x hx hcached

/-! ## Joining and leaving -/

theorem transfers_put (hx : e.task? t = some x) (y : Task) (f : ControlGroup → ControlGroup) :
    Transfers t e ((e.updateGroup g f).updateTask t fun _ => y) := by
  refine transfers_of_task? fun u hu => ?_
  rw [task?_put (e := e.updateGroup g f) hx y, if_neg hu]
  rfl

theorem busy_put (hx : e.task? t = some x) (hy : x.Metered y) (f : ControlGroup → ControlGroup)
    (hu : e.Busy u) : ((e.updateGroup g f).updateTask t fun _ => y).Busy u := by
  rw [Busy, task?_put (e := e.updateGroup g f) hx y]
  split
  · next hut =>
      subst hut
      have hbusy := hu.status hx
      obtain ⟨n, r, k, rfl⟩ := hy
      exact ⟨_, rfl, hbusy⟩
  · exact hu

theorem transfers_attach (e : Engine V) (now : Nanos) (t : TaskId) (g : GroupId) :
    Transfers t e (e.attach now t g).1 := by
  unfold attach
  split
  · next x G hx hG =>
      split
      · exact transfers_put hx _ _
      · exact .refl t e
  · exact .refl t e

theorem transfers_detach (e : Engine V) (now : Nanos) (t : TaskId) (g : GroupId) :
    Transfers t e (e.detach now t g) := by
  unfold detach
  split
  · next x G hx hG => exact transfers_put hx _ _
  · exact .refl t e

theorem Busy.attach (h : e.Busy u) (now : Nanos) (t : TaskId) (g : GroupId) :
    (e.attach now t g).1.Busy u := by
  unfold Engine.attach
  split
  · next x G hx hG =>
      split
      · next G' y hattach => exact busy_put hx (.attach hattach) _ h
      · exact h
  · exact h

theorem Busy.detach (h : e.Busy u) (now : Nanos) (t : TaskId) (g : GroupId) :
    (e.detach now t g).Busy u := by
  unfold Engine.detach
  split
  · next x G hx hG => exact busy_put hx (.detach G g x now) _ h
  · exact h

theorem Settled.attach (h : Settled e) (hbusy : e.Busy t) (now : Nanos) (g : GroupId) :
    Settled (e.attach now t g).1 :=
  h.transfers (e.transfers_attach now t g) (h.listed.attach (fun _ => rfl) now t g) fun _ hy hc =>
    absurd hc ((hbusy.attach now t g).status hy)

theorem Settled.detach (h : Settled e) (now : Nanos) (t : TaskId) (g : GroupId) :
    Settled (e.detach now t g) := by
  refine h.transfers (e.transfers_detach now t g) (h.listed.detach now t g) fun y hy hc => ?_
  by_contra hgroup
  obtain ⟨k, hk⟩ := Option.ne_none_iff_exists'.mp hgroup
  have hbefore := groupOf_detach ((groupOf_eq hy).trans hk)
  obtain ⟨x, hx, hin⟩ := Option.bind_eq_some_iff.mp hbefore
  by_cases hcached : x.status = .cached
  · rw [h.idle t x hx hcached] at hin
    cases hin
  · exact (Busy.detach ⟨x, hx, hcached⟩ now t g).status hy hc

/-- An engine lets a task join a group: the group is not destroyed, and the task is in no other. -/
def Admits (e : Engine V) (t : TaskId) (g : GroupId) : Prop :=
  ∃ x G, e.task? t = some x ∧ e.groups[g]? = some G ∧ G.destroyed = false ∧
    (x.group = none ∨ x.group = some g)

theorem admits_iff : e.Admits t g ↔
    (∃ x ∈ e.task? t, x.group = none ∨ x.group = some g) ∧ ∃ G ∈ e.groups[g]?, G.destroyed = false := by
  constructor
  · rintro ⟨x, G, hx, hG, hopen, hgroup⟩
    exact ⟨⟨x, hx, hgroup⟩, G, hG, hopen⟩
  · rintro ⟨⟨x, hx, hgroup⟩, G, hG, hopen⟩
    exact ⟨x, G, hx, hG, hopen, hgroup⟩

instance : Decidable (e.Admits t g) := decidable_of_iff' _ admits_iff

theorem attach_of_admits (h : e.Admits t g) (now : Nanos) :
    ∃ e', e.attach now t g = (e', .ok ()) ∧ e'.groupOf t = some g := by
  obtain ⟨x, G, hx, hG, hopen, hgroup⟩ := h
  obtain ⟨G', y, hattach, hin⟩ : ∃ G' y, G.attach g x now = .ok (G', y) ∧ y.group = some g := by
    unfold ControlGroup.attach
    rw [hopen]
    rcases hgroup with hnone | hin
    · rw [hnone]
      exact ⟨_, _, rfl, rfl⟩
    · rw [hin]
      exact ⟨G, x, if_pos rfl, hin⟩
  refine ⟨(e.updateGroup g fun _ => G').updateTask t fun _ => y, ?_, ?_⟩
  · simp only [Engine.attach, hx, hG, hattach]
  · refine (groupOf_eq ?_).trans hin
    rw [task?_put (e := e.updateGroup g fun _ => G') hx y t, if_pos rfl]

theorem attach_of_not_admits (h : ¬ e.Admits t g) (now : Nanos) :
    ∃ err, e.attach now t g = (e, .error err) := by
  unfold Engine.attach
  split
  · next x G hx hG =>
      split
      · next G' y hattach =>
          refine absurd ⟨x, G, hx, hG, ?_, ?_⟩ h
          · unfold ControlGroup.attach at hattach
            split at hattach
            · cases hattach
            · next hopen => exact Bool.eq_false_iff.mpr hopen
          · rcases ControlGroup.attach_spec hattach with ⟨hin, -⟩ | ⟨hnone, -⟩
            · exact .inr hin
            · exact .inl hnone
      · exact ⟨_, rfl⟩
  · exact ⟨_, rfl⟩

theorem groupOf_attach {now : Nanos} (h : e.attach now t g = (e', .ok ())) :
    e'.groupOf t = some g := by
  by_cases hadmits : e.Admits t g
  · obtain ⟨e₁, hattach, hin⟩ := attach_of_admits hadmits now
    rw [h] at hattach
    cases hattach
    exact hin
  · obtain ⟨err, hattach⟩ := attach_of_not_admits hadmits now
    rw [h] at hattach
    cases hattach

theorem Settled.groupOf_detach_self (h : Settled e) (hin : e.groupOf t = some g) (now : Nanos) :
    (e.detach now t g).groupOf t = none := by
  obtain ⟨x, hx, hgroup⟩ := Option.bind_eq_some_iff.mp hin
  obtain ⟨G, hG, -⟩ := mem_membersOf.mp ((h.listed.iff_slot t x g hx).mpr hgroup)
  have htask := task?_put (e := e.updateGroup g fun _ => (G.detach g x now).1) hx
    (G.detach g x now).2 t
  rw [if_pos rfl] at htask
  have hdetach : e.detach now t g = (e.updateGroup g fun _ => (G.detach g x now).1).updateTask t
      fun _ => (G.detach g x now).2 := by
    simp only [Engine.detach, hx, hG]
  rw [hdetach, groupOf_eq htask, ControlGroup.detach_of_eq hgroup]

/-- A task that is in no other group is in none after it has left. -/
theorem Settled.groupOf_detach (h : Settled e) (honly : ∀ k, e.groupOf t = some k → g = k)
    (now : Nanos) : (e.detach now t g).groupOf t = none := by
  by_contra hne
  obtain ⟨k, hk⟩ := Option.ne_none_iff_exists'.mp hne
  have hbefore := Engine.groupOf_detach hk
  obtain rfl := honly k hbefore
  rw [h.groupOf_detach_self hbefore now] at hk
  cases hk

/-! ## Work begins and ends -/

theorem task?_new (e : Engine V) : e.task? e.makeTask.2 = none :=
  Array.getElem?_eq_none (Nat.le_refl _)

theorem Settled.make (h : Settled e) :
    Settled e.makeTask.1 ∧ Transfers e.makeTask.2 e e.makeTask.1 := by
  have htask := task?_makeTask e
  have htransfers : Transfers e.makeTask.2 e e.makeTask.1 :=
    transfers_of_task? fun u hu => (htask u).trans (if_neg hu)
  refine ⟨h.transfers htransfers h.listed.make fun y hy _ => ?_, htransfers⟩
  rw [htask, if_pos rfl] at hy
  cases hy
  rfl

theorem still_popped (h : e.Popped t e') : Still e e' := by
  obtain ⟨carriers, pool, rfl⟩ := h.eq
  exact still_of_eq rfl rfl

theorem Settled.obtain (h : Settled e) (c : Nat) :
    Settled (e.obtain c).1 ∧ Transfers (e.obtain c).2 e (e.obtain c).1 ∧
      ∀ x y, e.task? (e.obtain c).2 = some x → (e.obtain c).1.task? (e.obtain c).2 = some y →
        y.status = .cached → x.status = .cached := by
  rcases obtain_cases e c with ⟨e₀, hpop, hsame⟩ | hmake
  · have hstill := (still_popped hpop).trans hsame.still
    refine ⟨h.still hstill, hstill.transfers _, fun x y hx hy hc => ?_⟩
    obtain ⟨x', hx', hcached⟩ := hstill.cached _ y hy hc
    rw [hx] at hx'
    cases hx'
    exact hcached
  · rw [hmake]
    refine ⟨h.make.1, h.make.2, fun x y hx => ?_⟩
    rw [task?_new] at hx
    cases hx

theorem Settled.assign (h : Settled e) (hx : e.task? t = some x) (hended : x.Ended) (c : Nat)
    (s : Submission) : Settled (e.assign c t s) ∧ Transfers t e (e.assign c t s) ∧
      (e.assign c t s).Busy t := by
  have hidle : ∀ a, (x.parker a).isWaiting = false := by
    intro a
    cases a with
    | user => exact hended.user
    | internal => exact hended.internal
  have hfree : e.groupOf t = none := (groupOf_eq hx).trans (h.idle t x hx hended.cached)
  have heq := assign_eq (c := c) (s := s) hx hended.cached hidle
  have htask : ∀ u, (e.assign c t s).task? u =
      if u = t then some (Floor.assigned c s x) else e.task? u := by
    intro u
    rw [heq]
    refine (task?_updateTask e t u (Floor.assigned c s)).trans ?_
    split
    · next hu => rw [hu, hx, Option.map_some]
    · rfl
  have htransfers : Transfers t e (e.assign c t s) :=
    transfers_of_task? fun u hu => (htask u).trans (if_neg hu)
  have hlisted : (e.assign c t s).Listed (· = ·) := by
    have hassigned := Engine.listed_assigned h.listed hx hended (fun _ _ => Nat.le_of_eq)
      (fun g n hm => absurd rfl (h.not_mem hfree hm)) c s
    rw [heq]
    exact hassigned.same ⟨rfl, rfl⟩
  have hself := htask t
  rw [if_pos rfl] at hself
  refine ⟨h.transfers htransfers hlisted fun y hy hc => ?_, htransfers, _, hself, nofun⟩
  rw [hself] at hy
  cases hy
  cases hc

theorem size_of_nesting (h : e'.nesting = e.nesting) : e'.carriers.size = e.carriers.size := by
  have hsize := congrArg (fun n : Array UInt64 × Nat => n.1.size) h
  simp only [nesting, Array.size_map] at hsize
  exact hsize

theorem still_resume (hc : c < e.carriers.size) (now : Nanos) (t : TaskId) :
    Still e (e.resume now c t) := (nudges_resume hc now t).still

theorem still_abandon (e : Engine V) (now : Nanos) (j : JobId) :
    Still e (e.abandonJob now j).finishOne := by
  cases hj : e.jobs[j]? with
  | none =>
      unfold abandonJob
      rw [hj]
      exact still_of_eq rfl rfl
  | some cell =>
      exact ((still_updateJob e j _).trans (sameRecords_abandonJob hj now).still).trans
        (still_of_eq rfl rfl)

/-- Work that is begun is given to a task that had none, or it is given up. -/
theorem Settled.begin (h : Settled e) (hc : c < e.carriers.size) (now : Nanos)
    (ready : e.HasSpare c) :
    Settled (e.begin now c s) ∧ ∃ t, Transfers t e (e.begin now c s) ∧
      ∀ x, e.task? t = some x → x.status = .cached := by
  obtain ⟨y, hy, hended⟩ := ready
  unfold Engine.begin
  dsimp only
  split
  · have hstill := still_abandon e now s.job
    refine ⟨h.still hstill, e.makeTask.2, hstill.transfers _, fun x hx => ?_⟩
    rw [task?_new] at hx
    cases hx
  · obtain ⟨hobtained, htaken, hspare⟩ := h.obtain c
    have hcontext := (sameRecords_ensureContext (e.obtain c).1 (e.obtain c).2).still
    obtain ⟨hassigned, hgiven, hbusy⟩ :=
      (hobtained.still hcontext).assign hy hended c s
    have hnesting : (((e.obtain c).1.ensureContext (e.obtain c).2).assign c
        (e.obtain c).2 s).nesting = e.nesting :=
      ((nesting_assign _ c _ s).trans (nesting_ensureContext _ _)).trans (nesting_obtain e c)
    have hidle : ∀ x, e.task? (e.obtain c).2 = some x → x.status = .cached := by
      intro x hx
      obtain ⟨y', hy', hcached⟩ := hcontext.cached _ y hy hended.cached
      exact hspare x y' hx hy' hcached
    have hwhole := (htaken.trans (hcontext.transfers _)).trans hgiven
    cases s.group with
    | none =>
        have hresume := still_resume (size_of_nesting hnesting ▸ hc) now (e.obtain c).2
        exact ⟨hassigned.still hresume, _, hwhole.trans (hresume.transfers _), hidle⟩
    | some g =>
        have hattach := hassigned.attach hbusy now g
        have hsize := size_of_nesting ((nesting_attach _ now (e.obtain c).2 g).trans hnesting)
        have hresume := still_resume (hsize ▸ hc) now (e.obtain c).2
        exact ⟨hattach.still hresume, _,
          (hwhole.trans (transfers_attach _ now _ g)).trans (hresume.transfers _), hidle⟩

/-- Whatever a carrier works off, the place of one task is changed at most, which had no work. -/
theorem Settled.dispatch {r : Runnable} (h : Settled e) (hc : c < e.carriers.size) (now : Nanos)
    (ready : ∀ s, r = .start s → e.HasSpare c) :
    Settled (e.dispatch now c r) ∧ ∃ t, Transfers t e (e.dispatch now c r) ∧
      ∀ x, e.task? t = some x → x.status = .cached := by
  cases r with
  | start s => exact h.begin hc now (ready s rfl)
  | resume t =>
      have hunmark : Still e (e.updateTask t ({ · with enqueued := false })) :=
        still_updateTask (fun _ => rfl) fun _ => rfl
      have hsize : c < (e.updateTask t ({ · with enqueued := false })).carriers.size := hc
      have hstill : Still e (e.dispatch now c (.resume t)) :=
        hunmark.trans (still_resume hsize now t)
      refine ⟨h.still hstill, e.makeTask.2, hstill.transfers _, fun x hx => ?_⟩
      rw [task?_new] at hx
      cases hx

theorem transfers_finish (e : Engine V) (now : Nanos) (c : Nat) (t : TaskId) : Transfers t e
    (({ e with live := e.live.filter (· != t) }.finishOne.recycle c t).switchOut now c) := by
  obtain ⟨n, carriers, pool, stats, hrecycle⟩ :=
    recycle_eq { e with live := e.live.filter (· != t) }.finishOne c t
  have hput : Transfers t e ({ e with live := e.live.filter (· != t) }.finishOne.recycle c t) := by
    rw [hrecycle]
    exact transfers_of_task? fun u hu => (task?_updateTask e t u _).trans (if_neg hu)
  exact hput.trans ((nudges_switchOut _ now c).still.transfers t)

/-- A task whose work is over is in no group. -/
theorem Settled.exit (h : Settled e) (now : Nanos) (c : Nat) (t : TaskId) :
    Settled (e.exit now c t) ∧ Transfers t e (e.exit now c t) ∧
      (e.exit now c t).groupOf t = none := by
  have hsettle : Still e (((e.unregisterChannel t).disarm t).accountRun now t) :=
    Nudges.still (((nudges_unregisterChannel e t).trans (nudges_disarm _ t)).trans
      (nudges_accountRun _ now t))
  -- the task leaves the group that it is in, if any
  have hleave : ∃ e₁, Settled e₁ ∧ Transfers t e e₁ ∧ e₁.groupOf t = none ∧ e.exit now c t =
      (({ e₁ with live := e₁.live.filter (· != t) }.finishOne.recycle c t).switchOut now c) := by
    have hsettled := h.still hsettle
    unfold Engine.exit
    dsimp only
    cases hgroup : ((((e.unregisterChannel t).disarm t).accountRun now t).task? t).bind (·.group) with
    | none => exact ⟨_, hsettled, hsettle.transfers t, hgroup, rfl⟩
    | some g =>
        exact ⟨_, hsettled.detach now t g, (hsettle.transfers t).trans (transfers_detach _ now t g),
          hsettled.groupOf_detach_self hgroup now, rfl⟩
  obtain ⟨e₁, hsettled, htransfers, hnone, hexit⟩ := hleave
  have hfinish := sameMembers_finish e₁ now c t
  have hover : (e.exit now c t).groupOf t = none := by
    rw [hexit]
    exact (groupOf_of_placeOf (hfinish.placeOf t)).trans hnone
  have hwhole : Transfers t e (e.exit now c t) := by
    rw [hexit]
    exact htransfers.trans (transfers_finish e₁ now c t)
  exact ⟨h.transfers hwhole (h.listed.exit now c t) fun y hy _ => (groupOf_eq hy).symm.trans hover,
    hwhole, hover⟩

theorem settled_start {config : Config} {processors : Nat} {groups : List ControlGroup}
    {pump : EventPump} (h : Engine.start config processors groups pump = .ok e)
    (hnew : ∀ G ∈ groups, G.IsNew) : Settled e := by
  refine ⟨Membership.listed_start h hnew, fun t x hx => ?_⟩
  rw [start_eq h] at hx
  cases hx

end GreenThreads.Engine

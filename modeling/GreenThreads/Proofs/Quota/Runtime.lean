import GreenThreads.Proofs.Quota.Bucket
import GreenThreads.Proofs.Quota.Membership

/-!
# Where run time is booked

Run time that is taken from a task is charged to the group of the task, or counted as free if there
is none. It is booked once and in one place, with one exception: what a task ran before it joins a
group in mid-slice is added to its run time and booked nowhere.
-/

namespace GreenThreads

/-! ## Sums that do not overflow -/

/-- A sum that is no less than what it was added to has not wrapped. -/
theorem Nanos.toInt_add_of_le {a b : Nanos} (ha : 0 ≤ a.toInt) (hb : 0 ≤ b.toInt)
    (h : a ≤ a + b) : (a + b).toInt = a.toInt + b.toInt := by
  have hau := a.toInt_lt
  have hbu := b.toInt_lt
  rw [Int64.le_iff_toInt_le, Int64.toInt_add, Int.bmod_def] at h
  rw [Int64.toInt_add, Int.bmod_def]
  split at h
  · next hlt => rw [if_pos hlt]; omega
  · omega

theorem toNat_add_of_le {a b : UInt64} (h : a ≤ a + b) : (a + b).toNat = a.toNat + b.toNat := by
  rw [UInt64.le_iff_toNat_le, UInt64.toNat_add] at h
  rw [UInt64.toNat_add]
  have ha := a.toNat_lt
  have hb := b.toNat_lt
  omega

theorem toNat_toUInt64 {k : Nanos} (h : 0 ≤ k.toInt) :
    k.toInt.toNat.toUInt64.toNat = k.toInt.toNat := by
  have hk := k.toInt_lt
  have hlt : k.toInt.toNat < 2 ^ 64 := by omega
  rw [Nat.toUInt64_eq, UInt64.toNat_ofNat_of_lt' hlt]

/-! ## Run time of a task -/

/-- The run time of a task, and where it is charged. -/
def Task.meter (t : Task) : Nanos × Option GroupId := (t.runTime, t.group)

namespace Task

theorem runTime_takeElapsed (x : Task) (now : Nanos) :
    (x.takeElapsed now).1.runTime = x.runTime + (x.takeElapsed now).2 := by
  unfold takeElapsed
  split
  · exact (Int64.add_zero _).symm
  · rfl

theorem elapsed_nonneg (x : Task) (now : Nanos) : 0 ≤ (x.takeElapsed now).2.toInt := by
  unfold takeElapsed
  split
  · exact Int.le_refl 0
  · rw [Nanos.toInt_max]
    exact Int.le_max_left _ _

theorem group_takeElapsed (x : Task) (now : Nanos) : (x.takeElapsed now).1.group = x.group :=
  congrArg (·.2.2) (x.place_takeElapsed now)

end Task

namespace Engine

variable {V : Type} {e e' e'' : Engine V} {t : TaskId} {x y : Task} {g : GroupId}
  {G G' : ControlGroup} {k : Nanos}

/-! ## What is booked -/

/-- The run time charged to the groups, and that which no group was charged with. -/
def booked (e : Engine V) : Nat :=
  total (fun G => G.bucket.consumed.toInt.toNat) e.groups + e.stats.freeRunning.toNat

/-- The run time of the present work of a task. -/
def ran (e : Engine V) (t : TaskId) : Nanos := ((e.task? t).map (·.runTime)).getD 0

/-- What was added to the run time of a task between `e` and `e'`. -/
def gain (e e' : Engine V) (t : TaskId) : Nat := (e'.ran t - e.ran t).toInt.toNat

/-- None of the counters on which run time is booked has gone back from `e` to `e'`, as it would if
it overflowed. -/
structure Counts (e e' : Engine V) : Prop where
  consumed : ∀ (g : GroupId) (G G' : ControlGroup), e.groups[g]? = some G →
    e'.groups[g]? = some G' → G.bucket.consumed ≤ G'.bucket.consumed
  free : e.stats.freeRunning ≤ e'.stats.freeRunning

theorem counts_iff : e.Counts e' ↔
    (∀ p ∈ e.groups.toList.zip e'.groups.toList, p.1.bucket.consumed ≤ p.2.bucket.consumed) ∧
      e.stats.freeRunning ≤ e'.stats.freeRunning := by
  constructor
  · rintro ⟨hconsumed, hfree⟩
    refine ⟨?_, hfree⟩
    rintro ⟨G, G'⟩ hp
    obtain ⟨i, hi⟩ := List.mem_iff_getElem?.mp hp
    obtain ⟨hG, hG'⟩ := List.getElem?_zip_eq_some.mp hi
    exact hconsumed i G G' (by rw [← Array.getElem?_toList, hG])
      (by rw [← Array.getElem?_toList, hG'])
  · rintro ⟨hconsumed, hfree⟩
    refine ⟨fun g G G' hG hG' => ?_, hfree⟩
    rw [← Array.getElem?_toList] at hG hG'
    exact hconsumed (G, G') (List.mem_of_getElem? (List.getElem?_zip_eq_some.mpr ⟨hG, hG'⟩))

instance : Decidable (e.Counts e') := decidable_of_iff _ counts_iff.symm

/-- Every task that is in a group finds it, and no group has been charged with less than nothing. -/
structure Charged (e : Engine V) : Prop where
  slots : ∀ t x g, e.task? t = some x → x.group = some g → ∃ G, e.groups[g]? = some G
  nonneg : ∀ (g : GroupId) (G : ControlGroup), e.groups[g]? = some G →
    0 ≤ G.bucket.consumed.toInt

/-- Charges a group with the run time of a task, whether or not the task is in the group. -/
def chargeGroup (e : Engine V) (now : Nanos) (t : TaskId) (g : GroupId) : Engine V :=
  match e.task? t, e.groups[g]? with
  | some x, some G =>
    let (G, x, _) := G.chargeElapsed x now
    (e.updateGroup g fun _ => G).updateTask t fun _ => x
  | _, _ => e

theorem ran_eq (hx : e.task? t = some x) : e.ran t = x.runTime := by
  simp only [ran, hx, Option.map_some, Option.getD_some]

theorem gain_self (h : e'.ran t = e.ran t) : e.gain e' t = 0 := by
  simp only [gain, h, Int64.sub_self]
  rfl

/-! ## Steps that book nothing -/

/-- Nothing is booked from `e` to `e'`, and no run time is taken. -/
structure SameCharges (e e' : Engine V) : Prop where
  tasks : e'.tasks.map Task.meter = e.tasks.map Task.meter
  groups : e'.groups.map (·.bucket.consumed) = e.groups.map (·.bucket.consumed)
  free : e'.stats.freeRunning = e.stats.freeRunning

theorem SameRecords.sameCharges (h : SameRecords e e') : SameCharges e e' := by
  refine ⟨?_, by rw [h.groups], h.stats .freeRunning rfl⟩
  have hmeter := congrArg (Array.map Task.meter) h.tasks
  simp only [Array.map_map] at hmeter
  exact hmeter

namespace SameCharges

theorem refl (e : Engine V) : SameCharges e e := ⟨rfl, rfl, rfl⟩

theorem trans (h : SameCharges e e') (h' : SameCharges e' e'') : SameCharges e e'' :=
  ⟨h'.tasks.trans h.tasks, h'.groups.trans h.groups, h'.free.trans h.free⟩

theorem booked (h : SameCharges e e') : e'.booked = e.booked := by
  unfold Engine.booked
  rw [h.free,
    total_of_map_eq (fun consumed : Nanos => consumed.toInt.toNat) (fun _ => rfl) h.groups]

theorem ran (h : SameCharges e e') (t : TaskId) : e'.ran t = e.ran t := by
  have hget := congrArg (·[t.index]?) h.tasks
  simp only [Array.getElem?_map] at hget
  have hmap : ∀ o : Option Task, (o.map (·.runTime)) = (o.map Task.meter).map Prod.fst := by
    intro o
    cases o <;> rfl
  simp only [Engine.ran, task?, hmap, hget]

theorem charged (h : SameCharges e e') (hc : e.Charged) : e'.Charged := by
  refine ⟨?_, ?_⟩
  · intro u z k hz hk
    obtain ⟨x, hx, hmeter⟩ := exists_of_map_eq h.tasks hz
    obtain ⟨G, hG⟩ := hc.slots u x k hx ((congrArg Prod.snd hmeter).symm.trans hk)
    obtain ⟨G', hG', -⟩ := exists_of_map_eq h.groups.symm hG
    exact ⟨G', hG'⟩
  · intro k G' hG'
    obtain ⟨G, hG, hconsumed⟩ := exists_of_map_eq h.groups hG'
    rw [hconsumed]
    exact hc.nonneg k G hG

end SameCharges

theorem sameCharges_put (hx : e.task? t = some x) (hG : e.groups[g]? = some G)
    (hconsumed : G'.bucket.consumed = G.bucket.consumed) (hmeter : y.meter = x.meter) :
    SameCharges e ((e.updateGroup g fun _ => G').updateTask t fun _ => y) := by
  have hgroups : (e.groups.modify g fun _ => G').map (·.bucket.consumed) =
      e.groups.map (·.bucket.consumed) := by
    refine map_modify_of_eq fun G₁ hG₁ => ?_
    rw [hG] at hG₁
    cases hG₁
    exact hconsumed
  exact ⟨map_put hx hmeter, hgroups, rfl⟩

theorem consumed_checkMember (G : ControlGroup) (x : Task) (now : Nanos) (restart : Bool) :
    (G.checkMember x now restart).1.bucket.consumed = G.bucket.consumed := by
  have hcheck : (G.check now).1.bucket.consumed = G.bucket.consumed :=
    Bucket.consumed_refill G.bucket now
  unfold ControlGroup.checkMember
  split
  · next G' delay heq =>
      rw [heq] at hcheck
      split <;> exact hcheck
  · next G' fault heq =>
      rw [heq] at hcheck
      exact hcheck

theorem meter_checkMember (G : ControlGroup) (x : Task) (now : Nanos) (restart : Bool) :
    (G.checkMember x now restart).2.1.meter = x.meter := by
  unfold ControlGroup.checkMember
  split
  · split
    · split <;> rfl
    · rfl
  · rfl

theorem sameCharges_checkQuota (e : Engine V) (now : Nanos) (t : TaskId) :
    SameCharges e (e.checkQuota now t).1 := by
  unfold checkQuota
  split
  · exact .refl e
  · next x hx =>
      split
      · exact .refl e
      · next g G hgroup =>
          have hG : e.groups[g]? = some G := by
            obtain ⟨k, -, hk⟩ := Option.bind_eq_some_iff.mp hgroup
            obtain ⟨G', hG', heq⟩ := Option.map_eq_some_iff.mp hk
            cases heq
            exact hG'
          have hput := sameCharges_put hx hG (consumed_checkMember G x now true)
            (meter_checkMember G x now true)
          dsimp only
          split
          · exact hput
          · exact hput.trans (sameRecords_blame _ _).sameCharges

theorem SameCharges.gain (h : SameCharges e e') (t : TaskId) : e.gain e' t = 0 := gain_self (h.ran t)

/-! ## Charges -/

/-- Only the task `t` changes, and no group goes. -/
theorem Charged.change (hc : e.Charged)
    (htasks : ∀ u, e'.task? u = if u = t then some y else e.task? u)
    (hy : ∀ k, y.group = some k → ∃ K, e.groups[k]? = some K)
    (hgroups : ∀ k : GroupId, (∃ K, e.groups[k]? = some K) → ∃ K, e'.groups[k]? = some K)
    (hnonneg : ∀ (k : GroupId) (K : ControlGroup), e'.groups[k]? = some K →
      0 ≤ K.bucket.consumed.toInt) : e'.Charged := by
  refine ⟨?_, hnonneg⟩
  intro u z k hz hk
  rw [htasks] at hz
  apply hgroups k
  split at hz
  · cases hz
    exact hy k hk
  · exact hc.slots u z k hz hk

theorem Charged.put (hc : e.Charged) (hx : e.task? t = some x) (hG : e.groups[g]? = some G)
    (hG' : 0 ≤ G'.bucket.consumed.toInt)
    (hy : ∀ k, y.group = some k → ∃ K, e.groups[k]? = some K) :
    ((e.updateGroup g fun _ => G').updateTask t fun _ => y).Charged := by
  have hgroup : ∀ k : GroupId, (e.groups.modify g fun _ => G')[k]? =
      if g = k then some G' else e.groups[k]? := by
    intro k
    rw [Array.getElem?_modify]
    split
    · next hk => rw [← hk, hG]; rfl
    · rfl
  refine hc.change (task?_put (e := e.updateGroup g fun _ => G') hx y) hy ?_ ?_
  · rintro k ⟨K, hK⟩
    change ∃ K, (e.groups.modify g fun _ => G')[k]? = some K
    rw [hgroup]
    split
    · exact ⟨G', rfl⟩
    · exact ⟨K, hK⟩
  · intro k K hK
    change (e.groups.modify g fun _ => G')[k]? = some K at hK
    rw [hgroup] at hK
    split at hK
    · cases hK
      exact hG'
    · exact hc.nonneg k K hK

theorem Charged.make (hc : e.Charged) : e.makeTask.1.Charged := by
  have hnew : ∀ u, e.makeTask.1.task? u =
      if u = e.makeTask.2 then some (Task.fresh e.makeTask.2) else e.task? u := by
    intro u
    rw [task?_makeTask]
    split
    · next hu => rw [hu]
    · rfl
  exact hc.change hnew (fun k hk => by cases hk) (fun _ => id) hc.nonneg

theorem booked_put (hG : e.groups[g]? = some G)
    (hG' : G'.bucket.consumed = G.bucket.consumed) :
    ((e.updateGroup g fun _ => G').updateTask t fun _ => y).booked = e.booked := by
  have htotal := total_modify_of_eq (f := fun G : ControlGroup => G.bucket.consumed.toInt.toNat)
    (fun _ => G') fun K hK => by
      rw [hG] at hK
      cases hK
      rw [hG']
  exact congrArg (· + e.stats.freeRunning.toNat) htotal

theorem gain_put (hx : e.task? t = some x) (hy : y.runTime = x.runTime + k) :
    e.gain ((e.updateGroup g fun _ => G').updateTask t fun _ => y) t = k.toInt.toNat := by
  have hran : ((e.updateGroup g fun _ => G').updateTask t fun _ => y).ran t = y.runTime :=
    ran_eq ((task?_put (e := e.updateGroup g fun _ => G') hx y t).trans (if_pos rfl))
  rw [gain, hran, ran_eq hx, hy, Int64.add_comm, Int64.add_sub_cancel]

/-- A group is charged with what is added to the run time of a task. -/
theorem Charged.charge (hc : e.Charged) (hx : e.task? t = some x) (hG : e.groups[g]? = some G)
    (hG' : G'.bucket = G.bucket.charge k) (hk : 0 ≤ k.toInt) (hy : y.runTime = x.runTime + k)
    (hgroup : ∀ k, y.group = some k → x.group = some k)
    (hcounts : e.Counts ((e.updateGroup g fun _ => G').updateTask t fun _ => y)) :
    ((e.updateGroup g fun _ => G').updateTask t fun _ => y).Charged ∧
      ((e.updateGroup g fun _ => G').updateTask t fun _ => y).booked =
        e.booked + e.gain ((e.updateGroup g fun _ => G').updateTask t fun _ => y) t := by
  have hput : ((e.updateGroup g fun _ => G').updateTask t fun _ => y).groups[g]? = some G' := by
    change (e.groups.modify g fun _ => G')[g]? = some G'
    rw [Array.getElem?_modify, if_pos rfl, hG]
    rfl
  have hnonneg := hc.nonneg g G hG
  have hconsumed : G'.bucket.consumed = G.bucket.consumed + k := by
    rw [hG', Bucket.charge]
    split
    · next hle =>
        rw [Int64.le_iff_toInt_le, Int64.toInt_zero] at hle
        have hzero : k = 0 := Int64.toInt_inj.mp (by rw [Int64.toInt_zero]; omega)
        rw [hzero, Int64.add_zero]
    · rfl
  -- A counter that wrapped would be less than it was.
  have hsum : G'.bucket.consumed.toInt = G.bucket.consumed.toInt + k.toInt := by
    have hle := hcounts.consumed g G G' hG hput
    rw [hconsumed] at hle ⊢
    exact Nanos.toInt_add_of_le hnonneg hk hle
  refine ⟨hc.put hx hG (by omega) fun k hk => hc.slots t x k hx (hgroup k hk), ?_⟩
  have htotal := total_modify (f := fun G : ControlGroup => G.bucket.consumed.toInt.toNat)
    (fun _ => G') hG
  rw [gain_put hx hy]
  change total _ (e.groups.modify g fun _ => G') + e.stats.freeRunning.toNat = _
  unfold booked
  omega

theorem Charged.account (hc : e.Charged) (now : Nanos) (t : TaskId)
    (hcounts : e.Counts (e.accountRun now t)) :
    (e.accountRun now t).Charged ∧
      (e.accountRun now t).booked = e.booked + e.gain (e.accountRun now t) t := by
  cases hx : e.task? t with
  | none =>
      have he : e.accountRun now t = e := by simp only [accountRun, hx]
      rw [he, gain_self rfl]
      exact ⟨hc, rfl⟩
  | some x =>
      have hrun := x.runTime_takeElapsed now
      have hk := x.elapsed_nonneg now
      have hgroup := x.group_takeElapsed now
      cases hslot : x.group with
      | some g =>
          obtain ⟨G, hG⟩ := hc.slots t x g hx hslot
          have he : e.accountRun now t =
              (e.updateGroup g fun _ => G.charge (x.takeElapsed now).2).updateTask t
                fun _ => (x.takeElapsed now).1 := by
            simp only [accountRun, hx, hgroup, hslot, updateGroup, updateTask]
            rw [modify_congr (k := fun _ => G.charge (x.takeElapsed now).2) hG rfl]
          rw [he] at hcounts ⊢
          exact hc.charge hx hG rfl hk hrun (fun k hk => hgroup ▸ hk) hcounts
      | none =>
          have he : e.accountRun now t = { e.updateTask t (fun _ => (x.takeElapsed now).1) with
              stats := e.stats.add .freeRunning (x.takeElapsed now).2.toInt.toNat.toUInt64 } := by
            simp only [accountRun, hx, hgroup, hslot]
            rfl
          have hy : (e.accountRun now t).task? t = some (x.takeElapsed now).1 := by
            rw [he]
            exact (task?_put hx _ t).trans (if_pos rfl)
          have hgain : e.gain (e.accountRun now t) t = (x.takeElapsed now).2.toInt.toNat := by
            rw [gain, ran_eq hy, ran_eq hx, hrun, Int64.add_comm, Int64.add_sub_cancel]
          have hfree := toNat_add_of_le (he ▸ hcounts.free)
          rw [toNat_toUInt64 hk] at hfree
          rw [hgain, he]
          refine ⟨hc.change (task?_put hx _) ?_ (fun _ => id) hc.nonneg, ?_⟩
          · intro k hk
            rw [hgroup, hslot] at hk
            cases hk
          · exact (congrArg (_ + ·) hfree).trans (Nat.add_assoc _ _ _).symm

theorem Charged.detach (hc : e.Charged) (now : Nanos) (t : TaskId) (g : GroupId)
    (hcounts : e.Counts (e.detach now t g)) :
    (e.detach now t g).Charged ∧
      (e.detach now t g).booked = e.booked + e.gain (e.detach now t g) t := by
  unfold Engine.detach at hcounts ⊢
  split
  · next x G hx hG =>
      by_cases hin : x.group = some g
      · simp only [hx, hG, ControlGroup.detach_of_eq hin] at hcounts ⊢
        exact hc.charge hx hG rfl (x.elapsed_nonneg now) (x.runTime_takeElapsed now)
          (fun k hk => by cases hk) hcounts
      · have hs := sameCharges_put (e := e) hx hG rfl rfl
        rw [ControlGroup.detach_of_ne hin, hs.gain]
        exact ⟨hs.charged hc, hs.booked⟩
  · rw [gain_self rfl]
    exact ⟨hc, rfl⟩

theorem Charged.chargeGroup (hc : e.Charged) (now : Nanos) (t : TaskId) (g : GroupId)
    (hcounts : e.Counts (e.chargeGroup now t g)) :
    (e.chargeGroup now t g).Charged ∧
      (e.chargeGroup now t g).booked = e.booked + e.gain (e.chargeGroup now t g) t := by
  unfold Engine.chargeGroup at hcounts ⊢
  split
  · next x G hx hG =>
      simp only [hx, hG] at hcounts ⊢
      exact hc.charge hx hG rfl (x.elapsed_nonneg now) (x.runTime_takeElapsed now)
        (fun k hk => x.group_takeElapsed now ▸ hk) hcounts
  · rw [gain_self rfl]
    exact ⟨hc, rfl⟩

/-- What a task ran before it joins a group is not booked. -/
theorem Charged.attach (hc : e.Charged) (now : Nanos) (t : TaskId) (g : GroupId) :
    (e.attach now t g).1.Charged ∧ (e.attach now t g).1.booked = e.booked := by
  unfold Engine.attach
  split
  · next x G hx hG =>
      split
      · next G' y hattach =>
          rcases ControlGroup.attach_spec hattach with ⟨-, rfl, rfl⟩ | ⟨-, rfl, rfl⟩
          · have hs := sameCharges_put (e := e) hx hG rfl rfl
            exact ⟨hs.charged hc, hs.booked⟩
          · refine ⟨hc.put hx hG (hc.nonneg g G hG) fun k hk => ?_, booked_put hG rfl⟩
            cases hk
            exact ⟨G, hG⟩
      · exact ⟨hc, rfl⟩
  · exact ⟨hc, rfl⟩

theorem Charged.reset (hc : e.Charged) (t : TaskId) (name : String) (c : Nat) :
    (e.updateTask t fun x => (x.reset name c).1).Charged := by
  have hgroup : ∀ (x : Task) k, (x.reset name c).1.group = some k → x.group = some k := by
    intro x k hk
    unfold Task.reset at hk
    split at hk
    · exact hk
    · exact hk
    · dsimp only at hk
      split at hk
      · cases hk
      · split at hk <;> cases hk
  refine ⟨?_, hc.nonneg⟩
  intro u z k hz hk
  rw [task?_updateTask] at hz
  split at hz
  · obtain ⟨x, hx, rfl⟩ := Option.map_eq_some_iff.mp hz
    exact hc.slots u x k hx (hgroup x k hk)
  · exact hc.slots u z k hz hk

end Engine

/-! ## Every run -/

/-- An engine, with what was ever added to the run times of its tasks. -/
structure Meter (V : Type) where
  engine : Engine V
  /-- All that was added to run times. -/
  measured : Nat := 0
  /-- What was added to run times when tasks joined groups. -/
  unbooked : Nat := 0
  /-- The readings of the clock, last first. -/
  readings : List Nanos := []

namespace Meter

variable {V : Type} {m m' : Meter V}

/-- The clock is read, and what this adds to the run time of the task is noted. -/
def read (m : Meter V) (now : Nanos) (t : TaskId) (e : Engine V) : Meter V :=
  { m with
    engine := e
    measured := m.measured + m.engine.gain e t
    readings := now :: m.readings }

/-- The same for a task that joins a group. -/
def readJoining (m : Meter V) (now : Nanos) (t : TaskId) (e : Engine V) : Meter V :=
  { m.read now t e with unbooked := m.unbooked + m.engine.gain e t }

/-- What can happen to the run times of tasks. -/
inductive Step : Meter V → Meter V → Prop
  /-- Anything that neither takes run time nor books it. -/
  | other {m : Meter V} {e : Engine V} (h : m.engine.SameCharges e) : Step m { m with engine := e }
  | make {m : Meter V} : Step m { m with engine := m.engine.makeTask.1 }
  | switchIn {m : Meter V} (now : Nanos) (c : Nat) (t : TaskId) :
      Step m (m.read now t (m.engine.switchIn now c t))
  | check {m : Meter V} (now : Nanos) (t : TaskId) :
      Step m (m.read now t (m.engine.checkQuota now t).1)
  | account {m : Meter V} (now : Nanos) (t : TaskId) :
      Step m (m.read now t (m.engine.accountRun now t))
  | attach {m : Meter V} (now : Nanos) (t : TaskId) (g : GroupId) :
      Step m (m.readJoining now t (m.engine.attach now t g).1)
  | detach {m : Meter V} (now : Nanos) (t : TaskId) (g : GroupId) :
      Step m (m.read now t (m.engine.detach now t g))
  | chargeGroup {m : Meter V} (now : Nanos) (t : TaskId) (g : GroupId) :
      Step m (m.read now t (m.engine.chargeGroup now t g))
  | reset {m : Meter V} (t : TaskId) (name : String) (c : Nat) :
      Step m { m with engine := m.engine.updateTask t fun x => (x.reset name c).1 }

/-- What can be reached from an engine that starts with new groups, as long as no counter
overflows. -/
inductive Reached : Meter V → Prop
  | start {config : Config} {processors : Nat} {groups : List ControlGroup} {pump : EventPump}
      {e : Engine V} (h : Engine.start config processors groups pump = .ok e)
      (opened : ∀ G ∈ groups, G.IsNew) : Reached { engine := e }
  | step {m m' : Meter V} (h : Reached m) (s : Step m m')
      (counts : m.engine.Counts m'.engine) : Reached m'

/-- The books of a meter are in order. -/
structure Balanced (m : Meter V) : Prop where
  charged : m.engine.Charged
  law : m.measured = m.engine.booked + m.unbooked

theorem balanced_start {config : Config} {processors : Nat} {groups : List ControlGroup}
    {pump : EventPump} {e : Engine V} (h : Engine.start config processors groups pump = .ok e)
    (hnew : ∀ G ∈ groups, G.IsNew) : Balanced { engine := e } := by
  have hzero : ∀ G ∈ e.groups, G.bucket.consumed = 0 := by
    intro G hG
    rw [Engine.start_eq h] at hG
    obtain ⟨quota, period, now, rfl⟩ := (hnew G (by simpa using hG)).eq
    rfl
  refine ⟨⟨?_, ?_⟩, ?_⟩
  · intro t x g hx
    rw [Engine.start_eq h] at hx
    cases hx
  · intro g G hG
    rw [hzero G (Array.mem_of_getElem? hG)]
    exact Int.le_refl 0
  · have hfree : e.stats.freeRunning = 0 := by
      rw [Engine.start_eq h]
    have htotal : total (fun G : ControlGroup => G.bucket.consumed.toInt.toNat) e.groups = 0 :=
      total_eq_zero fun G hG => by rw [hzero G hG]; rfl
    simp only [Engine.booked, hfree, htotal]
    rfl

theorem Balanced.read {now : Nanos} {t : TaskId} {e : Engine V} (h : Balanced m)
    (he : e.Charged ∧ e.booked = m.engine.booked + m.engine.gain e t) :
    Balanced (m.read now t e) := by
  have hlaw := h.law
  refine ⟨he.1, ?_⟩
  simp only [Meter.read, he.2]
  omega

theorem Balanced.step (h : Balanced m) (s : Step m m') (hcounts : m.engine.Counts m'.engine) :
    Balanced m' := by
  have hquiet : ∀ {e : Engine V}, m.engine.SameCharges e → ∀ t,
      e.Charged ∧ e.booked = m.engine.booked + m.engine.gain e t := by
    intro e hs t
    rw [hs.gain]
    exact ⟨hs.charged h.charged, hs.booked⟩
  cases s with
  | other hs => exact ⟨hs.charged h.charged, by rw [hs.booked]; exact h.law⟩
  | make => exact ⟨h.charged.make, h.law⟩
  | switchIn now c t =>
      exact h.read (hquiet (Engine.sameRecords_switchIn m.engine now c t).sameCharges t)
  | check now t => exact h.read (hquiet (Engine.sameCharges_checkQuota m.engine now t) t)
  | account now t => exact h.read (h.charged.account now t hcounts)
  | attach now t g =>
      obtain ⟨hcharged, hbooked⟩ := h.charged.attach now t g
      refine ⟨hcharged, ?_⟩
      have hlaw := h.law
      simp only [readJoining, Meter.read, hbooked]
      omega
  | detach now t g => exact h.read (h.charged.detach now t g hcounts)
  | chargeGroup now t g => exact h.read (h.charged.chargeGroup now t g hcounts)
  | reset t name c => exact ⟨h.charged.reset t name c, h.law⟩

/-- All that was ever added to the run times of tasks is booked, each part once: as charged to a
group or as free, except for what was added to the run time of a task when it joined a group. -/
theorem Reached.measured_eq (h : Reached m) : m.measured = m.engine.booked + m.unbooked := by
  have hb : Balanced m := by
    induction h with
    | start h hnew => exact balanced_start h hnew
    | step _ s hcounts ih => exact ih.step s hcounts
  exact hb.law

/-- A task runs in a group, leaves it in mid-slice and runs on outside of it: 4 and 3 units are
charged to the group and 6 are free. -/
theorem measured_eq_in_and_out : ∃ m : Meter Unit, Reached m ∧ m.measured = 13 ∧ m.unbooked = 0 ∧
    m.engine.stats.freeRunning = 6 ∧ m.measured = m.engine.booked + m.unbooked := by
  have h0 := Reached.start (V := Unit)
    (show Engine.start {} 1 [{ bucket := Bucket.full 100 1000 0 }] .absent = .ok _ from rfl)
    (fun G hG => ⟨100, 1000, 0, by rw [List.mem_singleton.mp hG]; rfl⟩)
  have h1 := h0.step .make (by decide)
  have h2 := h1.step (.reset ⟨0⟩ "worker" 0) (by decide)
  have h3 := h2.step (.attach 3 ⟨0⟩ 0) (by decide)
  have h4 := h3.step (.switchIn 5 0 ⟨0⟩) (by decide)
  have h5 := h4.step (.account 9 ⟨0⟩) (by decide)
  have h6 := h5.step (.detach 12 ⟨0⟩ 0) (by decide)
  have h7 := h6.step (.account 18 ⟨0⟩) (by decide)
  exact ⟨_, h7, by decide, by decide, by decide, h7.measured_eq⟩

/-- A task runs outside of any group and joins one in mid-slice: 3 units are added to its run time
and booked nowhere. -/
theorem unbooked_before_attach : ∃ m : Meter Unit, Reached m ∧ m.readings = [8, 5] ∧
    m.measured = 3 ∧ m.engine.booked = 0 := by
  have h0 := Reached.start (V := Unit)
    (show Engine.start {} 1 [{ bucket := Bucket.full 100 1000 0 }] .absent = .ok _ from rfl)
    (fun G hG => ⟨100, 1000, 0, by rw [List.mem_singleton.mp hG]; rfl⟩)
  have h1 := h0.step .make (by decide)
  have h2 := h1.step (.reset ⟨0⟩ "worker" 0) (by decide)
  have h3 := h2.step (.switchIn 5 0 ⟨0⟩) (by decide)
  have h4 := h3.step (.attach 8 ⟨0⟩ 0) (by decide)
  exact ⟨_, h4, rfl, by decide, by decide⟩

end Meter

end GreenThreads

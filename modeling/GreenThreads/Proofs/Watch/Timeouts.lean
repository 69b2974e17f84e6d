import GreenThreads.Proofs.Floor.Timing
import Mathlib.Data.Set.Card

/-!
# The timeouts that are still to come

A timeout is live from the moment when it is armed until it is fired or cancelled. Meanwhile it is
in one place: in the heap of its queue, among those that a carrier keeps back, or in the hand of
whoever polled the queue. Its task knows it, and knows no other.
-/

namespace GreenThreads.Engine

variable {V : Type} {e e' : Engine V} {t u : TaskId} {c k owner : Nat} {q : TimerQueue}
  {r s : TimeoutRef} {y : Timeout} {due due' fired : List TimeoutRef} {f : TimerQueue → TimerQueue}
  {x : Carrier} {ks : List Nat}

/-- The timeout that a task knows. -/
def slot (e : Engine V) (t : TaskId) : Option TimeoutRef := (e.task? t).bind (·.timeout)

/-- The timeouts that were neither cancelled nor fired. -/
def toCome (e : Engine V) (fired : List TimeoutRef) : Set TimeoutRef :=
  { r | ∃ y, e.timeout? r = some y ∧ y.cancelled = false ∧ r ∉ fired }

/-- How often a timeout is in the heap of its queue. -/
def heaped (e : Engine V) (r : TimeoutRef) : Nat :=
  ((e.timersOf r.owner).map fun q => q.heap.toList.count r.number).getD 0

/-- How often carriers keep a timeout back until their task has switched out. -/
def keptBack (e : Engine V) (r : TimeoutRef) : Nat :=
  if r.owner = preciseOwner then total (fun x => x.pendingPrecise.count r.number) e.carriers else 0

/-- In how many places a timeout is that has not been fired. -/
def places (e : Engine V) (due : List TimeoutRef) (r : TimeoutRef) : Nat :=
  e.heaped r + e.keptBack r + due.count r

/-- How many timeouts were armed, fired and cancelled. -/
def reckoning (e : Engine V) : UInt64 × UInt64 × UInt64 :=
  (e.stats.timersArmed, e.stats.timersFired, e.stats.timersCancelled)

/-- The accounts of the timeouts of an engine, of which `due` is in somebody's hand and `fired` has
been fired. -/
structure Kept (e : Engine V) (due fired : List TimeoutRef) : Prop where
  owner : ∀ r y, e.timeout? r = some y → y.owner = r.owner
  spent : ∀ r ∈ fired, ∃ y, e.timeout? r = some y ∧ y.cancelled = false
  place : ∀ r y, e.timeout? r = some y → y.cancelled = false →
    e.places due r + fired.count r = 1
  /-- A task knows a timeout of its own if that is live, and else none. -/
  slot : ∀ t r, e.slot t = some r ↔ r ∈ e.toCome fired ∧ ∃ y, e.timeout? r = some y ∧ y.task = t
  finite : (e.toCome fired).Finite
  counted : e.stats.timersArmed =
    e.stats.timersFired + e.stats.timersCancelled + UInt64.ofNat (e.toCome fired).ncard

theorem mem_toCome : r ∈ e.toCome fired ↔
    ∃ y, e.timeout? r = some y ∧ y.cancelled = false ∧ r ∉ fired := Iff.rfl

theorem toCome_congr (h : ∀ r, e'.timeout? r = e.timeout? r) : e'.toCome fired = e.toCome fired := by
  ext r
  rw [mem_toCome, mem_toCome, h]

/-! ## Accounts -/

theorem Kept.keep (h : Kept e due fired) (hread : ∀ r, e'.timeout? r = e.timeout? r)
    (hslot : ∀ t, e'.slot t = e.slot t) (hstats : e'.reckoning = e.reckoning)
    (hplace : ∀ r y, e.timeout? r = some y → y.cancelled = false →
      e'.places due' r = e.places due r) : Kept e' due' fired := by
  simp only [reckoning, Prod.mk.injEq] at hstats
  refine ⟨?_, ?_, ?_, ?_, ?_, ?_⟩
  · simpa only [hread] using h.owner
  · simpa only [hread] using h.spent
  · intro r y hr hy
    rw [hread] at hr
    rw [hplace r y hr hy]
    exact h.place r y hr hy
  · simpa only [hslot, hread, toCome_congr hread] using h.slot
  · rw [toCome_congr hread]
    exact h.finite
  · rw [toCome_congr hread, hstats.1, hstats.2.1, hstats.2.2]
    exact h.counted

/-- The task of a live timeout knows it. -/
theorem Kept.slot_of_live (h : Kept e due fired) (hr : e.timeout? r = some y)
    (hy : y.cancelled = false) (hf : r ∉ fired) : e.slot y.task = some r :=
  (h.slot y.task r).mpr ⟨⟨y, hr, hy, hf⟩, y, hr, rfl⟩

theorem Kept.not_spent (h : Kept e due fired) (hdue : r ∈ due) (hr : e.timeout? r = some y)
    (hy : y.cancelled = false) : r ∉ fired := by
  have hone := h.place r y hr hy
  have hcount := List.count_pos_iff.mpr hdue
  rw [places] at hone
  rw [← List.count_eq_zero]
  omega

/-- A live timeout ends, in whichever way, and its task forgets it. -/
structure Ends (e e' : Engine V) (fired fired' : List TimeoutRef) (t : TaskId) (r : TimeoutRef) :
    Prop where
  read : ∀ s ≠ r, e'.timeout? s = e.timeout? s
  fired : ∀ s ≠ r, s ∈ fired' ↔ s ∈ fired
  gone : r ∉ e'.toCome fired'
  slot : ∀ u, e'.slot u = if u = t then none else e.slot u

section

variable {fired' : List TimeoutRef}

theorem Ends.toCome (hends : Ends e e' fired fired' t r) :
    e'.toCome fired' = e.toCome fired \ {r} := by
  ext s
  rw [Set.mem_sdiff, Set.mem_singleton_iff]
  by_cases hs : s = r
  · subst hs
    exact ⟨fun h => absurd h hends.gone, fun h => absurd rfl h.2⟩
  · rw [mem_toCome, mem_toCome, hends.read s hs, hends.fired s hs]
    exact ⟨fun h => ⟨h, hs⟩, fun h => h.1⟩

theorem Kept.slot_of_ends (h : Kept e due fired) (hr : e.slot t = some r)
    (hends : Ends e e' fired fired' t r) (u : TaskId) (s : TimeoutRef) :
    e'.slot u = some s ↔ s ∈ e'.toCome fired' ∧ ∃ y, e'.timeout? s = some y ∧ y.task = u := by
  rw [hends.slot, hends.toCome, Set.mem_sdiff, Set.mem_singleton_iff]
  constructor
  · intro hs
    split at hs
    · cases hs
    · next hu =>
        have hne : s ≠ r := by
          rintro rfl
          obtain ⟨-, y, hy, rfl⟩ := (h.slot u s).mp hs
          obtain ⟨-, z, hz, rfl⟩ := (h.slot t s).mp hr
          rw [hy] at hz
          cases hz
          exact hu rfl
        rw [hends.read s hne]
        obtain ⟨hlive, hy⟩ := (h.slot u s).mp hs
        exact ⟨⟨hlive, hne⟩, hy⟩
  · rintro ⟨⟨hlive, hne⟩, hy⟩
    rw [hends.read s hne] at hy
    have hs := (h.slot u s).mpr ⟨hlive, hy⟩
    rw [if_neg]
    · exact hs
    · intro hu
      rw [hu, hr] at hs
      cases hs
      exact hne rfl

theorem Kept.counted_of_ends (h : Kept e due fired) (hr : e.slot t = some r)
    (hends : Ends e e' fired fired' t r) :
    e.stats.timersArmed = e.stats.timersFired + e.stats.timersCancelled +
      (UInt64.ofNat (e'.toCome fired').ncard + 1) := by
  have hlive : r ∈ e.toCome fired := ((h.slot t r).mp hr).1
  rw [h.counted, ← Set.ncard_sdiff_singleton_add_one hlive h.finite, UInt64.ofNat_add,
    hends.toCome]
  rfl

end

theorem Kept.cancelled (h : Kept e due fired) (hr : e.slot t = some r)
    (hread : ∀ s, e'.timeout? s =
      if s = r then (e.timeout? s).map ({ · with cancelled := true }) else e.timeout? s)
    (hslot : ∀ u, e'.slot u = if u = t then none else e.slot u)
    (hstats : e'.reckoning =
      (e.stats.timersArmed, e.stats.timersFired, e.stats.timersCancelled + 1))
    (hplace : ∀ s ≠ r, e'.places due s = e.places due s) : Kept e' due fired := by
  simp only [reckoning, Prod.mk.injEq] at hstats
  have hkeep : ∀ s ≠ r, e'.timeout? s = e.timeout? s := fun s hs => by rw [hread, if_neg hs]
  have hmarked : ∀ z, e'.timeout? r = some z → z.cancelled = true := by
    intro z hz
    rw [hread, if_pos rfl] at hz
    obtain ⟨y, -, rfl⟩ := Option.map_eq_some_iff.mp hz
    rfl
  have hne : ∀ s z, e'.timeout? s = some z → z.cancelled = false → s ≠ r := by
    rintro s z hz hc rfl
    rw [hmarked z hz] at hc
    cases hc
  have hends : Ends e e' fired fired t r := by
    refine ⟨hkeep, fun _ _ => .rfl, ?_, hslot⟩
    rintro ⟨z, hz, hc, -⟩
    exact hne r z hz hc rfl
  refine ⟨?_, ?_, ?_, h.slot_of_ends hr hends, ?_, ?_⟩
  · intro s z hz
    rw [hread] at hz
    split at hz
    · obtain ⟨y, hy, rfl⟩ := Option.map_eq_some_iff.mp hz
      exact h.owner s y hy
    · exact h.owner s z hz
  · intro s hs
    obtain ⟨z, hz, hc⟩ := h.spent s hs
    obtain ⟨⟨-, -, -, hf⟩, -⟩ := (h.slot t r).mp hr
    exact ⟨z, by rw [hkeep s fun heq => hf (heq ▸ hs)]; exact hz, hc⟩
  · intro s z hz hc
    have hs := hne s z hz hc
    rw [hkeep s hs] at hz
    rw [hplace s hs]
    exact h.place s z hz hc
  · rw [hends.toCome]
    exact h.finite.sdiff
  · rw [hstats.1, hstats.2.1, hstats.2.2, h.counted_of_ends hr hends]
    ac_rfl

/-- A live timeout in somebody's hand is fired. -/
theorem Kept.fire (h : Kept e due fired) (hdue : r ∈ due) (hr : e.timeout? r = some y)
    (hy : y.cancelled = false) (hread : ∀ s, e'.timeout? s = e.timeout? s)
    (hslot : ∀ u, e'.slot u = if u = y.task then none else e.slot u)
    (hstats : e'.reckoning =
      (e.stats.timersArmed, e.stats.timersFired + 1, e.stats.timersCancelled))
    (hplace : ∀ s, e'.places [] s = e.places [] s) : Kept e' (due.erase r) (r :: fired) := by
  simp only [reckoning, Prod.mk.injEq] at hstats
  have hcount : 0 < due.count r := List.count_pos_iff.mpr hdue
  have hf := h.not_spent hdue hr hy
  have hknown := h.slot_of_live hr hy hf
  have hends : Ends e e' fired (r :: fired) y.task r := by
    refine ⟨fun s _ => hread s, fun s hs => by simp [hs], ?_, hslot⟩
    rintro ⟨z, -, -, hz⟩
    exact hz List.mem_cons_self
  refine ⟨?_, ?_, ?_, h.slot_of_ends hknown hends, ?_, ?_⟩
  · simpa only [hread] using h.owner
  · intro s hs
    rw [hread]
    rcases List.mem_cons.mp hs with rfl | hs
    · exact ⟨y, hr, hy⟩
    · exact h.spent s hs
  · intro s z hz hc
    rw [hread] at hz
    have hone := h.place s z hz hc
    have hsame := hplace s
    simp only [places, List.count_nil, Nat.add_zero] at hone hsame ⊢
    rw [hsame, List.count_cons]
    by_cases hs : s = r
    · subst hs
      rw [List.count_erase_self]
      simp only [beq_self_eq_true, ↓reduceIte]
      omega
    · rw [List.count_erase_of_ne hs]
      simp only [beq_iff_eq, Ne.symm hs, ↓reduceIte, Nat.add_zero]
      exact hone
  · rw [hends.toCome]
    exact h.finite.sdiff
  · rw [hstats.1, hstats.2.1, hstats.2.2, h.counted_of_ends hknown hends]
    ac_rfl

/-- A task that knows no timeout gets one. -/
theorem Kept.armed (h : Kept e due fired) (hnew : e.timeout? r = none) (hnone : e.slot y.task = none)
    (hy : y.cancelled = false) (ho : y.owner = r.owner)
    (hread : ∀ s, e'.timeout? s = if s = r then some y else e.timeout? s)
    (hslot : ∀ u, e'.slot u = if u = y.task then some r else e.slot u)
    (hstats : e'.reckoning =
      (e.stats.timersArmed + 1, e.stats.timersFired, e.stats.timersCancelled))
    (hzero : e.places due r = 0)
    (hplace : ∀ s, e'.places due s = e.places due s + if s = r then 1 else 0) :
    Kept e' due fired := by
  simp only [reckoning, Prod.mk.injEq] at hstats
  have hf : r ∉ fired := by
    intro hr
    obtain ⟨z, hz, -⟩ := h.spent r hr
    rw [hnew] at hz
    cases hz
  have hnot : r ∉ e.toCome fired := by
    rintro ⟨z, hz, -⟩
    rw [hnew] at hz
    cases hz
  have hne : ∀ {s z}, e.timeout? s = some z → s ≠ r := by
    rintro s z hz rfl
    rw [hnew] at hz
    cases hz
  have hset : e'.toCome fired = insert r (e.toCome fired) := by
    ext s
    simp only [mem_toCome, hread, Set.mem_insert_iff]
    constructor
    · rintro ⟨z, hz, hc, hs⟩
      split at hz
      · next hsr => exact .inl hsr
      · exact .inr ⟨z, hz, hc, hs⟩
    · rintro (rfl | ⟨z, hz, hc, hs⟩)
      · exact ⟨y, if_pos rfl, hy, hf⟩
      · exact ⟨z, by rw [if_neg (hne hz)]; exact hz, hc, hs⟩
  refine ⟨?_, ?_, ?_, ?_, ?_, ?_⟩
  · intro s z hz
    rw [hread] at hz
    split at hz
    · next hs => cases hz; rw [hs]; exact ho
    · exact h.owner s z hz
  · intro s hs
    obtain ⟨z, hz, hc⟩ := h.spent s hs
    exact ⟨z, by rw [hread, if_neg (hne hz)]; exact hz, hc⟩
  · intro s z hz hc
    rw [hread] at hz
    rw [hplace]
    split at hz
    · next hs =>
        subst hs
        rw [if_pos rfl, hzero, List.count_eq_zero.mpr hf]
    · next hs =>
        rw [if_neg hs]
        exact h.place s z hz hc
  · intro u s
    rw [hslot, hset, Set.mem_insert_iff, hread]
    constructor
    · intro hs
      split at hs
      · next hu =>
          cases hs
          exact ⟨.inl rfl, y, if_pos rfl, hu.symm⟩
      · obtain ⟨hlive, z, hz, hzu⟩ := (h.slot u s).mp hs
        exact ⟨.inr hlive, z, by rw [if_neg (hne hz)]; exact hz, hzu⟩
    · rintro ⟨hmem, z, hz, rfl⟩
      split at hz
      · next hs => cases hz; rw [if_pos rfl, hs]
      · next hs =>
          have hold := (h.slot z.task s).mpr ⟨hmem.resolve_left hs, z, hz, rfl⟩
          rw [if_neg]
          · exact hold
          · intro heq
            rw [heq, hnone] at hold
            cases hold
  · rw [hset]
    exact h.finite.insert r
  · rw [hset, Set.ncard_insert_of_notMem hnot h.finite, UInt64.ofNat_add, hstats.1, hstats.2.1,
      hstats.2.2, h.counted]
    have hone : UInt64.ofNat 1 = 1 := rfl
    rw [hone]
    ac_rfl

/-! ## Places -/

theorem heaped_of_timersOf (h : e.timersOf r.owner = some q) :
    e.heaped r = q.heap.toList.count r.number := by
  rw [heaped, h, Option.map_some, Option.getD_some]

theorem heaped_updateTimers (h : e.timersOf owner = some q) (r : TimeoutRef) :
    (e.updateTimers owner f).heaped r =
      if r.owner = owner then (f q).heap.toList.count r.number else e.heaped r := by
  unfold heaped
  rw [timersOf_updateTimers]
  split
  · next ho => rw [ho, h]; rfl
  · rfl

theorem keptBack_of_map (h : e'.carriers.map (·.pendingPrecise) = e.carriers.map (·.pendingPrecise))
    (r : TimeoutRef) : e'.keptBack r = e.keptBack r := by
  unfold keptBack
  rw [total_of_map_eq (fun l : List Nat => l.count r.number) (fun _ => rfl) h]

theorem keptBack_updateTimers (e : Engine V) (owner : Nat) (f : TimerQueue → TimerQueue)
    (r : TimeoutRef) : (e.updateTimers owner f).keptBack r = e.keptBack r :=
  keptBack_of_map (pending_updateTimers e owner f) r

theorem keptBack_updateCarrier {g : Carrier → Carrier} (hx : e.carriers[c]? = some x)
    (r : TimeoutRef) :
    (e.updateCarrier c g).keptBack r +
        (if r.owner = preciseOwner then x.pendingPrecise.count r.number else 0) =
      e.keptBack r + if r.owner = preciseOwner then (g x).pendingPrecise.count r.number else 0 := by
  unfold keptBack
  split
  · exact total_modify (f := fun x : Carrier => x.pendingPrecise.count r.number) g hx
  · rfl

/-- One if it is this timeout, else zero. -/
def here (r s : TimeoutRef) : Nat := if s = r then 1 else 0

theorem count_here (owner k : Nat) (l : List Nat) (s : TimeoutRef) :
    (if s.owner = owner then (k :: l).count s.number else 0) =
      (if s.owner = owner then l.count s.number else 0) + here ⟨owner, k⟩ s := by
  unfold here
  by_cases ho : s.owner = owner
  · rw [if_pos ho, if_pos ho, List.count_cons]
    by_cases hk : s.number = k
    · have hs : s = ⟨owner, k⟩ := by rw [← ho, ← hk]
      rw [if_pos hs, if_pos (by rw [hk, beq_self_eq_true])]
    · have hs : s ≠ ⟨owner, k⟩ := fun heq => hk (congrArg TimeoutRef.number heq)
      rw [if_neg hs, if_neg (by simpa using Ne.symm hk)]
  · have hs : s ≠ ⟨owner, k⟩ := fun heq => ho (congrArg TimeoutRef.owner heq)
    rw [if_neg ho, if_neg ho, if_neg hs]

theorem places_register (hq : e.timersOf r.owner = some q) (hy : q.bare[r.number]? = some y)
    (ho : y.owner = q.owner) (due : List TimeoutRef) (s : TimeoutRef) :
    (e.register r).places due s = e.places due s + here r s := by
  obtain ⟨z, hz, rfl⟩ := Option.map_eq_some_iff.mp ((Array.getElem?_map ..).symm.trans hy)
  have hperm : ((q.insert r.number).toOption.getD q).heap.toList.Perm
      (r.number :: q.heap.toList) := by
    rw [TimerQueue.insert_of_owner hz ho, Except.toOption, Option.getD_some]
    refine (TimerQueue.rearranged_insert q r.number).heap.trans ?_
    rw [Array.toList_push]
    exact List.perm_append_singleton _ _
  have hheaped : (e.register r).heaped s = e.heaped s + here r s := by
    rw [Engine.register, heaped_updateTimers hq, hperm.count_eq]
    split
    · next hs =>
        have hcount := count_here r.owner r.number q.heap.toList s
        rw [if_pos hs, if_pos hs] at hcount
        rw [hcount, heaped_of_timersOf (hs ▸ hq)]
    · next hs =>
        have hnot : here r s = 0 := if_neg fun heq => hs (by rw [heq])
        rw [hnot, Nat.add_zero]
  rw [places, places, hheaped, Engine.register, keptBack_updateTimers]
  omega

/-! ## Reading -/

theorem slot_updateTask (e : Engine V) (t u : TaskId) (g : Task → Task) :
    (e.updateTask t g).slot u =
      if u = t then (e.task? u).bind fun x => (g x).timeout else e.slot u := by
  unfold slot
  rw [task?_updateTask]
  split
  · rw [Option.bind_map]; rfl
  · rfl

theorem slot_takeTimeout (e : Engine V) (t u : TaskId) :
    (e.updateTask t fun x => x.takeTimeout.1).slot u = if u = t then none else e.slot u := by
  rw [slot_updateTask]
  split
  · cases e.task? u <;> rfl
  · rfl

theorem slot_updateTimers (e : Engine V) (owner : Nat) (f : TimerQueue → TimerQueue) (u : TaskId) :
    (e.updateTimers owner f).slot u = e.slot u := by
  unfold slot task?
  rw [tasks_updateTimers]

theorem stats_updateTimers (e : Engine V) (owner : Nat) (f : TimerQueue → TimerQueue) :
    (e.updateTimers owner f).stats = e.stats := by
  unfold Engine.updateTimers; split <;> rfl

/-- `e'` has the timeouts of `e`, and the tasks know the same of them. -/
structure SameClock (e e' : Engine V) : Prop where
  timers : ∀ o, e'.timersOf o = e.timersOf o
  keptBack : ∀ r, e'.keptBack r = e.keptBack r
  slot : ∀ t, e'.slot t = e.slot t
  reckoning : e'.reckoning = e.reckoning

theorem SameClock.refl (e : Engine V) : SameClock e e := ⟨fun _ => rfl, fun _ => rfl, fun _ => rfl, rfl⟩

theorem SameClock.trans {e'' : Engine V} (h : SameClock e e') (h' : SameClock e' e'') :
    SameClock e e'' where
  timers := fun o => (h'.timers o).trans (h.timers o)
  keptBack := fun r => (h'.keptBack r).trans (h.keptBack r)
  slot := fun t => (h'.slot t).trans (h.slot t)
  reckoning := h'.reckoning.trans h.reckoning

theorem SameClock.timeout? (h : SameClock e e') (r : TimeoutRef) : e'.timeout? r = e.timeout? r := by
  unfold Engine.timeout?
  rw [h.timers]

theorem SameClock.places (h : SameClock e e') (due : List TimeoutRef) (r : TimeoutRef) :
    e'.places due r = e.places due r := by
  unfold Engine.places heaped
  rw [h.timers, h.keptBack]

theorem SameTimers.sameClock (h : SameTimers e e') (hs : e'.reckoning = e.reckoning) :
    SameClock e e' where
  timers := h.timersOf
  keptBack := by
    apply keptBack_of_map
    have hmap : ∀ xs : Array Carrier, xs.map (·.pendingPrecise) = (xs.map Carrier.clock).map (·.2) := by
      intro xs
      rw [Array.map_map]
      rfl
    rw [hmap, h.clocks, ← hmap]
  slot := by
    intro t
    have hget := congrArg (·[t.index]?) h.slots
    simp only [Array.getElem?_map] at hget
    have hmap : ∀ o : Option Task, o.bind (·.timeout) = (o.map (·.timeout)).bind id := by
      intro o
      cases o <;> rfl
    unfold Engine.slot task?
    rw [hmap, hget, ← hmap]
  reckoning := hs

theorem Kept.same (h : Kept e due fired) (hs : SameClock e e') : Kept e' due fired :=
  h.keep hs.timeout? hs.slot hs.reckoning fun r _ _ _ => hs.places due r

end GreenThreads.Engine

import GreenThreads.Proofs.Floor.Alarms

/-!
# Steps that hand a task over

Here are the steps that take a right out of an engine or put one into it, and those that give a task
work or take it away.
-/

namespace GreenThreads

namespace Engine

variable {V : Type} {e e' : Engine V} {c i : Nat} {t u : TaskId} {r : Runnable}

theorem dequeue?_spec (h : e.dequeue? i = some (r, e')) : ∃ x rest,
    e.carriers[i]? = some x ∧ x.queue = r :: rest ∧
      e' = e.updateCarrier i ({ · with queue := rest }) := by
  unfold dequeue? at h
  split at h
  · next s carrier hs =>
      cases h
      obtain ⟨x, hx, hr⟩ := Option.bind_eq_some_iff.mp hs
      unfold Carrier.dequeue? at hr
      split at hr
      · cases hr
      · next s rest hqueue =>
          cases hr
          exact ⟨x, rest, hx, hqueue, updateCarrier_congr hx rfl⟩
  · cases h

theorem dequeueShared?_spec (h : e.dequeueShared? = some (r, e')) :
    ∃ rest, e.shared = r :: rest ∧ e' = { e with shared := rest } := by
  unfold dequeueShared? at h
  split at h
  · cases h
  · next s rest hs =>
      cases h
      exact ⟨rest, hs, rfl⟩

theorem popPooled?_spec (h : e.popPooled? i = some (t, e')) : ∃ x rest,
    e.carriers[i]? = some x ∧ x.pool.items = t :: rest ∧
      e' = e.updateCarrier i fun x =>
        { x with pool := { capacity := x.pool.capacity, items := rest } } := by
  unfold popPooled? at h
  split at h
  · next s pool hs =>
      cases h
      obtain ⟨x, hx, hr⟩ := Option.bind_eq_some_iff.mp hs
      unfold Pool.pop? at hr
      split at hr
      · cases hr
      · next s rest hitems =>
          cases hr
          exact ⟨x, rest, hx, hitems, updateCarrier_congr hx rfl⟩
  · cases h

end Engine

namespace Floor

variable {V : Type} {f : Floor V} {c : Nat} {t : TaskId} {p : Phase} {a : Axis}
  {e : Engine V} {now deadline : Nanos}

/-- Carrier `c` gets on from `p` to `p'`, and every account of a floor changes on both sides by the
same. -/
theorem Sound.advance (h : Sound f) {f' : Floor V} {p' : Phase} (hp : f.phases[c]? = some p)
    (hphases : f'.phases = f.phases.modify c fun _ => p')
    (hsize : f'.engine.carriers.size = f.engine.carriers.size) (hroster : Roster f'.engine)
    (hplaced : Placed (f.phases.modify c fun _ => p') f'.engine.carriers)
    (hlaw : ∀ u, f'.lying u + tally p'.right u + f.engine.flag u (·.status == .alive) =
      f.lying u + tally p.right u + f'.engine.flag u (·.status == .alive))
    (hlocked : ∀ u, f'.engine.seated u + f.engine.flag u (·.locked) =
      f.engine.seated u + f'.engine.flag u (·.locked))
    (hmarked : ∀ u, f'.engine.queued u + tally p'.popped u + f.engine.flag u (·.enqueued) =
      f.engine.queued u + tally p.popped u + f'.engine.flag u (·.enqueued))
    (hspare : ∀ u, f'.engine.pooled u + tally p'.readied u +
        f.engine.flag u (·.status == .cached) ≤
      f.engine.pooled u + tally p.readied u + f'.engine.flag u (·.status == .cached))
    (hnative : ∀ u a, f'.engine.flag u (·.parker a == .waitingNative) = 0 ∨
      f'.engine.flag u (·.parker a == .waitingNative) + tally (p.blocks a) u ≤
        f.engine.flag u (·.parker a == .waitingNative) + tally (p'.blocks a) u)
    (htiming : f'.engine.Timing f'.due) (hfaults : f'.engine.faults = f.engine.faults) :
    Sound f' := by
  have hphased : ∀ k u, f'.phased k u + tally (k p) u = f.phased k u + tally (k p') u := by
    intro k u
    rw [phased, hphases]
    exact phased_modify hp p' k u
  refine ⟨?_, hroster, ?_, ?_, ?_, ?_, ?_, ?_, htiming, ?_⟩
  · rw [hphases, Array.size_modify, hsize]
    exact h.size
  · rw [hphases]
    exact hplaced
  · intro u
    have hold := h.law u
    have hright := hphased Phase.right u
    have hu := hlaw u
    omega
  · intro u
    have hold := h.locked u
    have hu := hlocked u
    omega
  · intro u
    have hold := h.marked u
    have hpopped := hphased Phase.popped u
    have hu := hmarked u
    omega
  · intro u
    have hold := h.spare u
    have hreadied := hphased Phase.readied u
    have hu := hspare u
    omega
  · intro u a
    have hold := h.native u a
    have hblocks := hphased (Phase.blocks a) u
    rcases hnative u a with hu | hu
    · omega
    · omega
  · rw [hfaults]
    exact h.faults

theorem Sound.stay (h : Sound f) {f' : Floor V} (hphases : f'.phases = f.phases)
    (hsize : f'.engine.carriers.size = f.engine.carriers.size) (hroster : Roster f'.engine)
    (hseats : f'.engine.carriers.map Carrier.seats = f.engine.carriers.map Carrier.seats)
    (hlaw : ∀ u, f'.lying u + f.engine.flag u (·.status == .alive) =
      f.lying u + f'.engine.flag u (·.status == .alive))
    (hlocked : ∀ u, f'.engine.seated u + f.engine.flag u (·.locked) =
      f.engine.seated u + f'.engine.flag u (·.locked))
    (hmarked : ∀ u, f'.engine.queued u + f.engine.flag u (·.enqueued) =
      f.engine.queued u + f'.engine.flag u (·.enqueued))
    (hspare : ∀ u, f'.engine.pooled u + f.engine.flag u (·.status == .cached) ≤
      f.engine.pooled u + f'.engine.flag u (·.status == .cached))
    (hnative : ∀ u a, f'.engine.flag u (·.parker a == .waitingNative) ≤
      f.engine.flag u (·.parker a == .waitingNative))
    (htiming : f'.engine.Timing f'.due) (hfaults : f'.engine.faults = f.engine.faults) :
    Sound f' := by
  have hphased : ∀ k u, f'.phased k u = f.phased k u := by
    intro k u
    rw [phased, hphases, phased]
  refine ⟨?_, hroster, ?_, ?_, ?_, ?_, ?_, ?_, htiming, ?_⟩
  · rw [hphases, hsize]
    exact h.size
  · rw [hphases]
    exact h.placed.carriers hseats
  · intro u
    have hold := h.law u
    have hu := hlaw u
    rw [hphased]
    omega
  · intro u
    have hold := h.locked u
    have hu := hlocked u
    omega
  · intro u
    have hold := h.marked u
    have hu := hmarked u
    rw [hphased]
    omega
  · intro u
    have hold := h.spare u
    have hu := hspare u
    rw [hphased]
    omega
  · intro u a
    rw [hphased]
    exact Nat.le_trans (hnative u a) (h.native u a)
  · rw [hfaults]
    exact h.faults

/-! ## Dispatch -/

theorem map_seats_updateCarrier {g : Carrier → Carrier} {i : Nat}
    (hg : ∀ x, (g x).seats = x.seats) : (e.updateCarrier i g).carriers.map Carrier.seats =
      e.carriers.map Carrier.seats := Engine.map_updateCarrier hg

theorem size_updateCarrier (e : Engine V) (i : Nat) (g : Carrier → Carrier) :
    (e.updateCarrier i g).carriers.size = e.carriers.size := Array.size_modify

theorem Sound.take_of (h : Sound f) {r : Runnable} (hp : f.phases[c]? = some .looking)
    (hsize : e.carriers.size = f.engine.carriers.size) (htasks : e.tasks = f.engine.tasks)
    (hqueued : ∀ u, e.queued u + tally r.task? u = f.engine.queued u)
    (hdeferrals : ∀ u, e.deferrals u = f.engine.deferrals u)
    (hseated : ∀ u, e.seated u = f.engine.seated u)
    (hpooled : ∀ u, e.pooled u = f.engine.pooled u)
    (hseats : e.carriers.map Carrier.seats = f.engine.carriers.map Carrier.seats)
    (htimers : f.engine.SameTimers e) (hfaults : e.faults = f.engine.faults) :
    Sound (f.move c (.holding r) e) := by
  have hflag : ∀ u p, e.flag u p = f.engine.flag u p := by
    intro u p
    rw [Engine.flag, Engine.task?, htasks, ← Engine.task?, ← Engine.flag]
  have hwaiting : ∀ u, e.waiting u = f.engine.waiting u := by
    intro u
    rw [Engine.waiting, hflag, hflag, ← Engine.waiting]
  refine h.advance hp rfl hsize (h.roster.of_map (congrArg (Array.map _) htasks) hsize)
    (h.placed.advance hp hseats rfl fun _ => rfl) ?_ ?_ ?_ ?_ ?_ (h.timing.sameTimers htimers)
    hfaults
  · intro u
    have hq := hqueued u
    simp only [lying, move, hdeferrals, hwaiting, htimers.alarms, hflag, Phase.right, tally_none]
    omega
  · intro u
    simp only [move, hseated, hflag]
  · intro u
    have hq := hqueued u
    simp only [move, hflag, Phase.popped, tally_none]
    omega
  · intro u
    simp only [move, hpooled, hflag, Phase.readied]
    omega
  · intro u a
    simp only [move, hflag, Phase.blocks]
    omega

/-- An entry is taken out of the run queue of some carrier. -/
theorem Sound.dequeue (h : Sound f) {r : Runnable} {i : Nat} (hp : f.phases[c]? = some .looking)
    (hi : f.engine.dequeue? i = some (r, e)) : Sound (f.move c (.holding r) e) := by
  obtain ⟨x, rest, hx, hqueue, rfl⟩ := Engine.dequeue?_spec hi
  refine h.take_of hp (size_updateCarrier _ _ _) rfl ?_ (fun u => ?_) (fun u => ?_) (fun u => ?_)
    (map_seats_updateCarrier fun _ => rfl) ?_ rfl
  · intro u
    have hsum := Engine.queued_updateCarrier_add hx ({ · with queue := rest }) u
    rw [hqueue, count_resume_cons] at hsum
    simp only at hsum
    omega
  · exact Engine.deferrals_updateCarrier fun _ => rfl
  · exact Engine.seated_updateCarrier fun _ => rfl
  · exact Engine.pooled_updateCarrier fun _ => rfl
  · exact Engine.sameTimers_updateCarrier fun _ => rfl

/-- An entry is taken out of the shared run queue. -/
theorem Sound.dequeueShared (h : Sound f) {r : Runnable} (hp : f.phases[c]? = some .looking)
    (hs : f.engine.dequeueShared? = some (r, e)) : Sound (f.move c (.holding r) e) := by
  obtain ⟨rest, hshared, rfl⟩ := Engine.dequeueShared?_spec hs
  refine h.take_of hp rfl rfl ?_ (fun _ => rfl) (fun _ => rfl) (fun _ => rfl) rfl
    ⟨rfl, rfl, rfl⟩ rfl
  intro u
  simp only [Engine.queued, hshared, count_resume_cons]
  omega

theorem Sound.take (h : Sound f) {r : Runnable} (hp : f.phases[c]? = some .looking)
    (ht : f.engine.Taken c r e) : Sound (f.move c (.holding r) e) := by
  cases ht with
  | own hi => exact h.dequeue hp hi
  | stolen pulls runs hi => exact h.dequeue hp hi
  | shared pulls hs => exact h.dequeueShared hp hs

/-- What of a task neither its mark nor its axes touch. -/
def post (x : Task) : TaskId × Bool × Status × Option Nat × Bool × Option TimeoutRef :=
  (x.id, x.isThread, x.status, x.carrier, x.locked, x.timeout)

theorem Sound.advance_task (h : Sound f) {p' : Phase} {g : Task → Task}
    (hp : f.phases[c]? = some p) (hg : ∀ x, post (g x) = post x) (hseat : p'.seat = p.seat)
    (hlate : p'.isLate = false → p.isLate = false) (hreadied : p'.readied = p.readied)
    (hright : ∀ u, (f.engine.updateTask t g).waiting u + tally p'.right u =
      f.engine.waiting u + tally p.right u)
    (hpopped : ∀ u, tally p'.popped u + f.engine.flag u (·.enqueued) =
      tally p.popped u + (f.engine.updateTask t g).flag u (·.enqueued))
    (hnative : ∀ u a, (f.engine.updateTask t g).flag u (·.parker a == .waitingNative) = 0 ∨
      (f.engine.updateTask t g).flag u (·.parker a == .waitingNative) + tally (p.blocks a) u ≤
        f.engine.flag u (·.parker a == .waitingNative) + tally (p'.blocks a) u) :
    Sound (f.move c p' (f.engine.updateTask t g)) := by
  simp only [post, Prod.mk.injEq] at hg
  have hid : ∀ x, (g x).id = x.id := fun x => (hg x).1
  have hthread : ∀ x, (g x).isThread = x.isThread := fun x => (hg x).2.1
  have hstatus : ∀ x, (g x).status = x.status := fun x => (hg x).2.2.1
  have hcarrier : ∀ x, (g x).carrier = x.carrier := fun x => (hg x).2.2.2.1
  have hlocked : ∀ x, (g x).locked = x.locked := fun x => (hg x).2.2.2.2.1
  have htimeout : ∀ x, (g x).timeout = x.timeout := fun x => (hg x).2.2.2.2.2
  have hflag : ∀ {u} {q : Status}, (f.engine.updateTask t g).flag u (·.status == q) =
      f.engine.flag u (·.status == q) := Engine.flag_updateTask_of_eq fun x => by rw [hstatus]
  refine h.advance hp rfl rfl (h.roster.updateTask_of_eq hid hthread hstatus hcarrier)
    (h.placed.advance hp rfl hseat hlate) ?_ ?_ ?_ ?_ hnative
    (h.timing.sameTimers (Engine.sameTimers_updateTask htimeout)) rfl
  · intro u
    have hu := hright u
    simp only [lying, move, hflag, Engine.queued_updateTask, Engine.deferrals_updateTask,
      Engine.alarms_updateTask]
    omega
  · intro u
    have hsame : (f.engine.updateTask t g).flag u (·.locked) = f.engine.flag u (·.locked) :=
      Engine.flag_updateTask_of_eq hlocked
    simp only [move, hsame, Engine.seated_updateTask]
  · intro u
    have hu := hpopped u
    simp only [move, Engine.queued_updateTask]
    omega
  · intro u
    simp only [move, hflag, hreadied, Engine.pooled_updateTask]
    omega

/-- The mark of an entry that a carrier has taken is there, and only there. -/
theorem Sound.flag_enqueued (h : Sound f) (hp : f.phases[c]? = some (.holding (.resume t)))
    (u : TaskId) : f.engine.flag u (·.enqueued) = tally (some t) u +
      (f.engine.updateTask t ({ · with enqueued := false })).flag u (·.enqueued) := by
  obtain ⟨x, hx, -⟩ := h.alive hp rfl
  by_cases hu : u = t
  · subst hu
    have hmarked := h.marked u
    have hle : 1 ≤ f.phased Phase.popped u := phased_pos hp rfl
    have hone := f.engine.flag_le_one u (·.enqueued)
    rw [Engine.flag_updateTask_self hx, tally_self, Bool.toNat_false]
    omega
  · rw [Engine.flag_updateTask_of_ne hu, tally_of_ne hu, Nat.zero_add]

theorem Sound.unmark (h : Sound f) (hp : f.phases[c]? = some (.holding (.resume t))) :
    Sound (f.move c (.resuming t) (f.engine.updateTask t ({ · with enqueued := false }))) := by
  refine h.advance_task hp (fun _ => rfl) rfl (fun _ => rfl) rfl ?_ ?_ ?_
  · intro u
    have hwaiting : (f.engine.updateTask t ({ · with enqueued := false })).waiting u =
        f.engine.waiting u := Engine.waiting_updateTask_of_eq (fun _ => rfl) fun _ => rfl
    rw [hwaiting]
    rfl
  · intro u
    have hmark := h.flag_enqueued hp u
    simp only [Phase.popped, Runnable.task?, tally_none]
    omega
  · intro u a
    have hnative : (f.engine.updateTask t ({ · with enqueued := false })).flag u
        (·.parker a == .waitingNative) = f.engine.flag u (·.parker a == .waitingNative) :=
      Engine.flag_updateTask_of_eq fun x => by cases a <;> rfl
    simp only [hnative, Phase.blocks]
    omega

/-! ## Parking -/

theorem flag_setParker {x : Task} (hx : e.task? t = some x) (a b : Axis) (q : Task → Parker)
    (u : TaskId) (n : Parker) :
    (e.updateTask t fun y => y.setParker a (q y)).flag u (·.parker b == n) =
      if u = t ∧ b = a then (q x == n).toNat else e.flag u (·.parker b == n) := by
  by_cases hu : u = t
  · subst hu
    rw [Engine.flag_updateTask_self hx, Engine.flag_of_task? hx]
    cases a <;> cases b <;> simp [Task.setParker, Task.parker]
  · rw [Engine.flag_updateTask_of_ne hu, if_neg fun h => hu h.1]

theorem post_setParker (x : Task) (a : Axis) (q : Parker) : post (x.setParker a q) = post x := by
  cases a <;> rfl

theorem enqueued_setParker (x : Task) (a : Axis) (q : Parker) :
    (x.setParker a q).enqueued = x.enqueued := by
  cases a <;> rfl

/-- The right to go on is given up for a place where the task waits. -/
theorem Sound.park (h : Sound f) {x : Task} {q : Parker} (hp : f.phases[c]? = some (.working t))
    (hx : f.engine.task? t = some x) (hq : (x.parker a).begin false = .ok (q, true)) :
    Sound (f.move c (.leaving t (some a)) (f.engine.updateTask t (·.setParker a q))) := by
  obtain ⟨hfree, rfl⟩ : x.parker a = .free ∧ q = .waiting := by
    cases hpark : x.parker a with
    | free => rw [hpark] at hq; cases hq; exact ⟨rfl, rfl⟩
    | permitted => rw [hpark] at hq; cases hq
    | waiting => rw [hpark] at hq; cases hq
    | waitingNative => rw [hpark] at hq; cases hq
  refine h.advance_task hp (fun x => post_setParker x a _) rfl (fun hl => by cases hl) rfl ?_ ?_ ?_
  · intro u
    have hwaiting := Engine.waiting_setParker hx a (fun _ => .waiting) u
    have hnone : Engine.waiter (x.parker a) t = none := by rw [hfree]; rfl
    have hsome : Engine.waiter .waiting t = some t := rfl
    rw [hnone, hsome, tally_none] at hwaiting
    simp only [Phase.right, tally_none]
    omega
  · intro u
    have hsame : (f.engine.updateTask t (·.setParker a .waiting)).flag u (·.enqueued) =
        f.engine.flag u (·.enqueued) :=
      Engine.flag_updateTask_of_eq fun x => enqueued_setParker x a _
    rw [hsame]
    rfl
  · intro u b
    have hflag := flag_setParker hx a b (fun _ => .waiting) u .waitingNative
    rw [hflag]
    split
    · exact .inl rfl
    · exact .inr (Nat.le_refl _)

/-- A task in a critical section keeps its carrier while it waits. -/
theorem Sound.block (h : Sound f) {x : Task} {q : Parker} (hp : f.phases[c]? = some (.working t))
    (hx : f.engine.task? t = some x) (hq : (x.parker a).begin true = .ok (q, true)) :
    Sound (f.move c (.blocked t a) (f.engine.updateTask t (·.setParker a q))) := by
  obtain ⟨hfree, rfl⟩ : x.parker a = .free ∧ q = .waitingNative := by
    cases hpark : x.parker a with
    | free => rw [hpark] at hq; cases hq; exact ⟨rfl, rfl⟩
    | permitted => rw [hpark] at hq; cases hq
    | waiting => rw [hpark] at hq; cases hq
    | waitingNative => rw [hpark] at hq; cases hq
  refine h.advance_task hp (fun x => post_setParker x a _) rfl (fun _ => rfl) rfl ?_ ?_ ?_
  · intro u
    have hwaiting := Engine.waiting_setParker hx a (fun _ => .waitingNative) u
    have hnone : Engine.waiter (x.parker a) t = none := by rw [hfree]; rfl
    have hnative : Engine.waiter .waitingNative t = none := rfl
    rw [hnone, hnative] at hwaiting
    simp only [Phase.right]
    omega
  · intro u
    have hsame : (f.engine.updateTask t (·.setParker a .waitingNative)).flag u (·.enqueued) =
        f.engine.flag u (·.enqueued) :=
      Engine.flag_updateTask_of_eq fun x => enqueued_setParker x a _
    rw [hsame]
    rfl
  · intro u b
    have hflag := flag_setParker hx a b (fun _ => .waitingNative) u .waitingNative
    rw [hflag]
    split
    · next hboth =>
        obtain ⟨rfl, rfl⟩ := hboth
        refine .inr ?_
        simp only [Phase.blocks, ↓reduceIte, tally_none, tally_self]
        exact Nat.le_add_left _ _
    · refine .inr ?_
      simp only [Phase.blocks, tally_none]
      omega

theorem Sound.unblock (h : Sound f) (hp : f.phases[c]? = some (.blocked t a)) :
    Sound (f.move c (.working t)
      (f.engine.updateTask t fun x => x.setParker a (x.parker a).finish)) := by
  obtain ⟨x, hx, -⟩ := h.alive hp rfl
  have hfinish : ∀ q : Parker, q.finish ≠ .waiting ∧ q.finish ≠ .waitingNative := by
    intro q
    cases q <;> simp [Parker.finish]
  refine h.advance_task hp (fun x => post_setParker x a _) rfl (fun _ => rfl) rfl ?_ ?_ ?_
  · intro u
    have hwaiting := Engine.waiting_setParker hx a (fun x => (x.parker a).finish) u
    have hnone : Engine.waiter (x.parker a) t = none := if_neg (h.not_waiting hp rfl hx a)
    have hdone : Engine.waiter (x.parker a).finish t = none := if_neg (hfinish (x.parker a)).1
    rw [hnone, hdone] at hwaiting
    simp only [Phase.right]
    omega
  · intro u
    have hsame : (f.engine.updateTask t fun x => x.setParker a (x.parker a).finish).flag u
        (·.enqueued) = f.engine.flag u (·.enqueued) :=
      Engine.flag_updateTask_of_eq fun x => enqueued_setParker x a _
    rw [hsame]
    rfl
  · intro u b
    have hflag := flag_setParker hx a b (fun x => (x.parker a).finish) u .waitingNative
    rw [hflag]
    split
    · left
      simp only [beq_eq_false_iff_ne.mpr (hfinish (x.parker a)).2, Bool.toNat_false]
    · next hother =>
        refine .inr ?_
        have hblocks : tally (Phase.blocks b (.blocked t a)) u = 0 := by
          simp only [Phase.blocks]
          split
          · next hab => exact tally_of_ne fun hu => hother ⟨hu, hab.symm⟩
          · rfl
        rw [hblocks]
        exact Nat.le_add_right _ _

/-! ## Taking and leaving a carrier -/

/-- A task without its lock. -/
def unlocked (x : Task) : Task := { x with locked := false, enteredAt := 0, context := .absent }

theorem Sound.advance_seat (h : Sound f) {p' : Phase} {y : Carrier} {k : Carrier → Carrier}
    {ts : Array Task} {fs : List TaskId} (hp : f.phases[c]? = some p)
    (hy : f.engine.carriers[c]? = some y) (htasks : ts.map unlocked = f.engine.tasks.map unlocked)
    (he : e = { f.engine.updateCarrier c k with tasks := ts })
    (hqueue : ∀ x, (k x).queue = x.queue) (hpool : ∀ x, (k x).pool = x.pool)
    (hclock : ∀ x, (k x).clock = x.clock)
    (hself : (k y).current = p'.seat ∧ (p'.isLate = false → (k y).deferred = none))
    (hright : ∀ u, tally (k y).deferred u + tally p'.right u + fs.count u =
      tally y.deferred u + tally p.right u + f.freed.count u)
    (hlocked : ∀ u, tally (k y).current u + f.engine.flag u (·.locked) =
      tally y.current u + e.flag u (·.locked))
    (hpopped : p'.popped = p.popped) (hreadied : p'.readied = p.readied)
    (hblocks : ∀ a, p.blocks a = none) : Sound { f.move c p' e with freed := fs } := by
  have htasks' : e.tasks.map unlocked = f.engine.tasks.map unlocked := by
    rw [he]
    exact htasks
  have hflag : ∀ {u} {q : Task → Bool}, (∀ x, q (unlocked x) = q x) →
      e.flag u q = f.engine.flag u q := fun hq => Engine.flag_of_map_eq htasks' hq _
  have hwaiting : ∀ u, e.waiting u = f.engine.waiting u := by
    intro u
    rw [Engine.waiting, hflag fun _ => rfl, hflag fun _ => rfl, ← Engine.waiting]
  have hqueued : ∀ u, e.queued u = f.engine.queued u := by
    intro u
    rw [he]
    exact Engine.queued_updateCarrier fun x => by rw [hqueue]
  have hpooled : ∀ u, e.pooled u = f.engine.pooled u := by
    intro u
    rw [he]
    exact Engine.pooled_updateCarrier hpool
  have hdeferrals : ∀ u, e.deferrals u + tally y.deferred u =
      f.engine.deferrals u + tally (k y).deferred u := by
    intro u
    rw [he]
    exact Engine.deferrals_updateCarrier_add hy k u
  have hseated : ∀ u, e.seated u + tally y.current u =
      f.engine.seated u + tally (k y).current u := by
    intro u
    rw [he]
    exact Engine.seated_updateCarrier_add hy k u
  have hsize : e.carriers.size = f.engine.carriers.size := by
    rw [he]
    exact size_updateCarrier _ _ _
  have hroster : Roster e := by
    refine h.roster.of_map ?_ hsize
    have hmap : ∀ xs : Array Task, xs.map (fun x => (x.id, x.isThread, x.status, x.carrier)) =
        (xs.map unlocked).map fun x => (x.id, x.isThread, x.status, x.carrier) := by
      intro xs
      rw [Array.map_map]
      rfl
    rw [hmap, htasks', ← hmap]
  have htimers : f.engine.SameTimers e := by
    refine ⟨?_, ?_, ?_⟩
    · have hmap : ∀ xs : Array Task, xs.map (·.timeout) = (xs.map unlocked).map (·.timeout) := by
        intro xs
        rw [Array.map_map]
        rfl
      rw [hmap, htasks', ← hmap]
    · rw [he]
      exact Engine.map_updateCarrier hclock
    · rw [he]
      rfl
  refine h.advance hp rfl hsize hroster ?_ ?_ ?_ ?_ ?_ ?_ (h.timing.sameTimers htimers) ?_
  · rw [he]
    refine h.placed.move ?_ ?_
    · intro d hd
      exact (Engine.getElem?_updateCarrier _ _ _ _).trans (if_neg (Ne.symm hd))
    · intro z hz
      have hget := Engine.getElem?_updateCarrier f.engine c c k
      rw [if_pos rfl, hy, Option.map_some] at hget
      cases hget.symm.trans hz
      exact hself
  · intro u
    have hu := hright u
    have hd := hdeferrals u
    have halive : e.flag u (·.status == .alive) = f.engine.flag u (·.status == .alive) :=
      hflag fun _ => rfl
    simp only [lying, move, hqueued, hwaiting, htimers.alarms, halive]
    omega
  · intro u
    have hu := hlocked u
    have hs := hseated u
    simp only [move]
    omega
  · intro u
    have hmarked : e.flag u (·.enqueued) = f.engine.flag u (·.enqueued) := hflag fun _ => rfl
    simp only [move, hqueued, hpopped, hmarked]
  · intro u
    have hcached : e.flag u (·.status == .cached) = f.engine.flag u (·.status == .cached) :=
      hflag fun _ => rfl
    simp only [move, hpooled, hreadied, hcached]
    omega
  · intro u a
    have hsame : e.flag u (·.parker a == .waitingNative) =
        f.engine.flag u (·.parker a == .waitingNative) := hflag fun x => by cases a <;> rfl
    simp only [move, hblocks, hsame, tally_none]
    omega
  · rw [he]
    rfl

theorem Sound.switchIn (h : Sound f) {x : Task} (hp : f.phases[c]? = some (.resuming t))
    (hx : f.engine.task? t = some x) (hfree : x.locked = false) :
    Sound (f.move c (.working t) (f.engine.switchIn now c t)) := by
  obtain ⟨y, hy⟩ : ∃ y, f.engine.carriers[c]? = some y :=
    ⟨_, Array.getElem?_eq_getElem (h.lt_size hp)⟩
  obtain ⟨hcurrent, hdeferred⟩ := h.placed c _ y hp hy
  have htasks : (f.engine.updateTask t ({ · with locked := true, enteredAt := now })).tasks.map
      unlocked = f.engine.tasks.map unlocked := Engine.map_updateTask fun _ => rfl
  refine h.advance_seat (e := f.engine.switchIn now c t)
    (k := ({ · with current := some t, state := .running })) hp hy htasks rfl (fun _ => rfl)
    (fun _ => rfl) (fun _ => rfl) ⟨rfl, hdeferred⟩ (fun _ => rfl) ?_ rfl rfl fun _ => rfl
  intro u
  have hlock : (f.engine.switchIn now c t).flag u (·.locked) =
      (f.engine.updateTask t ({ · with locked := true, enteredAt := now })).flag u (·.locked) :=
    rfl
  rw [hcurrent, hlock]
  by_cases hu : u = t
  · subst hu
    rw [Engine.flag_updateTask_self hx, Engine.flag_eq_zero hx hfree]
    simp only [Phase.seat, tally_none, tally_self, Bool.toNat_true]
  · rw [Engine.flag_updateTask_of_ne hu, tally_of_ne hu]
    rfl

theorem Sound.yield (h : Sound f) (hp : f.phases[c]? = some (.working t)) :
    Sound (f.move c (.leaving t none) (f.engine.updateCarrier c (·.deferWake t))) := by
  obtain ⟨y, hy⟩ : ∃ y, f.engine.carriers[c]? = some y :=
    ⟨_, Array.getElem?_eq_getElem (h.lt_size hp)⟩
  obtain ⟨hcurrent, hdeferred⟩ := h.placed c _ y hp hy
  refine h.advance_seat (k := (·.deferWake t)) hp hy rfl rfl (fun _ => rfl) (fun _ => rfl)
    (fun _ => rfl) ⟨hcurrent, fun hl => by cases hl⟩ ?_ (fun _ => rfl) rfl rfl fun _ => rfl
  intro u
  rw [hdeferred rfl]
  simp only [Carrier.deferWake, Phase.right, tally_none]
  omega

theorem Sound.leave (h : Sound f) {parked : Option Axis}
    (hp : f.phases[c]? = some (.leaving t parked)) :
    Sound (f.move c .settling (f.engine.vacate c t)) := by
  obtain ⟨y, hy⟩ : ∃ y, f.engine.carriers[c]? = some y :=
    ⟨_, Array.getElem?_eq_getElem (h.lt_size hp)⟩
  have hcurrent : y.current = some t := (h.placed c _ y hp hy).1
  have htasks : (f.engine.updateTask t Task.switchedOut).tasks.map unlocked =
      f.engine.tasks.map unlocked := Engine.map_updateTask fun _ => rfl
  refine h.advance_seat (e := f.engine.vacate c t)
    (k := ({ · with current := none, state := .idle })) hp hy htasks rfl (fun _ => rfl)
    (fun _ => rfl) (fun _ => rfl) ⟨rfl, fun hl => by cases hl⟩ (fun _ => rfl) ?_ rfl rfl
    fun _ => rfl
  intro u
  have hlock : (f.engine.vacate c t).flag u (·.locked) =
      (f.engine.updateTask t Task.switchedOut).flag u (·.locked) := rfl
  rw [hcurrent, hlock]
  simp only [tally_none]
  by_cases hu : u = t
  · subst hu
    have hseated : 1 ≤ f.engine.seated u := by
      have hle := le_total (f := fun c : Carrier => tally c.current u) hy
      simp only [hcurrent, tally_self] at hle
      exact hle
    have hlocked := h.locked u
    have hone := f.engine.flag_le_one u (·.locked)
    obtain ⟨x, hx, -⟩ := Engine.exists_of_flag_pos (hlocked ▸ hseated)
    rw [Engine.flag_updateTask_self hx, tally_self]
    simp only [Task.switchedOut, Bool.toNat_false]
    omega
  · rw [Engine.flag_updateTask_of_ne hu, tally_of_ne hu]

theorem modify_of_getElem? {ps : Array Phase} (hp : ps[c]? = some p) :
    (ps.modify c fun _ => p) = ps := by
  apply Array.ext_getElem?
  intro i
  rw [Array.getElem?_modify]
  split
  · next hi =>
      subst hi
      rw [hp, Option.map_some]
  · rfl

/-- The right of a task that yielded goes from the slot of its carrier into the hand of whoever is
going to wake it. -/
theorem Sound.undefer (h : Sound f) {y : Carrier} (hp : f.phases[c]? = some .settling)
    (hy : f.engine.carriers[c]? = some y) (ht : y.deferred = some t) :
    Sound { f with
      engine := f.engine.updateCarrier c ({ · with deferred := none })
      freed := t :: f.freed } := by
  have hcurrent := (h.placed c _ y hp hy).1
  have hstay : Sound { f.move c .settling (f.engine.updateCarrier c ({ · with deferred := none }))
      with freed := t :: f.freed } := by
    refine h.advance_seat (k := ({ · with deferred := none })) hp hy rfl rfl (fun _ => rfl)
      (fun _ => rfl) (fun _ => rfl) ⟨hcurrent, fun _ => rfl⟩ ?_ (fun _ => rfl) rfl rfl fun _ => rfl
    intro u
    simp only [ht, count_task_cons, tally_none]
    omega
  rw [move, modify_of_getElem? hp] at hstay
  exact hstay

theorem steal?_eq {x : Task} (hs : f.engine.steal? c x = some e) :
    e = f.engine.updateTask x.id fun y => ({ y with carrier := some c } : Task).recordStolen := by
  unfold Engine.steal? at hs
  split at hs
  · cases hs
  · cases hs
    congr 1
    funext y
    rw [Task.moveCarrier, if_pos rfl]

/-- A task that carrier `c` is about to switch to is moved there. -/
theorem Sound.steal (h : Sound f) {x : Task} (hp : f.phases[c]? = some (.resuming t))
    (hs : f.engine.steal? c x = some e) : Sound { f with engine := e } := by
  rw [steal?_eq hs]
  have hroster : Roster (f.engine.updateTask x.id fun y =>
      ({ y with carrier := some c } : Task).recordStolen) :=
    h.roster.updateTask (fun _ => rfl) (fun _ => rfl) fun y _ _ => ⟨c, rfl, h.lt_size hp⟩
  have htimers : f.engine.SameTimers (f.engine.updateTask x.id fun y =>
      ({ y with carrier := some c } : Task).recordStolen) :=
    Engine.sameTimers_updateTask fun _ => rfl
  have hflag : ∀ {u} {q : Task → Bool},
      (∀ y : Task, q ({ y with carrier := some c } : Task).recordStolen = q y) →
      (f.engine.updateTask x.id fun y =>
        ({ y with carrier := some c } : Task).recordStolen).flag u q = f.engine.flag u q :=
    fun hq => Engine.flag_updateTask_of_eq hq
  refine h.stay rfl rfl hroster rfl ?_ ?_ ?_ ?_ ?_ (h.timing.sameTimers htimers) rfl
  · intro u
    have halive := hflag (u := u) (q := (·.status == .alive)) fun _ => rfl
    have hwaiting : (f.engine.updateTask x.id fun y =>
        ({ y with carrier := some c } : Task).recordStolen).waiting u = f.engine.waiting u :=
      Engine.waiting_updateTask_of_eq (fun _ => rfl) fun _ => rfl
    simp only [lying, hwaiting, halive, Engine.queued_updateTask, Engine.deferrals_updateTask,
      Engine.alarms_updateTask]
  · intro u
    have hlocked := hflag (u := u) (q := (·.locked)) fun _ => rfl
    simp only [hlocked, Engine.seated_updateTask]
  · intro u
    have hmark := hflag (u := u) (q := (·.enqueued)) fun _ => rfl
    simp only [hmark, Engine.queued_updateTask]
  · intro u
    have hcached := hflag (u := u) (q := (·.status == .cached)) fun _ => rfl
    simp only [hcached, Engine.pooled_updateTask, Nat.le_refl]
  · intro u a
    exact Nat.le_of_eq (hflag fun y => by cases a <;> rfl)

/-! ## Wakes -/

theorem count_freedBy (f : Floor V) (t : TaskId) (q : Parker) (u : TaskId) :
    (f.freedBy t q.release.2).count u = f.freed.count u + tally (Engine.waiter q t) u := by
  cases q with
  | waiting => exact count_task_cons t f.freed u
  | _ => rfl

/-- A task that waits on an axis is in the hand of whoever releases it. -/
theorem Sound.release (h : Sound f) {x : Task} (hx : f.engine.task? t = some x) (a : Axis) :
    Sound { f with
      engine := f.engine.updateTask t fun _ => (x.release a).1
      freed := f.freedBy t (x.release a).2 } := by
  have hput : (f.engine.updateTask t fun _ => (x.release a).1) =
      f.engine.updateTask t (·.setParker a (x.parker a).release.1) :=
    (updateTask_eq_put (g := (·.setParker a (x.parker a).release.1)) hx).symm
  have hdone : ∀ q : Parker, q.release.1 ≠ .waiting ∧ q.release.1 ≠ .waitingNative := by
    intro q
    cases q <;> simp [Parker.release]
  have hpost := fun y => post_setParker y a (x.parker a).release.1
  simp only [post, Prod.mk.injEq] at hpost
  rw [hput]
  have hroster : Roster (f.engine.updateTask t (·.setParker a (x.parker a).release.1)) :=
    h.roster.updateTask_of_eq (fun y => (hpost y).1) (fun y => (hpost y).2.1)
      (fun y => (hpost y).2.2.1) fun y => (hpost y).2.2.2.1
  have htimers : f.engine.SameTimers
      (f.engine.updateTask t (·.setParker a (x.parker a).release.1)) :=
    Engine.sameTimers_updateTask fun y => (hpost y).2.2.2.2.2
  have hstatus : ∀ {u} {s : Status},
      (f.engine.updateTask t (·.setParker a (x.parker a).release.1)).flag u (·.status == s) =
        f.engine.flag u (·.status == s) :=
    Engine.flag_updateTask_of_eq fun y => by rw [(hpost y).2.2.1]
  refine h.stay rfl rfl hroster rfl ?_ ?_ ?_ ?_ ?_ (h.timing.sameTimers htimers) rfl
  · intro u
    have hwaiting := Engine.waiting_setParker hx a (fun _ => (x.parker a).release.1) u
    have hnone : Engine.waiter (x.parker a).release.1 t = none := if_neg (hdone (x.parker a)).1
    have hfreed : (f.freedBy t (x.release a).2).count u =
        f.freed.count u + tally (Engine.waiter (x.parker a) t) u := count_freedBy f t _ u
    rw [hnone, tally_none] at hwaiting
    simp only [lying, hstatus, hfreed, Engine.queued_updateTask, Engine.deferrals_updateTask,
      Engine.alarms_updateTask]
    omega
  · intro u
    have hlocked : (f.engine.updateTask t (·.setParker a (x.parker a).release.1)).flag u
        (·.locked) = f.engine.flag u (·.locked) :=
      Engine.flag_updateTask_of_eq fun y => (hpost y).2.2.2.2.1
    simp only [hlocked, Engine.seated_updateTask]
  · intro u
    have hmark : (f.engine.updateTask t (·.setParker a (x.parker a).release.1)).flag u
        (·.enqueued) = f.engine.flag u (·.enqueued) :=
      Engine.flag_updateTask_of_eq fun y => enqueued_setParker y a _
    simp only [hmark, Engine.queued_updateTask]
  · intro u
    simp only [hstatus, Engine.pooled_updateTask, Nat.le_refl]
  · intro u b
    have hflag := flag_setParker hx a b (fun _ => (x.parker a).release.1) u .waitingNative
    simp only
    rw [hflag]
    split
    · rw [beq_eq_false_iff_ne.mpr (hdone (x.parker a)).2]
      exact Nat.zero_le _
    · exact Nat.le_refl _

theorem popped_le_right (f : Floor V) (t : TaskId) :
    f.phased Phase.popped t ≤ f.phased Phase.right t := by
  refine total_le_total ?_ f.phases
  intro p
  cases p with
  | holding r => exact Nat.le_refl _
  | _ => exact Nat.zero_le _

/-- A task that somebody is going to wake has no entry in a run queue, and can be given one. -/
theorem Sound.wakeable (h : Sound f) (ht : t ∈ f.freed) :
    ∃ x d, f.engine.task? t = some x ∧ x.carrier = some d ∧ d < f.engine.carriers.size ∧
      x.status = .alive ∧ x.isThread = false ∧ x.enqueued = false := by
  have hpos : 0 < f.freed.count t := List.count_pos_iff.mpr ht
  have hlaw := h.law t
  have hone := f.engine.flag_le_one t (·.status == .alive)
  rw [lying] at hlaw
  have halive : 0 < f.engine.flag t (·.status == .alive) := by omega
  obtain ⟨x, hx, hstatus⟩ := Engine.exists_of_flag_pos halive
  have hstatus : x.status = .alive := by simpa using hstatus
  obtain ⟨d, hd, hlt⟩ := h.roster.home t x hx hstatus
  have hmarked := h.marked t
  have hpopped := popped_le_right f t
  rw [Engine.flag_of_task? hx] at hmarked
  refine ⟨x, d, hx, hd, hlt, hstatus, h.roster.task t x hx, ?_⟩
  cases hmark : x.enqueued with
  | false => rfl
  | true =>
      rw [hmark, Bool.toNat_true] at hmarked
      omega

/-- A marked task has an entry in the run queue of carrier `d`. -/
def enqueueOn (e : Engine V) (now : Nanos) (d : Nat) (t : TaskId) : Engine V :=
  (e.updateTask t ({ · with enqueued := true, enqueuedAt := now })).updateCarrier d
    (·.enqueue (.resume t))

theorem wake_eq {x : Task} {d : Nat} (hx : e.task? t = some x) (hd : x.carrier = some d)
    (hstatus : x.status = .alive) (hthread : x.isThread = false) (hmark : x.enqueued = false) :
    e.wake now t = enqueueOn e now d t := by
  simp only [Engine.wake, hx, hd, hstatus, hthread, hmark, and_self, ↓reduceIte]
  rfl

theorem flag_enqueueOn {d : Nat} {u : TaskId} {q : Task → Bool}
    (hq : ∀ y : Task, q { y with enqueued := true, enqueuedAt := now } = q y) :
    (enqueueOn e now d t).flag u q = e.flag u q := Engine.flag_updateTask_of_eq hq

theorem queued_enqueueOn {d : Nat} (hd : d < e.carriers.size) (now : Nanos) (t u : TaskId) :
    (enqueueOn e now d t).queued u = e.queued u + tally (some t) u := by
  obtain ⟨y, hy⟩ : ∃ y, e.carriers[d]? = some y := ⟨_, Array.getElem?_eq_getElem hd⟩
  have hsum := Engine.queued_updateCarrier_add
    (e := e.updateTask t ({ · with enqueued := true, enqueuedAt := now })) hy
    (·.enqueue (.resume t)) u
  simp only [Carrier.enqueue, count_resume_concat, Runnable.task?, Engine.queued_updateTask] at hsum
  unfold enqueueOn Carrier.enqueue
  omega

theorem Sound.wake (h : Sound f) (ht : t ∈ f.freed) :
    Sound { f with engine := f.engine.wake now t, freed := f.freed.erase t } := by
  obtain ⟨x, d, hx, hd, hlt, hstatus, hthread, hmark⟩ := h.wakeable ht
  rw [wake_eq hx hd hstatus hthread hmark]
  have hmarked : Roster (f.engine.updateTask t ({ · with enqueued := true, enqueuedAt := now })) :=
    h.roster.updateTask_of_eq (fun _ => rfl) (fun _ => rfl) (fun _ => rfl) fun _ => rfl
  have hroster : Roster (enqueueOn f.engine now d t) :=
    hmarked.of_map rfl (size_updateCarrier _ _ _)
  have htimers : f.engine.SameTimers (enqueueOn f.engine now d t) := by
    have hmark : f.engine.SameTimers
        (f.engine.updateTask t ({ · with enqueued := true, enqueuedAt := now })) :=
      Engine.sameTimers_updateTask fun _ => rfl
    exact hmark.trans (Engine.sameTimers_updateCarrier fun _ => rfl)
  refine h.stay rfl (size_updateCarrier _ _ _) hroster (map_seats_updateCarrier fun _ => rfl) ?_ ?_
    ?_ ?_ ?_ (h.timing.sameTimers htimers) rfl
  · intro u
    have hqueued := queued_enqueueOn hlt now t u
    have herase := count_task_erase ht u
    have hdeferrals : (enqueueOn f.engine now d t).deferrals u = f.engine.deferrals u :=
      Engine.deferrals_updateCarrier fun _ => rfl
    have hwaiting : (enqueueOn f.engine now d t).waiting u = f.engine.waiting u :=
      Engine.waiting_updateTask_of_eq (fun _ => rfl) fun _ => rfl
    have halive : (enqueueOn f.engine now d t).flag u (·.status == .alive) =
        f.engine.flag u (·.status == .alive) := flag_enqueueOn fun _ => rfl
    simp only [lying, hqueued, hdeferrals, hwaiting, halive, htimers.alarms]
    omega
  · intro u
    have hlocked : (enqueueOn f.engine now d t).flag u (·.locked) =
        f.engine.flag u (·.locked) := flag_enqueueOn fun _ => rfl
    have hseated : (enqueueOn f.engine now d t).seated u = f.engine.seated u :=
      Engine.seated_updateCarrier fun _ => rfl
    simp only [hlocked, hseated]
  · intro u
    have hqueued := queued_enqueueOn hlt now t u
    have hset : (enqueueOn f.engine now d t).flag u (·.enqueued) =
        (f.engine.updateTask t ({ · with enqueued := true, enqueuedAt := now })).flag u
          (·.enqueued) := rfl
    simp only [hqueued, hset]
    by_cases hu : u = t
    · subst hu
      rw [Engine.flag_updateTask_self hx, Engine.flag_eq_zero hx hmark, tally_self]
      rfl
    · rw [Engine.flag_updateTask_of_ne hu, tally_of_ne hu]
      omega
  · intro u
    have hcached : (enqueueOn f.engine now d t).flag u (·.status == .cached) =
        f.engine.flag u (·.status == .cached) := flag_enqueueOn fun _ => rfl
    have hpooled : (enqueueOn f.engine now d t).pooled u = f.engine.pooled u :=
      Engine.pooled_updateCarrier fun _ => rfl
    simp only [hcached, hpooled, Nat.le_refl]
  · intro u a
    exact Nat.le_of_eq (flag_enqueueOn fun y => by cases a <;> rfl)

end Floor

end GreenThreads

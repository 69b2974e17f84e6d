import GreenThreads.Proofs.Floor.Timing

/-!
# Nobody has more than one right to go on

The right to let a task go on is in one place at a time: it lies somewhere in the engine, or a
carrier or another caller has it in hand. A task that has work has exactly one right, and any other
task has none.
-/

namespace GreenThreads

namespace Phase

/-- The task that is current on a carrier. -/
def seat : Phase → Option TaskId
  | working t | blocked t _ | leaving t _ => some t
  | looking | holding _ | readying _ _ | resuming _ | settling => none

/-- The task may have asked to be woken after it has switched out. -/
def isLate : Phase → Bool
  | leaving _ _ | settling => true
  | looking | holding _ | readying _ _ | resuming _ | working _ | blocked _ _ => false

/-- The task whose entry a carrier has taken, before its mark is taken away. -/
def popped : Phase → Option TaskId
  | holding r => r.task?
  | looking | readying _ _ | resuming _ | working _ | blocked _ _ | leaving _ _ | settling => none

/-- The task that a carrier has the right to let go on. -/
def held : Phase → Option TaskId
  | holding r => r.task?
  | resuming t => some t
  | looking | readying _ _ | working _ | blocked _ _ | leaving _ _ | settling => none

/-- The task that goes on. -/
def works : Phase → Option TaskId
  | working t | blocked t _ => some t
  | looking | holding _ | readying _ _ | resuming _ | leaving _ _ | settling => none

/-- The task that a carrier lets go on, or has the right to. -/
def right : Phase → Option TaskId
  | holding r => r.task?
  | resuming t | working t | blocked t _ => some t
  | looking | readying _ _ | leaving _ _ | settling => none

/-- The task that is to be given work. -/
def readied : Phase → Option TaskId
  | readying t _ => some t
  | looking | holding _ | resuming _ | working _ | blocked _ _ | leaving _ _ | settling => none

/-- The task that blocks a carrier on an axis. -/
def blocks (a : Axis) : Phase → Option TaskId
  | blocked t b => if b = a then some t else none
  | looking | holding _ | readying _ _ | resuming _ | working _ | leaving _ _ | settling => none

end Phase

/-- The tasks at the head of a carrier. -/
def Carrier.seats (x : Carrier) : Option TaskId × Option TaskId := (x.current, x.deferred)

variable {V : Type} {c : Nat}

/-- The current task of a carrier is that of its phase, and only a carrier whose task is done with
it has one to wake. -/
def Placed (ps : Array Phase) (xs : Array Carrier) : Prop :=
  ∀ (c : Nat) (p : Phase) (x : Carrier), ps[c]? = some p → xs[c]? = some x →
    x.current = p.seat ∧ (p.isLate = false → x.deferred = none)

theorem Placed.carriers {ps : Array Phase} {xs ys : Array Carrier} (h : Placed ps xs)
    (hm : ys.map Carrier.seats = xs.map Carrier.seats) : Placed ps ys := by
  intro c p y hp hy
  obtain ⟨x, hx, heq⟩ := Engine.exists_of_map_eq hm hy
  have hcurrent : y.current = x.current := congrArg Prod.fst heq
  have hdeferred : y.deferred = x.deferred := congrArg Prod.snd heq
  rw [hcurrent, hdeferred]
  exact h c p x hp hx

theorem Placed.move {ps : Array Phase} {xs ys : Array Carrier} {p : Phase} (h : Placed ps xs)
    (hother : ∀ d, d ≠ c → ys[d]? = xs[d]?)
    (hself : ∀ y, ys[c]? = some y → y.current = p.seat ∧ (p.isLate = false → y.deferred = none)) :
    Placed (ps.modify c fun _ => p) ys := by
  intro d p' y hp' hy
  rw [Array.getElem?_modify] at hp'
  by_cases hd : c = d
  · subst hd
    rw [if_pos rfl] at hp'
    obtain ⟨-, -, rfl⟩ := Option.map_eq_some_iff.mp hp'
    exact hself y hy
  · rw [if_neg hd] at hp'
    rw [hother d (Ne.symm hd)] at hy
    exact h d p' y hp' hy

theorem Placed.advance {ps : Array Phase} {xs ys : Array Carrier} {p p' : Phase}
    (h : Placed ps xs) (hp : ps[c]? = some p) (hm : ys.map Carrier.seats = xs.map Carrier.seats)
    (hseat : p'.seat = p.seat) (hlate : p'.isLate = false → p.isLate = false) :
    Placed (ps.modify c fun _ => p') ys := by
  have hys := h.carriers hm
  refine hys.move (fun _ _ => rfl) ?_
  intro y hy
  obtain ⟨hcurrent, hdeferred⟩ := hys c p y hp hy
  exact ⟨hcurrent.trans hseat.symm, fun hl => hdeferred (hlate hl)⟩

/-- Every task is where its number says, and one that has work belongs to a carrier. -/
structure Roster (e : Engine V) : Prop where
  id : ∀ t x, e.task? t = some x → x.id = t
  task : ∀ t x, e.task? t = some x → x.isThread = false
  home : ∀ t x, e.task? t = some x → x.status = .alive →
    ∃ c, x.carrier = some c ∧ c < e.carriers.size

namespace Floor

variable {f f' : Floor V} {t u : TaskId} {p p' : Phase}

/-- How many carriers have a task in hand, where `k` says what that means. -/
def phased (f : Floor V) (k : Phase → Option TaskId) (t : TaskId) : Nat :=
  total (fun p => tally (k p) t) f.phases

/-- How many rights to let a task go on are in no carrier's hand. -/
def lying (f : Floor V) (t : TaskId) : Nat :=
  f.engine.queued t + f.engine.deferrals t + f.engine.alarms f.due t + f.engine.waiting t +
    f.freed.count t

/-- What holds between any two steps. -/
structure Sound (f : Floor V) : Prop where
  size : f.phases.size = f.engine.carriers.size
  roster : Roster f.engine
  placed : Placed f.phases f.engine.carriers
  /-- There is one right for a task that has work, and none for any other. -/
  law : ∀ t, f.lying t + f.phased Phase.right t = f.engine.flag t (·.status == .alive)
  /-- A task is locked on the carrier on which it is current. -/
  locked : ∀ t, f.engine.seated t = f.engine.flag t (·.locked)
  /-- The mark of an entry is there as long as the entry. -/
  marked : ∀ t, f.engine.queued t + f.phased Phase.popped t = f.engine.flag t (·.enqueued)
  /-- Only tasks without work are kept for reuse, and each of them once. -/
  spare : ∀ t, f.engine.pooled t + f.phased Phase.readied t ≤ f.engine.flag t (·.status == .cached)
  /-- Only the task that blocks a carrier waits in this way. -/
  native : ∀ t a, f.engine.flag t (·.parker a == .waitingNative) ≤ f.phased (Phase.blocks a) t
  timing : f.engine.Timing f.due
  faults : ∀ x ∈ f.engine.faults, x.isLocal = true

theorem phased_modify {ps : Array Phase} (hp : ps[c]? = some p) (p' : Phase)
    (k : Phase → Option TaskId) (t : TaskId) :
    total (fun p => tally (k p) t) (ps.modify c fun _ => p') + tally (k p) t =
      total (fun p => tally (k p) t) ps + tally (k p') t :=
  total_modify (fun _ => p') hp

theorem phased_pos {k : Phase → Option TaskId} (hp : f.phases[c]? = some p)
    (hk : k p = some t) : 1 ≤ f.phased k t := by
  have hle := le_total (f := fun p => tally (k p) t) hp
  simp only [hk, tally_self] at hle
  exact hle

end Floor

/-! ## Changes of a roster -/

theorem Roster.of_map {e e' : Engine V} (h : Roster e)
    (ht : e'.tasks.map (fun x => (x.id, x.isThread, x.status, x.carrier)) =
      e.tasks.map (fun x => (x.id, x.isThread, x.status, x.carrier)))
    (hs : e'.carriers.size = e.carriers.size) : Roster e' := by
  refine ⟨?_, ?_, ?_⟩
  · intro t x' hx'
    obtain ⟨x, hx, heq⟩ := Engine.exists_of_map_eq ht hx'
    simp only [Prod.mk.injEq] at heq
    rw [heq.1]
    exact h.id t x hx
  · intro t x' hx'
    obtain ⟨x, hx, heq⟩ := Engine.exists_of_map_eq ht hx'
    simp only [Prod.mk.injEq] at heq
    rw [heq.2.1]
    exact h.task t x hx
  · intro t x' hx' halive
    obtain ⟨x, hx, heq⟩ := Engine.exists_of_map_eq ht hx'
    simp only [Prod.mk.injEq] at heq
    rw [heq.2.2.1] at halive
    rw [heq.2.2.2, hs]
    exact h.home t x hx halive

theorem Roster.updateTask {e : Engine V} {t : TaskId} {g : Task → Task} (h : Roster e)
    (hid : ∀ x, (g x).id = x.id) (hthread : ∀ x, (g x).isThread = x.isThread)
    (hhome : ∀ x, e.task? t = some x → (g x).status = .alive →
      ∃ c, (g x).carrier = some c ∧ c < e.carriers.size) : Roster (e.updateTask t g) := by
  refine ⟨?_, ?_, ?_⟩
  · intro u x' hx'
    rw [Engine.task?_updateTask] at hx'
    split at hx'
    · obtain ⟨x, hx, rfl⟩ := Option.map_eq_some_iff.mp hx'
      rw [hid]
      exact h.id u x hx
    · exact h.id u x' hx'
  · intro u x' hx'
    rw [Engine.task?_updateTask] at hx'
    split at hx'
    · obtain ⟨x, hx, rfl⟩ := Option.map_eq_some_iff.mp hx'
      rw [hthread]
      exact h.task u x hx
    · exact h.task u x' hx'
  · intro u x' hx' halive
    rw [Engine.task?_updateTask] at hx'
    split at hx'
    · next hu =>
        subst hu
        obtain ⟨x, hx, rfl⟩ := Option.map_eq_some_iff.mp hx'
        exact hhome x hx halive
    · exact h.home u x' hx' halive

theorem Roster.updateTask_of_eq {e : Engine V} {t : TaskId} {g : Task → Task} (h : Roster e)
    (hid : ∀ x, (g x).id = x.id) (hthread : ∀ x, (g x).isThread = x.isThread)
    (hstatus : ∀ x, (g x).status = x.status) (hcarrier : ∀ x, (g x).carrier = x.carrier) :
    Roster (e.updateTask t g) := by
  refine h.updateTask hid hthread ?_
  intro x hx halive
  rw [hstatus] at halive
  rw [hcarrier]
  exact h.home t x hx halive

theorem Roster.timekeeping {e e' : Engine V} (h : Roster e) (hk : e.Timekeeping e') :
    Roster e' := by
  refine h.of_map ?_ hk.size
  have hcore : ∀ xs : Array Task, xs.map (fun x => (x.id, x.isThread, x.status, x.carrier)) =
      (xs.map Task.core).map (fun x => (x.id, x.isThread, x.status, x.carrier)) := by
    intro xs
    rw [Array.map_map]
    rfl
  rw [hcore, hk.tasks, ← hcore]

theorem Placed.timekeeping {ps : Array Phase} {e e' : Engine V} (h : Placed ps e.carriers)
    (hk : e.Timekeeping e') : Placed ps e'.carriers := by
  apply h.carriers
  have hcore : ∀ xs : Array Carrier, xs.map Carrier.seats =
      (xs.map Carrier.core).map Carrier.seats := by
    intro xs
    rw [Array.map_map]
    rfl
  rw [hcore, hk.carriers, ← hcore]

namespace Floor

variable {f f' : Floor V} {t u : TaskId} {p p' : Phase}

/-! ## Steps that change the timers at most -/

theorem Sound.keep (h : Sound f) (hk : f.engine.Timekeeping f'.engine)
    (hsize : f'.phases.size = f.phases.size) (hplaced : Placed f'.phases f.engine.carriers)
    (hpopped : ∀ t, f'.phased Phase.popped t = f.phased Phase.popped t)
    (hreadied : ∀ t, f'.phased Phase.readied t = f.phased Phase.readied t)
    (hblocks : ∀ a t, f'.phased (Phase.blocks a) t = f.phased (Phase.blocks a) t)
    (hlaw : ∀ t, f'.engine.alarms f'.due t + f'.freed.count t + f'.phased Phase.right t =
      f.engine.alarms f.due t + f.freed.count t + f.phased Phase.right t)
    (htiming : f'.engine.Timing f'.due) : Sound f' := by
  refine ⟨?_, h.roster.timekeeping hk, hplaced.timekeeping hk, ?_, ?_, ?_, ?_, ?_, htiming, ?_⟩
  · rw [hsize, hk.size]
    exact h.size
  · intro t
    have hold := h.law t
    have hright := hlaw t
    rw [lying] at hold ⊢
    rw [hk.queued, hk.deferrals, hk.waiting, hk.flag fun _ => rfl]
    omega
  · intro t
    rw [hk.seated, hk.flag fun _ => rfl]
    exact h.locked t
  · intro t
    rw [hk.queued, hpopped, hk.flag fun _ => rfl]
    exact h.marked t
  · intro t
    rw [hk.pooled, hreadied, hk.flag fun _ => rfl]
    exact h.spare t
  · intro t a
    rw [hblocks, hk.flag fun x => demand_native x a]
    exact h.native t a
  · intro x hx
    rcases hk.faults x hx with hx | hx
    · exact h.faults x hx
    · exact hx

theorem Sound.keep_phases (h : Sound f) (hk : f.engine.Timekeeping f'.engine)
    (hphases : f'.phases = f.phases)
    (hlaw : ∀ t, f'.engine.alarms f'.due t + f'.freed.count t =
      f.engine.alarms f.due t + f.freed.count t)
    (htiming : f'.engine.Timing f'.due) : Sound f' := by
  have hphased : ∀ k t, f'.phased k t = f.phased k t := by
    intro k t
    rw [phased, hphases, phased]
  refine h.keep hk (by rw [hphases]) (by rw [hphases]; exact h.placed) (hphased _) (hphased _)
    (fun a => hphased _) ?_ htiming
  intro t
  rw [hphased, hlaw]

theorem Sound.keep_move (h : Sound f) (hk : f.engine.Timekeeping f'.engine)
    (hp : f.phases[c]? = some p) (hphases : f'.phases = f.phases.modify c fun _ => p')
    (hseat : p'.seat = p.seat) (hpopped : p'.popped = p.popped)
    (hreadied : p'.readied = p.readied) (hblocks : ∀ a, p'.blocks a = p.blocks a)
    (hlate : ∀ x, f.engine.carriers[c]? = some x → p'.isLate = false → x.deferred = none)
    (hlaw : ∀ t, f'.engine.alarms f'.due t + f'.freed.count t + tally p'.right t =
      f.engine.alarms f.due t + f.freed.count t + tally p.right t)
    (htiming : f'.engine.Timing f'.due) : Sound f' := by
  have hphased : ∀ k t, f'.phased k t + tally (k p) t = f.phased k t + tally (k p') t := by
    intro k t
    rw [phased, hphases]
    exact phased_modify hp p' k t
  have hsame : ∀ k : Phase → Option TaskId, k p' = k p → ∀ t, f'.phased k t = f.phased k t := by
    intro k hkp t
    have hsum := hphased k t
    rw [hkp] at hsum
    omega
  refine h.keep hk ?_ ?_ (hsame _ hpopped) (hsame _ hreadied) (fun a => hsame _ (hblocks a)) ?_
    htiming
  · rw [hphases, Array.size_modify]
  · rw [hphases]
    refine h.placed.move (fun _ _ => rfl) ?_
    intro x hx
    refine ⟨?_, hlate x hx⟩
    rw [hseat]
    exact (h.placed c p x hp hx).1
  · intro t
    have hright := hphased Phase.right t
    have hsum := hlaw t
    omega

/-! ## What a sound floor says -/

theorem Sound.lt_size (h : Sound f) (hp : f.phases[c]? = some p) :
    c < f.engine.carriers.size := by
  rw [← h.size]
  exact (Array.getElem?_eq_some_iff.mp hp).1

/-- A right that a carrier has is the only one. -/
theorem Sound.lying_eq_zero (h : Sound f) (hp : f.phases[c]? = some p) (hr : p.right = some t) :
    f.lying t = 0 ∧ f.engine.flag t (·.status == .alive) = 1 ∧ f.phased Phase.right t = 1 := by
  have hle := phased_pos hp hr
  have hlaw := h.law t
  have hflag := f.engine.flag_le_one t (·.status == .alive)
  omega

theorem Sound.alive (h : Sound f) (hp : f.phases[c]? = some p) (hr : p.right = some t) :
    ∃ x, f.engine.task? t = some x ∧ x.status = .alive := by
  obtain ⟨-, hflag, -⟩ := h.lying_eq_zero hp hr
  have hpos : 0 < f.engine.flag t (·.status == .alive) := by omega
  obtain ⟨x, hx, halive⟩ := Engine.exists_of_flag_pos hpos
  exact ⟨x, hx, by simpa using halive⟩

/-- Two carriers never have the right to let the same task go on. -/
theorem Sound.eq_of_right {d : Nat} (h : Sound f) (hp : f.phases[c]? = some p)
    (hp' : f.phases[d]? = some p') (hr : p.right = some t) (hr' : p'.right = some t) : c = d := by
  by_cases heq : c = d
  · exact heq
  · have htwo := add_le_total (f := fun p => tally (Phase.right p) t) hp hp' heq
    simp only [hr, hr', tally_self] at htwo
    obtain ⟨-, -, hone⟩ := h.lying_eq_zero hp hr
    rw [phased] at hone
    omega

/-- No timeout will resume a task that a carrier may let go on. -/
theorem Sound.alarms_eq_zero (h : Sound f) (hp : f.phases[c]? = some p) (hr : p.right = some t) :
    f.engine.alarms f.due t = 0 := by
  obtain ⟨hlying, -, -⟩ := h.lying_eq_zero hp hr
  rw [lying] at hlying
  omega

theorem waiting_pos {e : Engine V} {x : Task} {a : Axis} (hx : e.task? t = some x)
    (ha : x.parker a = .waiting) : 0 < e.waiting t := by
  rw [Engine.waiting_of_task? hx]
  cases a with
  | user =>
      have huser : x.user = .waiting := ha
      simp only [huser, beq_self_eq_true, Bool.toNat_true]
      omega
  | internal =>
      have hinternal : x.internal = .waiting := ha
      simp only [hinternal, beq_self_eq_true, Bool.toNat_true]
      omega

/-- A task that a carrier may let go on waits nowhere without a carrier. -/
theorem Sound.not_waiting (h : Sound f) (hp : f.phases[c]? = some p) (hr : p.right = some t)
    {x : Task} (hx : f.engine.task? t = some x) (a : Axis) : x.parker a ≠ .waiting := by
  intro ha
  have hpos := waiting_pos hx ha
  obtain ⟨hlying, -, -⟩ := h.lying_eq_zero hp hr
  rw [lying] at hlying
  omega

/-- Only a carrier that is blocked by a task finds it waiting in this way. -/
theorem Sound.not_native (h : Sound f) (hp : f.phases[c]? = some p) (hr : p.right = some t)
    {x : Task} (hx : f.engine.task? t = some x) {a : Axis} (hb : p.blocks a = none) :
    x.parker a ≠ .waitingNative := by
  intro ha
  have hnative := h.native t a
  rw [Engine.flag_eq_one hx (by simp only [ha, beq_self_eq_true])] at hnative
  obtain ⟨d, p', hp', hpos⟩ := exists_of_total_pos hnative
  have hright : Phase.right p' = some t := by
    cases p' with
    | blocked u b =>
        simp only [Phase.blocks] at hpos
        split at hpos
        · by_cases hu : t = u
          · rw [hu]; rfl
          · rw [tally_of_ne hu] at hpos
            omega
        · simp at hpos
    | _ => simp [Phase.blocks] at hpos
  have heq := h.eq_of_right hp hp' hr hright
  subst heq
  rw [hp] at hp'
  cases hp'
  rw [hb, tally_none] at hpos
  omega

end Floor

end GreenThreads

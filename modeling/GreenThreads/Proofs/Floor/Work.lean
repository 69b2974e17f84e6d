import GreenThreads.Proofs.Floor.Hands
import GreenThreads.Proofs.Task.Incarnation

/-!
# Steps that give a task work or take it away

A task without work has no right to go on, so it can be given work, and with it a right. It loses
both when its work is over.
-/

namespace GreenThreads

namespace Engine

variable {V : Type} {e e' : Engine V} {t u : TaskId}

/-- `e'` is `e` without one place of a pool, which held the task `t`. -/
structure Drawn (e e' : Engine V) (t : TaskId) : Prop where
  tasks : e'.tasks = e.tasks
  faults : e'.faults = e.faults
  size : e'.carriers.size = e.carriers.size
  seats : e'.carriers.map Carrier.seats = e.carriers.map Carrier.seats
  timers : e.SameTimers e'
  queued : ∀ u, e'.queued u = e.queued u
  deferrals : ∀ u, e'.deferrals u = e.deferrals u
  seated : ∀ u, e'.seated u = e.seated u
  pooled : ∀ u, e'.pooled u + tally (some t) u = e.pooled u

theorem Popped.drawn (h : e.Popped t e') : Drawn e e' t := by
  cases h with
  | own hi =>
      obtain ⟨x, rest, hx, hitems, rfl⟩ := popPooled?_spec hi
      refine ⟨rfl, rfl, Floor.size_updateCarrier _ _ _, map_updateCarrier fun _ => rfl, ?_, ?_, ?_,
        ?_, ?_⟩
      · exact sameTimers_updateCarrier fun _ => rfl
      · intro u
        exact queued_updateCarrier fun _ => rfl
      · intro u
        exact deferrals_updateCarrier fun _ => rfl
      · intro u
        exact seated_updateCarrier fun _ => rfl
      · intro u
        have hsum := pooled_updateCarrier_add hx
          (fun x => { x with pool := { capacity := x.pool.capacity, items := rest } }) u
        rw [hitems, count_task_cons] at hsum
        simp only at hsum
        omega
  | shared hi =>
      unfold Pool.pop? at hi
      split at hi
      · cases hi
      · next s rest hitems =>
          cases hi
          refine ⟨rfl, rfl, rfl, rfl, ⟨rfl, rfl, rfl⟩, fun _ => rfl, fun _ => rfl, fun _ => rfl, ?_⟩
          intro u
          simp only [pooled, hitems, count_task_cons]
          omega

theorem Drawn.flag (h : Drawn e e' t) (u : TaskId) (p : Task → Bool) : e'.flag u p = e.flag u p := by
  rw [Engine.flag, task?, h.tasks, ← task?, ← Engine.flag]

theorem Drawn.waiting (h : Drawn e e' t) (u : TaskId) : e'.waiting u = e.waiting u := by
  rw [Engine.waiting, h.flag, h.flag, ← Engine.waiting]

theorem task?_makeTask (e : Engine V) (u : TaskId) :
    e.makeTask.1.task? u = if u = e.makeTask.2 then some (Task.fresh u) else e.task? u := by
  have hget : e.makeTask.1.task? u =
      if u.index = e.tasks.size then some (Task.fresh e.makeTask.2) else e.task? u :=
    Array.getElem?_push
  rw [hget]
  by_cases h : u.index = e.tasks.size
  · have hu : u = e.makeTask.2 := by cases u; simp only at h; rw [h]; rfl
    rw [if_pos h, if_pos hu, hu]
  · have hu : u ≠ e.makeTask.2 := fun hu => h (by rw [hu]; rfl)
    rw [if_neg h, if_neg hu]

theorem flag_makeTask {p : Task → Bool} (hp : ∀ t, p (Task.fresh t) = false) (u : TaskId) :
    e.makeTask.1.flag u p = e.flag u p := by
  have hnone : e.task? e.makeTask.2 = none := Array.getElem?_eq_none (Nat.le_refl _)
  rw [Engine.flag, task?_makeTask, Engine.flag]
  split
  · next hu => rw [hu, hnone, Option.any_some, hp]; rfl
  · rfl

end Engine

namespace Floor

variable {V : Type} {f : Floor V} {c : Nat} {t : TaskId} {e : Engine V} {s : Submission}

theorem Sound.obtainPooled (h : Sound f) (hp : f.phases[c]? = some (.holding (.start s)))
    (ht : f.engine.Popped t e) : Sound (f.move c (.readying t s) e) := by
  have hd := ht.drawn
  refine h.advance hp rfl hd.size (h.roster.of_map (congrArg (Array.map _) hd.tasks) hd.size)
    (h.placed.advance hp hd.seats rfl fun _ => rfl) ?_ ?_ ?_ ?_ ?_ (h.timing.sameTimers hd.timers)
    hd.faults
  · intro u
    simp only [lying, move, hd.queued, hd.deferrals, hd.waiting, hd.timers.alarms, hd.flag]
    rfl
  · intro u
    simp only [move, hd.seated, hd.flag]
  · intro u
    simp only [move, hd.queued, hd.flag]
    rfl
  · intro u
    have hpooled := hd.pooled u
    simp only [move, hd.flag, Phase.readied, tally_none]
    omega
  · intro u a
    simp only [move, hd.flag, Phase.blocks]
    omega

theorem Sound.obtainFresh (h : Sound f) (hp : f.phases[c]? = some (.holding (.start s))) :
    Sound (f.move c (.readying f.engine.makeTask.2 s) f.engine.makeTask.1) := by
  have hroster : Roster f.engine.makeTask.1 := by
    refine ⟨?_, ?_, ?_⟩
    · intro u x hx
      rw [Engine.task?_makeTask] at hx
      split at hx
      · cases hx; rfl
      · exact h.roster.id u x hx
    · intro u x hx
      rw [Engine.task?_makeTask] at hx
      split at hx
      · cases hx; rfl
      · exact h.roster.task u x hx
    · intro u x hx halive
      rw [Engine.task?_makeTask] at hx
      split at hx
      · cases hx; cases halive
      · exact h.roster.home u x hx halive
  have htiming : f.engine.makeTask.1.Timing f.due := by
    refine h.timing.later (.of_timersOf fun _ => rfl) h.timing.queues ?_ fun d x k hx hk =>
      ⟨x, hx, hk⟩
    intro u x r hx hr
    rw [Engine.task?_makeTask] at hx
    split at hx
    · cases hx; cases hr
    · exact ⟨x, hx, hr⟩
  refine h.advance hp rfl rfl hroster (h.placed.advance hp rfl rfl fun _ => rfl) ?_ ?_ ?_ ?_ ?_
    htiming rfl
  · intro u
    have hwaiting : f.engine.makeTask.1.waiting u = f.engine.waiting u := by
      rw [Engine.waiting, Engine.flag_makeTask fun _ => rfl, Engine.flag_makeTask fun _ => rfl,
        ← Engine.waiting]
    have halive : f.engine.makeTask.1.flag u (·.status == .alive) =
        f.engine.flag u (·.status == .alive) := Engine.flag_makeTask (fun _ => rfl) u
    simp only [lying, move, hwaiting, halive]
    rfl
  · intro u
    have hlocked : f.engine.makeTask.1.flag u (·.locked) = f.engine.flag u (·.locked) :=
      Engine.flag_makeTask (fun _ => rfl) u
    simp only [move, hlocked]
    rfl
  · intro u
    have hmark : f.engine.makeTask.1.flag u (·.enqueued) = f.engine.flag u (·.enqueued) :=
      Engine.flag_makeTask (fun _ => rfl) u
    simp only [move, hmark]
    rfl
  · intro u
    have hpooled : f.engine.makeTask.1.pooled u = f.engine.pooled u := rfl
    have hcached : tally (some f.engine.makeTask.2) u + f.engine.flag u (·.status == .cached) ≤
        f.engine.makeTask.1.flag u (·.status == .cached) := by
      rw [Engine.flag, Engine.flag, Engine.task?_makeTask]
      split
      · next hu =>
          have hnone : f.engine.task? f.engine.makeTask.2 = none :=
            Array.getElem?_eq_none (Nat.le_refl _)
          rw [hu, hnone, tally_self]
          exact Nat.le_refl _
      · next hu =>
          exact Nat.le_of_eq (by rw [tally_of_ne hu, Nat.zero_add])
    simp only [move, hpooled, Phase.readied, tally_none]
    omega
  · intro u a
    have hnative : f.engine.makeTask.1.flag u (·.parker a == .waitingNative) =
        f.engine.flag u (·.parker a == .waitingNative) :=
      Engine.flag_makeTask (fun _ => by cases a <;> rfl) u
    simp only [move, hnative, Phase.blocks]
    omega

/-- The work of a task that is to be given some is over, and it has no right to go on. -/
theorem Sound.ended (h : Sound f) (hp : f.phases[c]? = some (.readying t s)) :
    ∃ x, f.engine.task? t = some x ∧ x.Ended := by
  have hreadied : 1 ≤ f.phased Phase.readied t := phased_pos hp rfl
  have hspare := h.spare t
  have hpos : 0 < f.engine.flag t (·.status == .cached) := by omega
  obtain ⟨x, hx, hcached⟩ := Engine.exists_of_flag_pos hpos
  have hcached : x.status = .cached := by simpa using hcached
  have hlaw := h.law t
  rw [Engine.flag_eq_zero hx (by rw [hcached]; rfl), lying] at hlaw
  have hwaits : ∀ a, (x.parker a).isWaiting = false := by
    intro a
    have hwaiting : x.parker a ≠ .waiting := by
      intro ha
      have hpos := waiting_pos hx ha
      omega
    have hnative : x.parker a ≠ .waitingNative := by
      intro ha
      have hle := h.native t a
      rw [Engine.flag_eq_one hx (by rw [ha]; rfl)] at hle
      have hblocks : f.phased (Phase.blocks a) t ≤ f.phased Phase.right t := by
        refine total_le_total ?_ f.phases
        intro p
        cases p with
        | blocked u b =>
            simp only [Phase.blocks, Phase.right]
            split
            · exact Nat.le_refl _
            · exact Nat.zero_le _
        | _ => exact Nat.zero_le _
      omega
    cases hpark : x.parker a with
    | free => rfl
    | permitted => rfl
    | waiting => exact absurd hpark hwaiting
    | waitingNative => exact absurd hpark hnative
  refine ⟨x, hx, hcached, hwaits .user, hwaits .internal, ?_⟩
  have hmarked := h.marked t
  have hpopped : f.phased Phase.popped t ≤ f.phased Phase.right t := popped_le_right f t
  rw [Engine.flag_of_task? hx] at hmarked
  cases hmark : x.enqueued with
  | false => rfl
  | true =>
      rw [hmark, Bool.toNat_true] at hmarked
      omega

theorem waiting_of_ended {x : Task} (hx : e.task? t = some x) (hended : x.Ended) :
    e.waiting t = 0 := by
  have hnot : ∀ q : Parker, q.isWaiting = false → (q == .waiting) = false := by
    intro q hq
    cases q with
    | waiting => cases hq
    | _ => rfl
  rw [Engine.waiting_of_task? hx, hnot _ hended.user, hnot _ hended.internal]
  rfl

/-- A task with the work of a submission. -/
def assigned (c : Nat) (s : Submission) (x : Task) : Task :=
  { x.forget s.name with
    user := .free, internal := .free, carrier := some c, status := .alive, job := some s.job }

theorem frame_assign {x : Task} (hx : e.task? t = some x) (hended : x.Ended) :
    (e.updateTask t (assigned c s)).Frame (e.assign c t s) := by
  have hreset := Task.reset_of_ended hended s.name c
  rw [updateTask_eq_put hx]
  simp only [Engine.assign, hx, hreset]
  exact Engine.frame_of_eq rfl rfl rfl rfl rfl (fun _ h => .inl h) rfl

/-- New work comes with the right to begin it. -/
theorem Sound.assign (h : Sound f) (hp : f.phases[c]? = some (.readying t s)) :
    Sound (f.move c (.resuming t) (f.engine.assign c t s)) := by
  obtain ⟨x, hx, hended⟩ := h.ended hp
  have hroster : Roster (f.engine.updateTask t (assigned c s)) :=
    h.roster.updateTask (fun _ => rfl) (fun _ => rfl) fun _ _ _ => ⟨c, rfl, h.lt_size hp⟩
  have htiming : (f.engine.updateTask t (assigned c s)).Timing f.due :=
    h.timing.forget fun y r hr => by cases hr
  have hassigned : Sound (f.move c (.resuming t) (f.engine.updateTask t (assigned c s))) := by
    refine h.advance hp rfl rfl hroster (h.placed.advance hp rfl rfl fun _ => rfl) ?_ ?_ ?_ ?_ ?_
      htiming rfl
    · intro u
      simp only [lying, move, Engine.queued_updateTask, Engine.deferrals_updateTask,
        Engine.alarms_updateTask, Phase.right, tally_none]
      by_cases hu : u = t
      · subst hu
        have hwaiting : f.engine.waiting u = 0 := waiting_of_ended hx hended
        have hwaiting' : (f.engine.updateTask u (assigned c s)).waiting u = 0 := by
          rw [Engine.waiting, Engine.flag_updateTask_self hx, Engine.flag_updateTask_self hx]
          rfl
        rw [hwaiting, hwaiting', Engine.flag_updateTask_self hx,
          Engine.flag_eq_zero hx (by rw [hended.cached]; rfl), tally_self]
        rfl
      · rw [Engine.waiting, Engine.flag_updateTask_of_ne hu, Engine.flag_updateTask_of_ne hu,
          Engine.flag_updateTask_of_ne hu, tally_of_ne hu, ← Engine.waiting]
    · intro u
      have hlocked : (f.engine.updateTask t (assigned c s)).flag u (·.locked) =
          f.engine.flag u (·.locked) := Engine.flag_updateTask_of_eq fun _ => rfl
      simp only [move, hlocked, Engine.seated_updateTask]
    · intro u
      have hmark : (f.engine.updateTask t (assigned c s)).flag u (·.enqueued) =
          f.engine.flag u (·.enqueued) := Engine.flag_updateTask_of_eq fun _ => rfl
      simp only [move, hmark, Engine.queued_updateTask]
      rfl
    · intro u
      simp only [move, Engine.pooled_updateTask, Phase.readied, tally_none]
      by_cases hu : u = t
      · subst hu
        rw [Engine.flag_eq_one hx (by rw [hended.cached]; rfl), tally_self]
        omega
      · simp only [Engine.flag_updateTask_of_ne hu, tally_of_ne hu]
        omega
    · intro u a
      by_cases hu : u = t
      · subst hu
        refine .inl ?_
        simp only [move]
        rw [Engine.flag_updateTask_self hx]
        cases a <;> rfl
      · refine .inr ?_
        simp only [move, Phase.blocks, Engine.flag_updateTask_of_ne hu]
        omega
  exact hassigned.other (frame_assign hx hended)

end Floor

/-! ## The end of work -/

namespace Engine

variable {V : Type} {e e' : Engine V} {c : Nat} {t u : TaskId} {n : Status}

/-- `e'` is `e` with a task that has no work any more and is kept in a pool if it can be given
other work. -/
structure Recycled (e e' : Engine V) (t : TaskId) (n : Status) : Prop where
  status : n ≠ .alive
  tasks : e'.tasks = (e.updateTask t ({ · with status := n })).tasks
  faults : e'.faults = e.faults
  size : e'.carriers.size = e.carriers.size
  seats : e'.carriers.map Carrier.seats = e.carriers.map Carrier.seats
  timers : e.SameTimers e'
  queued : ∀ u, e'.queued u = e.queued u
  deferrals : ∀ u, e'.deferrals u = e.deferrals u
  seated : ∀ u, e'.seated u = e.seated u
  pooled : ∀ u, e'.pooled u = e.pooled u + if n = .cached then tally (some t) u else 0

theorem recycled_recycle (e : Engine V) (c : Nat) (t : TaskId) :
    ∃ n, Recycled e (e.recycle c t) t n := by
  have hcached : e.SameTimers (e.updateTask t ({ · with status := .cached })) :=
    sameTimers_updateTask fun _ => rfl
  unfold recycle
  simp only
  split
  · next pool hpush =>
      obtain ⟨x, hx, hroom⟩ := Option.bind_eq_some_iff.mp hpush
      have hx : e.carriers[c]? = some x := hx
      have hpool : pool = { x.pool with items := x.pool.items ++ [t] } := by
        unfold Pool.push? at hroom
        split at hroom
        · exact (Option.some.inj hroom).symm
        · cases hroom
      refine ⟨.cached, Status.noConfusion, rfl, rfl, Floor.size_updateCarrier _ _ _, ?_, ?_, ?_, ?_,
        ?_, ?_⟩
      · exact Floor.map_seats_updateCarrier fun _ => rfl
      · exact hcached.trans (sameTimers_updateCarrier fun _ => rfl)
      · intro u
        exact queued_updateCarrier fun _ => rfl
      · intro u
        exact deferrals_updateCarrier fun _ => rfl
      · intro u
        exact seated_updateCarrier fun _ => rfl
      · intro u
        have hsum := pooled_updateCarrier_add
          (e := e.updateTask t ({ · with status := .cached })) hx ({ · with pool }) u
        simp only [hpool, count_task_concat, pooled_updateTask] at hsum
        simp only [↓reduceIte, hpool]
        omega
  · split
    · next pool hpush =>
        have hpool : pool = { e.pool with items := e.pool.items ++ [t] } := by
          unfold Pool.push? at hpush
          split at hpush
          · exact (Option.some.inj hpush).symm
          · cases hpush
        refine ⟨.cached, Status.noConfusion, rfl, rfl, rfl, rfl, ?_, fun _ => rfl, fun _ => rfl,
          fun _ => rfl, ?_⟩
        · exact ⟨hcached.slots, rfl, rfl⟩
        · intro u
          simp only [pooled, hpool, count_task_concat, ↓reduceIte]
          exact (Nat.add_assoc _ _ _).symm
    · refine ⟨.dead, Status.noConfusion, ?_, rfl, rfl, rfl, ?_, fun _ => rfl, fun _ => rfl,
        fun _ => rfl, fun _ => rfl⟩
      · apply Array.ext_getElem?
        intro i
        simp only [count, updateTask, Array.getElem?_modify]
        split
        · cases e.tasks[i]? <;> rfl
        · rfl
      · have hdead : (e.updateTask t ({ · with status := .cached })).SameTimers
            ((e.updateTask t ({ · with status := .cached })).updateTask t
              ({ · with status := .dead })) := sameTimers_updateTask fun _ => rfl
        exact (hcached.trans hdead).trans (frame_count _ _).toSameTimers

theorem Recycled.flag (h : Recycled e e' t n) (u : TaskId) (p : Task → Bool) :
    e'.flag u p = (e.updateTask t ({ · with status := n })).flag u p := by
  rw [Engine.flag, task?, h.tasks, ← task?, ← Engine.flag]

theorem Recycled.flag_of_eq (h : Recycled e e' t n) {p : Task → Bool}
    (hp : ∀ x : Task, p { x with status := n } = p x) (u : TaskId) : e'.flag u p = e.flag u p := by
  rw [h.flag]
  exact flag_updateTask_of_eq hp

end Engine

namespace Floor

variable {V : Type} {f : Floor V} {c : Nat} {t : TaskId} {e : Engine V}

/-- A task whose work is over has no right to go on, and is kept for reuse or destroyed. -/
theorem Sound.retire (h : Sound f) (hp : f.phases[c]? = some (.working t)) :
    Sound (f.move c (.leaving t none) (f.engine.recycle c t)) := by
  obtain ⟨n, hr⟩ := Engine.recycled_recycle f.engine c t
  obtain ⟨x, hx, halive⟩ := h.alive hp rfl
  have hstatus : Roster (f.engine.updateTask t ({ · with status := n })) :=
    h.roster.updateTask (fun _ => rfl) (fun _ => rfl) fun _ _ hn => absurd hn hr.status
  have hroster : Roster (f.engine.recycle c t) :=
    hstatus.of_map (congrArg (Array.map _) hr.tasks) hr.size
  refine h.advance hp rfl hr.size hroster
    (h.placed.advance hp hr.seats rfl fun hl => by cases hl) ?_ ?_ ?_ ?_ ?_
    (h.timing.sameTimers hr.timers) hr.faults
  · intro u
    have hwaiting : (f.engine.recycle c t).waiting u = f.engine.waiting u := by
      rw [Engine.waiting, hr.flag_of_eq fun _ => rfl, hr.flag_of_eq fun _ => rfl, ← Engine.waiting]
    simp only [lying, move, hr.queued, hr.deferrals, hwaiting, hr.timers.alarms, hr.flag,
      Phase.right, tally_none]
    by_cases hu : u = t
    · subst hu
      rw [Engine.flag_updateTask_self hx, Engine.flag_eq_one hx (by rw [halive]; rfl), tally_self,
        beq_eq_false_iff_ne.mpr hr.status]
      rfl
    · rw [Engine.flag_updateTask_of_ne hu, tally_of_ne hu]
  · intro u
    have hlocked := hr.flag_of_eq (p := (·.locked)) (fun _ => rfl) u
    simp only [move, hr.seated, hlocked]
  · intro u
    have hmark := hr.flag_of_eq (p := (·.enqueued)) (fun _ => rfl) u
    simp only [move, hr.queued, hmark]
    rfl
  · intro u
    simp only [move, hr.pooled, hr.flag, Phase.readied]
    by_cases hu : u = t
    · subst hu
      rw [Engine.flag_updateTask_self hx, Engine.flag_eq_zero hx (by rw [halive]; rfl), tally_self]
      split
      · next hn => subst hn; exact Nat.le_refl _
      · exact Nat.le_add_right _ _
    · rw [Engine.flag_updateTask_of_ne hu, tally_of_ne hu]
      split <;> exact Nat.le_refl _
  · intro u a
    have hnative := hr.flag_of_eq (p := (·.parker a == .waitingNative))
      (fun x => by cases a <;> rfl) u
    simp only [move, hnative, Phase.blocks]
    omega

theorem Sound.scrap (h : Sound f) (ht : f.engine.Popped t e) :
    Sound { f with engine := e.updateTask t Task.discard } := by
  have hd := ht.drawn
  have hspare := h.spare t
  have hpooled := hd.pooled t
  rw [tally_self] at hpooled
  have hpos : 0 < f.engine.flag t (·.status == .cached) := by omega
  obtain ⟨x, hx, hcached⟩ := Engine.exists_of_flag_pos hpos
  have hcached : x.status = .cached := by simpa using hcached
  have hxe : e.task? t = some x := by
    rw [Engine.task?, hd.tasks]
    exact hx
  have hroster : Roster (e.updateTask t Task.discard) := by
    have hdrawn : Roster e := h.roster.of_map (congrArg (Array.map _) hd.tasks) hd.size
    exact hdrawn.updateTask (fun _ => rfl) (fun _ => rfl) fun _ _ hn => by cases hn
  have htimers : f.engine.SameTimers (e.updateTask t Task.discard) :=
    hd.timers.trans (Engine.sameTimers_updateTask fun _ => rfl)
  have hflag : ∀ {q : Task → Bool}, (∀ y : Task, q y.discard = q y) → ∀ u,
      (e.updateTask t Task.discard).flag u q = f.engine.flag u q := by
    intro q hq u
    rw [Engine.flag_updateTask_of_eq hq, hd.flag]
  refine h.stay rfl hd.size hroster hd.seats ?_ ?_ ?_ ?_ ?_ (h.timing.sameTimers htimers) hd.faults
  · intro u
    have hwaiting : (e.updateTask t Task.discard).waiting u = f.engine.waiting u := by
      rw [Engine.waiting, hflag (fun _ => rfl), hflag (fun _ => rfl), ← Engine.waiting]
    have halive : (e.updateTask t Task.discard).flag u (·.status == .alive) =
        f.engine.flag u (·.status == .alive) := by
      by_cases hu : u = t
      · subst hu
        rw [Engine.flag_updateTask_self hxe, Engine.flag_eq_zero hx (by rw [hcached]; rfl)]
        rfl
      · rw [Engine.flag_updateTask_of_ne hu, hd.flag]
    simp only [lying, hwaiting, halive, htimers.alarms, Engine.queued_updateTask,
      Engine.deferrals_updateTask, hd.queued, hd.deferrals]
  · intro u
    have hlocked := hflag (q := (·.locked)) (fun _ => rfl) u
    simp only [hlocked, Engine.seated_updateTask, hd.seated]
  · intro u
    have hmark := hflag (q := (·.enqueued)) (fun _ => rfl) u
    simp only [hmark, Engine.queued_updateTask, hd.queued]
  · intro u
    have hpooled := hd.pooled u
    simp only [Engine.pooled_updateTask]
    by_cases hu : u = t
    · subst hu
      rw [Engine.flag_eq_one hx (by rw [hcached]; rfl)]
      rw [tally_self] at hpooled
      omega
    · rw [Engine.flag_updateTask_of_ne hu, hd.flag]
      omega
  · intro u a
    exact Nat.le_of_eq (hflag (q := (·.parker a == .waitingNative)) (fun y => by cases a <;> rfl) u)

end Floor

end GreenThreads

import GreenThreads.Proofs.Ledger.Balance
import GreenThreads.Proofs.Traffic.Anchors

/-!
# The traffic between carriers

Beside a floor stands what was done to move tasks between carriers: which entry each carrier took
last, and which steals were counted. A wake is taken apart here. Whoever wakes a task reads the
carrier that it belongs to, and only later puts the entry into the run queue of that carrier.
-/

namespace GreenThreads

/-- A task that was moved, and the carrier that it was moved to. -/
structure Transfer where
  task : TaskId
  carrier : Nat
deriving DecidableEq

/-- A floor, and what is recorded about its tasks that move. -/
structure Traffic (V : Type) where
  floor : Floor V
  /-- The wakes that are under way, with the carriers that were read. -/
  slips : List (TaskId × Nat) := []
  /-- The entry that each carrier took last. -/
  popped : Nat → Option Runnable := fun _ => none
  /-- The steals that were counted, last first. -/
  moves : List Transfer := []

namespace Engine

variable {V : Type}

/-- An entry that carrier `c` takes out of a run queue. It looked before whether the engine is being
drained, which may have changed since. -/
inductive Handed (e : Engine V) (c : Nat) : Runnable → Engine V → Prop
  | own {r : Runnable} {e' : Engine V} (h : e.dequeue? c = some (r, e')) : Handed e c r e'
  | shared {r : Runnable} {e' : Engine V} (pulls : e.config.placement = .pull)
      (h : e.dequeueShared? = some (r, e')) : Handed e c r e'
  | peer {i : Nat} {r : Runnable} {e' : Engine V} (pulls : e.config.placement = .pull)
      (h : e.dequeue? i = some (r, e')) : Handed e c r e'

/-- Carrier `c` took an entry, under the push policy out of its own queue. -/
structure Dealt (e : Engine V) (c : Nat) (r : Runnable) (e' : Engine V) : Prop where
  tasks : e'.tasks = e.tasks
  stats : e'.stats = e.stats
  config : e'.config = e.config
  draining : e'.draining = e.draining
  queues : ∀ (i : Nat) (y : Carrier), e'.carriers[i]? = some y →
    ∃ z, e.carriers[i]? = some z ∧ ∀ s ∈ y.queue, s ∈ z.queue
  source : e.config.placement = .push → ∃ z, e.carriers[c]? = some z ∧ r ∈ z.queue

variable {e e' : Engine V} {c d i : Nat} {r : Runnable} {t u : TaskId}

theorem dealt_of_dequeue? (h : e.dequeue? i = some (r, e'))
    (hsource : e.config.placement = .push → i = c) : Dealt e c r e' := by
  obtain ⟨x, rest, hx, hqueue, rfl⟩ := dequeue?_spec h
  refine ⟨rfl, rfl, rfl, rfl, fun j y hy => ?_, fun hpush => ?_⟩
  · rw [getElem?_updateCarrier] at hy
    split at hy
    · next hij =>
        subst hij
        rw [hx, Option.map_some] at hy
        cases hy
        exact ⟨x, hx, fun s hs => by rw [hqueue]; exact List.mem_cons_of_mem r hs⟩
    · exact ⟨y, hy, fun _ => id⟩
  · refine ⟨x, by rw [← hsource hpush]; exact hx, ?_⟩
    rw [hqueue]
    exact List.mem_cons_self

theorem Handed.dealt (h : e.Handed c r e') : Dealt e c r e' := by
  have hpull : e.config.placement = .pull → e.config.placement ≠ .push := by
    intro hpull hpush
    rw [hpull] at hpush
    cases hpush
  cases h with
  | own hi => exact dealt_of_dequeue? hi fun _ => rfl
  | peer pulls hi => exact dealt_of_dequeue? hi fun hpush => absurd hpush (hpull pulls)
  | shared pulls hs =>
      obtain ⟨rest, -, rfl⟩ := dequeueShared?_spec hs
      exact ⟨rfl, rfl, rfl, rfl, fun _ y hy => ⟨y, hy, fun _ => id⟩,
        fun hpush => absurd hpush (hpull pulls)⟩

/-- Where the tasks belong says who owns them. -/
theorem Owned.of_homes (h : e.Owned c t)
    (homes : e'.tasks.map (·.carrier) = e.tasks.map (·.carrier)) : e'.Owned c t := by
  obtain ⟨x, hx, hc⟩ := h
  obtain ⟨y, hy, heq⟩ := exists_of_map_eq homes.symm hx
  exact ⟨y, hy, heq.symm.trans hc⟩

end Engine

namespace Traffic

variable {V : Type}

/-- The engine of the floor. -/
abbrev engine (r : Traffic V) : Engine V := r.floor.engine

/-- How many of the counted steals moved the task `t`. -/
def movesOf (r : Traffic V) (t : TaskId) : Nat := r.moves.countP (·.task = t)

/-- What can happen at once. -/
inductive Step : Traffic V → Traffic V → Prop
  /-- Any step of the floor that wakes nobody, takes no entry and changes no record of steals. -/
  | floor {r : Traffic V} {f : Floor V} (s : r.floor.Step f)
      (freed : ∀ t, r.floor.freed.count t ≤ f.freed.count t)
      (holding : ∀ (c : Nat) (x : Runnable), f.phases[c]? = some (.holding x) →
        r.floor.phases[c]? = some (.holding x))
      (record : r.engine.SameRecord f.engine) : Step r { r with floor := f }
  | take {r : Traffic V} {c : Nat} {x : Runnable} {e : Engine V}
      (at_ : r.floor.phases[c]? = some .looking) (h : r.engine.Handed c x e) :
      Step r { r with
        floor := r.floor.move c (.holding x) e
        popped := Function.update r.popped c (some x) }
  /-- Whoever has to wake a task reads where it belongs. -/
  | look {r : Traffic V} {t : TaskId} {x : Task} {d : Nat}
      (freed : (r.slips.map Prod.fst).count t < r.floor.freed.count t)
      (found : r.engine.task? t = some x) (at_ : x.carrier = some d) :
      Step r { r with slips := (t, d) :: r.slips }
  /-- The entry for a task is put into the run queue that was found for it. -/
  | post {r : Traffic V} {t : TaskId} {d : Nat} (now : Nanos) (h : (t, d) ∈ r.slips) :
      Step r { r with
        floor := { r.floor with
          engine := Floor.enqueueOn r.engine now d t
          freed := r.floor.freed.erase t }
        slips := r.slips.erase (t, d) }
  | steal {r : Traffic V} {c : Nat} {t : TaskId} {x : Task} {e : Engine V}
      (at_ : r.floor.phases[c]? = some (.resuming t)) (found : r.engine.task? t = some x)
      (foreign : x.carrier ≠ some c) (h : r.engine.steal? c x = some e) :
      Step r { r with
        floor := { r.floor with engine := e.count .stealSuccesses }
        moves := ⟨t, c⟩ :: r.moves }
  /-- A task of another carrier could not be moved. It is woken again. -/
  | balk {r : Traffic V} {c : Nat} {t : TaskId} {x : Task}
      (at_ : r.floor.phases[c]? = some (.resuming t)) (found : r.engine.task? t = some x)
      (foreign : x.carrier ≠ some c) :
      Step r { r with
        floor := { r.floor.move c .looking (r.engine.count .stealFailures) with
          freed := t :: r.floor.freed } }

/-- What can be reached from an engine that starts. -/
inductive Reached : Traffic V → Prop
  | start {config : Config} {processors : Nat} {groups : List ControlGroup} {pump : EventPump}
      {e : Engine V} (h : Engine.start config processors groups pump = .ok e) :
      Reached { floor := .quiet e }
  | step {r r' : Traffic V} (h : Reached r) (s : Step r r') : Reached r'

/-- Under the push policy every task stays where it began. -/
structure AtHome (r : Traffic V) : Prop where
  queued : ∀ (c : Nat) (x : Carrier) (t : TaskId), r.engine.carriers[c]? = some x →
    .resume t ∈ x.queue → r.engine.Owned c t
  holding : ∀ (c : Nat) (t : TaskId), r.floor.phases[c]? = some (.holding (.resume t)) →
    r.engine.Owned c t
  resuming : ∀ (c : Nat) (t : TaskId), r.floor.phases[c]? = some (.resuming t) →
    r.engine.Owned c t
  moves : r.moves = []
  failures : r.engine.stats.stealFailures = 0

/-- What holds between any two steps. -/
structure Sound (r : Traffic V) : Prop where
  floor : r.floor.Sound
  /-- Only those who have to wake a task look for its carrier. -/
  slips : ∀ t, (r.slips.map Prod.fst).count t ≤ r.floor.freed.count t
  /-- What was read is still true. -/
  addressed : ∀ p ∈ r.slips, r.engine.Owned p.2 p.1
  holding : ∀ (c : Nat) (x : Runnable), r.floor.phases[c]? = some (.holding x) →
    r.popped c = some x
  resuming : ∀ (c : Nat) (t : TaskId), r.floor.phases[c]? = some (.resuming t) →
    r.popped c = some (.resume t) ∨ r.engine.Owned c t
  successes : r.engine.stats.stealSuccesses = .ofNat r.moves.length
  stolen : ∀ t, r.engine.stolenOf t = r.movesOf t % 2 ^ 32
  known : ∀ m ∈ r.moves, ∃ x, r.engine.task? m.task = some x
  home : r.engine.config.placement = .push → r.AtHome

variable {r r' : Traffic V} {f f' : Floor V} {e : Engine V} {c d : Nat} {t : TaskId} {x : Runnable}

/-! ## Tasks that have a right to go on -/

/-- A right that lies somewhere is that of a task with work. -/
theorem alive_of_lying (h : f.Sound) (hpos : 0 < f.lying t) :
    ∃ x, f.engine.task? t = some x ∧ x.status = .alive := by
  have hlaw := h.law t
  obtain ⟨x, hx, halive⟩ :=
    Engine.exists_of_flag_pos (p := (·.status == .alive)) (t := t) (e := f.engine) (by omega)
  exact ⟨x, hx, by simpa using halive⟩

theorem alive_of_freed (h : f.Sound) (ht : t ∈ f.freed) :
    ∃ x, f.engine.task? t = some x ∧ x.status = .alive := by
  have hpos : 0 < f.freed.count t := List.count_pos_iff.mpr ht
  exact alive_of_lying h (by unfold Floor.lying; omega)

theorem alive_of_queued (h : f.Sound) {y : Carrier} (hy : f.engine.carriers[c]? = some y)
    (ht : .resume t ∈ y.queue) : ∃ x, f.engine.task? t = some x ∧ x.status = .alive := by
  have hcount : 0 < y.queue.count (.resume t) := List.count_pos_iff.mpr ht
  have hle : y.queue.count (.resume t) ≤
      total (fun z : Carrier => z.queue.count (.resume t)) f.engine.carriers :=
    le_total (f := fun z : Carrier => z.queue.count (.resume t)) hy
  exact alive_of_lying h (by unfold Floor.lying Engine.queued; omega)

/-- A task with work stays where it belongs as long as no step steals it. -/
theorem owned_of_keeps (hk : f.Keeps f') (ho : f.engine.Owned c t)
    (halive : ∃ x, f.engine.task? t = some x ∧ x.status = .alive) : f'.engine.Owned c t := by
  obtain ⟨x, hx, hc⟩ := ho
  obtain ⟨y, hy, hstatus⟩ := halive
  rw [hx] at hy
  cases hy
  obtain ⟨z, hz, hcarrier⟩ := hk.home t x hx
  exact ⟨z, hz, (hcarrier hstatus).trans hc⟩

theorem mem_freed_of_slip (h : Sound r) {p : TaskId × Nat} (hp : p ∈ r.slips) :
    p.1 ∈ r.floor.freed := by
  have hcount : 0 < (r.slips.map Prod.fst).count p.1 :=
    List.count_pos_iff.mpr (List.mem_map_of_mem hp)
  exact List.count_pos_iff.mp (Nat.lt_of_lt_of_le hcount (h.slips p.1))

/-! ## Under the push policy -/

theorem AtHome.keep (h : AtHome r) (hr : r.floor.Sound) (hk : r.floor.Keeps f) :
    AtHome { r with floor := f } := by
  refine ⟨?_, ?_, ?_, h.moves, hk.failures.trans h.failures⟩
  · intro c y t hy ht
    obtain ⟨z, hz, heq⟩ := Engine.exists_of_map_eq hk.queues hy
    have ht' : .resume t ∈ z.queue := by
      rw [← Carrier.mem_resumptions, ← heq, Carrier.mem_resumptions]
      exact ht
    exact owned_of_keeps hk (h.queued c z t hz ht') (alive_of_queued hr hz ht')
  · intro c t hp
    have hp' := hk.holding c _ hp
    exact owned_of_keeps hk (h.holding c t hp') (hr.alive hp' rfl)
  · intro c t hp
    rcases hk.resuming c t hp with hp' | hp' | ho
    · exact owned_of_keeps hk (h.resuming c t hp') (hr.alive hp' rfl)
    · exact owned_of_keeps hk (h.holding c t hp') (hr.alive hp' rfl)
    · exact ho

/-- What carrier `c` takes is the entry of one of its own tasks. -/
theorem AtHome.take (h : AtHome r) (hd : r.engine.Dealt c x e)
    (hpush : r.engine.config.placement = .push) :
    AtHome { r with
      floor := r.floor.move c (.holding x) e
      popped := Function.update r.popped c (some x) } := by
  have howned : ∀ {d u}, r.engine.Owned d u → e.Owned d u :=
    fun ho => ho.of_homes (by rw [hd.tasks])
  refine ⟨?_, ?_, ?_, h.moves, (congrArg Stats.stealFailures hd.stats).trans h.failures⟩
  · intro i y u hy hu
    obtain ⟨z, hz, hsub⟩ := hd.queues i y hy
    exact howned (h.queued i z u hz (hsub _ hu))
  · intro d u hu
    obtain ⟨rfl, hcase⟩ | hu' := Floor.getElem?_modify_cases hu
    · cases hcase
      obtain ⟨z, hz, hmem⟩ := hd.source hpush
      exact howned (h.queued c z u hz hmem)
    · exact howned (h.holding d u hu')
  · intro d u hu
    obtain ⟨-, hcase⟩ | hu' := Floor.getElem?_modify_cases hu
    · cases hcase
    · exact howned (h.resuming d u hu')

/-- A wake puts the entry into the queue of the carrier that the task belongs to. -/
theorem AtHome.post (h : AtHome r) (now : Nanos) (ho : r.engine.Owned d t)
    (freed : List TaskId) (slips : List (TaskId × Nat)) :
    AtHome { r with
      floor := { r.floor with engine := Floor.enqueueOn r.engine now d t, freed }
      slips } := by
  have howned : ∀ {c u}, r.engine.Owned c u → (Floor.enqueueOn r.engine now d t).Owned c u :=
    fun ho => ho.of_homes (Engine.anchored_mark r.engine now t).homes
  refine ⟨?_, fun c u hu => howned (h.holding c u hu), fun c u hu => howned (h.resuming c u hu),
    h.moves, h.failures⟩
  intro c z u hz hu
  rw [Floor.enqueueOn, Engine.getElem?_updateCarrier] at hz
  split at hz
  · next hcd =>
      subst hcd
      obtain ⟨w, hw, rfl⟩ := Option.map_eq_some_iff.mp hz
      rcases List.mem_append.mp hu with hu | hu
      · exact howned (h.queued d w u hw hu)
      · cases List.mem_singleton.mp hu
        exact howned ho
  · exact howned (h.queued c z u hz hu)

/-! ## One step -/

theorem Sound.keep (h : Sound r) (hf : f.Sound) (hk : r.floor.Keeps f) :
    Sound { r with floor := f } where
  floor := hf
  slips := fun t => Nat.le_trans (h.slips t) (hk.freed t)
  addressed := fun p hp => owned_of_keeps hk (h.addressed p hp)
    (alive_of_freed h.floor (mem_freed_of_slip h hp))
  holding := fun c x hx => h.holding c x (hk.holding c x hx)
  resuming := fun c t ht => by
    rcases hk.resuming c t ht with hp | hp | ho
    · exact (h.resuming c t hp).imp_right fun ho => owned_of_keeps hk ho (h.floor.alive hp rfl)
    · exact .inl (h.holding c _ hp)
    · exact .inr ho
  successes := hk.successes.trans h.successes
  stolen := fun t => (hk.stolen t).trans (h.stolen t)
  known := fun m hm => by
    obtain ⟨x, hx⟩ := h.known m hm
    obtain ⟨y, hy, -⟩ := hk.home m.task x hx
    exact ⟨y, hy⟩
  home := fun hpush => (h.home (hk.config ▸ hpush)).keep h.floor hk

theorem Sound.take (h : Sound r) (hp : r.floor.phases[c]? = some .looking)
    (hd : r.engine.Handed c x e) :
    Sound { r with
      floor := r.floor.move c (.holding x) e
      popped := Function.update r.popped c (some x) } := by
  have hdealt := hd.dealt
  have htask : ∀ u, e.task? u = r.engine.task? u := fun u => by
    rw [Engine.task?, hdealt.tasks, ← Engine.task?]
  have howned : ∀ {d u}, r.engine.Owned d u → e.Owned d u :=
    fun ho => ho.of_homes (by rw [hdealt.tasks])
  -- A carrier that is about to switch to a task is not the one that took the entry.
  have hother : ∀ {d u}, (r.floor.move c (.holding x) e).phases[d]? = some (.resuming u) →
      r.floor.phases[d]? = some (.resuming u) ∧ d ≠ c := by
    intro d u hu
    obtain ⟨-, hcase⟩ | hu' := Floor.getElem?_modify_cases hu
    · cases hcase
    · refine ⟨hu', ?_⟩
      rintro rfl
      rw [hp] at hu'
      cases hu'
  refine ⟨?_, h.slips, fun p hp => howned (h.addressed p hp), ?_, ?_, ?_, ?_, ?_, ?_⟩
  · cases hd with
    | own hi => exact h.floor.dequeue hp hi
    | peer pulls hi => exact h.floor.dequeue hp hi
    | shared pulls hs => exact h.floor.dequeueShared hp hs
  · intro d y hy
    obtain ⟨rfl, hcase⟩ | hy' := Floor.getElem?_modify_cases hy
    · cases hcase
      exact Function.update_self c (some x) r.popped
    · have hd : d ≠ c := by
        rintro rfl
        rw [hp] at hy'
        cases hy'
      exact (Function.update_of_ne hd (some x) r.popped).trans (h.holding d y hy')
  · intro d u hu
    obtain ⟨hu', hd⟩ := hother hu
    exact (h.resuming d u hu').imp (Function.update_of_ne hd (some x) r.popped).trans howned
  · exact (congrArg Stats.stealSuccesses hdealt.stats).trans h.successes
  · intro u
    have hstolen : e.stolenOf u = r.engine.stolenOf u := by
      rw [Engine.stolenOf, htask, ← Engine.stolenOf]
    exact hstolen.trans (h.stolen u)
  · intro m hm
    obtain ⟨y, hy⟩ := h.known m hm
    exact ⟨y, (htask m.task).trans hy⟩
  · intro hpush
    have hpush' : r.engine.config.placement = .push := hdealt.config ▸ hpush
    exact (h.home hpush').take hdealt hpush'

theorem Sound.look (h : Sound r) {y : Task}
    (hfreed : (r.slips.map Prod.fst).count t < r.floor.freed.count t)
    (hy : r.engine.task? t = some y) (hd : y.carrier = some d) :
    Sound { r with slips := (t, d) :: r.slips } := by
  refine ⟨h.floor, fun u => ?_, fun p hp => ?_, h.holding, h.resuming, h.successes, h.stolen,
    h.known, fun hpush => ?_⟩
  · simp only [List.map_cons, List.count_cons, beq_iff_eq]
    split
    · next hu =>
        subst hu
        exact hfreed
    · exact h.slips u
  · rcases List.mem_cons.mp hp with rfl | hp
    · exact ⟨y, hy, hd⟩
    · exact h.addressed p hp
  · have hhome := h.home hpush
    exact ⟨hhome.queued, hhome.holding, hhome.resuming, hhome.moves, hhome.failures⟩

theorem Sound.post (h : Sound r) (now : Nanos) (hslip : (t, d) ∈ r.slips) :
    Sound { r with
      floor := { r.floor with
        engine := Floor.enqueueOn r.engine now d t
        freed := r.floor.freed.erase t }
      slips := r.slips.erase (t, d) } := by
  have hfreed : t ∈ r.floor.freed := mem_freed_of_slip h hslip
  obtain ⟨y, hy, hcarrier⟩ := h.addressed _ hslip
  obtain ⟨y', i, hy', -, -, hstatus, hthread, hmark⟩ := h.floor.wakeable hfreed
  have hsame : y' = y := Option.some.inj (hy'.symm.trans hy)
  subst hsame
  have hmarked := Engine.anchored_mark r.engine now t
  have howned : ∀ {c u}, r.engine.Owned c u → (Floor.enqueueOn r.engine now d t).Owned c u :=
    fun ho => ho.of_homes hmarked.homes
  refine ⟨?_, ?_, ?_, h.holding, ?_, h.successes, ?_, ?_, ?_⟩
  · have hwake : Floor.Sound { r.floor with
        engine := r.engine.wake now t
        freed := r.floor.freed.erase t } := h.floor.wake hfreed
    rw [Floor.wake_eq hy hcarrier hstatus hthread hmark] at hwake
    exact hwake
  · intro u
    have hslips := h.slips u
    have herase := count_task_erase hfreed u
    have hposted : (r.slips.map Prod.fst).count u =
        ((r.slips.erase (t, d)).map Prod.fst).count u + tally (some t) u := by
      rw [((List.perm_cons_erase hslip).map Prod.fst).count_eq u, List.map_cons, count_task_cons]
    simp only
    omega
  · intro p hp
    exact howned (h.addressed p (List.mem_of_mem_erase hp))
  · intro c u hu
    exact (h.resuming c u hu).imp_right howned
  · intro u
    exact (hmarked.stolen u).trans (h.stolen u)
  · intro m hm
    obtain ⟨z, hz⟩ := h.known m hm
    obtain ⟨w, hw, -⟩ := hmarked.home m.task z hz
    exact ⟨w, hw⟩
  · intro hpush
    exact (h.home hpush).post now (h.addressed _ hslip) _ _

theorem Sound.steal (h : Sound r) {y : Task} (hp : r.floor.phases[c]? = some (.resuming t))
    (hy : r.engine.task? t = some y) (hforeign : y.carrier ≠ some c)
    (hs : r.engine.steal? c y = some e) :
    Sound { r with
      floor := { r.floor with engine := e.count .stealSuccesses }
      moves := ⟨t, c⟩ :: r.moves } := by
  obtain rfl := h.floor.roster.id t y hy
  have hmoved := Engine.movedTo_of_steal? hy hs
  -- Nobody else has a right to let the task go on, so nobody is about to wake it.
  have hunfreed : y.id ∉ r.floor.freed := by
    intro hmem
    have hpos : 0 < r.floor.freed.count y.id := List.count_pos_iff.mpr hmem
    obtain ⟨hlying, -, -⟩ := h.floor.lying_eq_zero hp rfl
    unfold Floor.lying at hlying
    omega
  refine ⟨(h.floor.steal hp hs).step (.other (Engine.frame_count _ .stealSuccesses)), h.slips,
    fun p hp => ?_, h.holding, fun d u hu => ?_, ?_, fun u => ?_, fun m hm => ?_, fun hpush => ?_⟩
  · refine hmoved.owned ?_ (h.addressed p hp)
    rintro heq
    exact hunfreed (heq ▸ mem_freed_of_slip h hp)
  · by_cases hu' : u = y.id
    · subst hu'
      obtain rfl := h.floor.eq_of_right hp hu rfl rfl
      exact .inr ⟨_, hmoved.task, rfl⟩
    · exact (h.resuming d u hu).imp_right (hmoved.owned hu')
  · have hbump : e.stats.stealSuccesses + 1 = .ofNat (r.moves.length + 1) := by
      rw [hmoved.stats, h.successes, ofNat_succ]
    exact hbump
  · have hold := h.stolen u
    simp only [movesOf, List.countP_cons, decide_eq_true_eq]
    by_cases hu : u = y.id
    · subst hu
      have hnew : (e.count .stealSuccesses).stolenOf y.id = (y.stolen + 1) % 4294967296 :=
        Engine.stolenOf_of_task? hmoved.task
      rw [Engine.stolenOf_of_task? hy, movesOf] at hold
      have hcounted : (y.stolen + 1) % 4294967296 =
          (r.moves.countP (fun m => decide (m.task = y.id)) + 1) % 2 ^ 32 := by omega
      rw [if_pos rfl]
      exact hnew.trans hcounted
    · have hsame : (e.count .stealSuccesses).stolenOf u = r.engine.stolenOf u := by
        rw [Engine.stolenOf, Engine.stolenOf, ← hmoved.others u hu]
        rfl
      rw [if_neg (Ne.symm hu)]
      exact hsame.trans hold
  · rcases List.mem_cons.mp hm with rfl | hm
    · exact ⟨_, hmoved.task⟩
    · obtain ⟨z, hz⟩ := h.known m hm
      by_cases hu : m.task = y.id
      · exact ⟨_, hu ▸ hmoved.task⟩
      · exact ⟨z, (hmoved.others m.task hu).trans hz⟩
  · obtain ⟨z, hz, hc⟩ := (h.home (hmoved.config ▸ hpush)).resuming c y.id hp
    rw [hy] at hz
    cases hz
    exact absurd hc hforeign

theorem Sound.balk (h : Sound r) {y : Task} (hp : r.floor.phases[c]? = some (.resuming t))
    (hy : r.engine.task? t = some y) (hforeign : y.carrier ≠ some c) :
    Sound { r with
      floor := { r.floor.move c .looking (r.engine.count .stealFailures) with
        freed := t :: r.floor.freed } } := by
  have hphase : ∀ {d : Nat} {p : Phase},
      (r.floor.phases.modify c fun _ => Phase.looking)[d]? = some p → p ≠ .looking →
        r.floor.phases[d]? = some p := by
    intro d p hd hne
    obtain ⟨-, hcase⟩ | hd' := Floor.getElem?_modify_cases hd
    · exact absurd hcase hne
    · exact hd'
  refine ⟨(h.floor.step (.giveUp hp)).step (.other (Engine.frame_count _ .stealFailures)), ?_,
    h.addressed, fun d x hx => h.holding d x (hphase hx Phase.noConfusion),
    fun d u hu => h.resuming d u (hphase hu Phase.noConfusion), h.successes, h.stolen, h.known,
    fun hpush => ?_⟩
  · intro u
    exact Nat.le_trans (h.slips u) ((List.sublist_cons_self _ _).count_le u)
  · obtain ⟨z, hz, hc⟩ := (h.home hpush).resuming c t hp
    rw [hy] at hz
    cases hz
    exact absurd hc hforeign

theorem Sound.step (h : Sound r) (s : Step r r') : Sound r' := by
  cases s with
  | floor s freed holding record =>
      exact h.keep (h.floor.step s) (s.keeps h.floor freed holding record)
  | take hp hd => exact h.take hp hd
  | look hfreed hx hd => exact h.look hfreed hx hd
  | post now hslip => exact h.post now hslip
  | steal hp hx hforeign hs => exact h.steal hp hx hforeign hs
  | balk hp hx hforeign => exact h.balk hp hx hforeign

/-! ## Every run -/

theorem sound_start {config : Config} {processors : Nat} {groups : List ControlGroup}
    {pump : EventPump} (h : Engine.start config processors groups pump = .ok e) :
    Sound { floor := .quiet e } := by
  have hfresh := Floor.fresh_start h
  have hlooking : ∀ {c : Nat} {p : Phase}, (Floor.quiet e).phases[c]? = some p → p = .looking := by
    intro c p hp
    simp only [Floor.quiet, Array.getElem?_replicate] at hp
    split at hp
    · exact (Option.some.inj hp).symm
    · cases hp
  have hstats : e.stats = {} := by rw [Engine.start_eq h]
  refine ⟨hfresh.sound, fun t => Nat.zero_le _, fun p hp => absurd hp List.not_mem_nil,
    fun c x hx => ?_, fun c t ht => ?_, ?_, fun t => ?_, fun m hm => absurd hm List.not_mem_nil,
    fun _ => ⟨?_, fun c t ht => ?_, fun c t ht => ?_, rfl, ?_⟩⟩
  · cases hlooking hx
  · cases hlooking ht
  · exact congrArg Stats.stealSuccesses hstats
  · have hnone : e.task? t = none := by
      rw [Engine.task?, hfresh.tasks]
      rfl
    exact (congrArg (fun o => (Option.map Task.stolen o).getD 0) hnone : e.stolenOf t = 0)
  · intro c x t hx ht
    obtain ⟨n, rfl⟩ := hfresh.carriers c x hx
    cases ht
  · cases hlooking ht
  · cases hlooking ht
  · exact congrArg Stats.stealFailures hstats

theorem Reached.sound (h : Reached r) : Sound r := by
  induction h with
  | start h => exact sound_start h
  | step h s ih => exact ih.step s

end Traffic

end GreenThreads

import GreenThreads.Proofs.Program.Perform

/-!
# Worlds keep their tasks

Whatever ordinary programs do, between any two actions of their world a floor that can be reached
lies beside it: every carrier looks for something to do, or its task works, or blocks it. So what
holds of floors holds of the engine of a world.
-/

namespace GreenThreads

/-- What is kept of the strand of a task after its turn. -/
def Pace.keep {V : Type} (p : Pace) (s : Strand V) : Option (Strand V) :=
  match p with
  | .over => none
  | .busy _ | .wait _ _ | .away => some s

namespace World

variable {V : Type} {w w' : World V} {f : Floor (Option V)} {c n : Nat} {t : TaskId} {p : Phase}
  {s : Strand V}

/-- The strand of a task, if it has begun. -/
def strand? (w : World V) (t : TaskId) : Option (Strand V) := w.strands.getD t.index none

/-- What a carrier and its task are at between two actions. -/
def Between (w : World V) (p : Phase) : Prop :=
  p = .looking ∨ (∃ t, p = .working t) ∨
    ∃ t a s, p = .blocked t a ∧ w.strand? t = some s ∧ s.Blocking a

/-- The floor `f` lies beside the world `w`. -/
structure Beside (w : World V) (f : Floor (Option V)) : Prop where
  reached : f.Reached
  engine : f.engine = w.engine
  freed : f.freed = []
  due : f.due = []
  lanes : w.lanes.size = f.phases.size
  ordinary : w.Ordinary
  phases : ∀ (c : Nat) (p : Phase), f.phases[c]? = some p → w.Between p
  /-- A strand that blocks a carrier is that of its task. -/
  strands : ∀ t s, w.strand? t = some s →
    s.Orderly ∨ ∃ (c : Nat) (a : Axis), f.phases[c]? = some (.blocked t a) ∧ s.Blocking a

/-! ## Beginnings -/

theorem passes_begin (w : World V) (h : Host) (job : JobId) : Passes w (w.begin h job).1 := by
  unfold World.begin
  split
  · next key l _ =>
      have hstart : ∀ u, Passes w { w with starts := (key, u) :: w.starts.filter (·.1 != key) } :=
        fun u => passes_of_eq rfl rfl rfl rfl rfl
      dsimp only
      exact (hstart _).trans (passes_record _ _ _)
  · exact .refl w
  · exact .refl w

theorem Ordinary.begin (ho : w.Ordinary) (h : Host) (job : JobId) :
    (w.begin h job).2.Orderly := by
  unfold World.begin
  split
  · next key l hb =>
      refine ⟨?_, fun _ hf => by cases hf⟩
      intro l' hl
      cases hl
      exact ho.bodies job key l hb
  · refine ⟨fun _ hc => (by cases hc), ?_⟩
    intro f hf
    cases List.mem_singleton.mp hf
    trivial
  · refine ⟨fun _ hc => (by cases hc), ?_⟩
    intro f hf
    cases List.mem_singleton.mp hf
    trivial

theorem orderly_silent : Strand.Orderly ({ voice := .silent, control := .back } : Strand V) :=
  ⟨fun _ hc => (by cases hc), fun _ hf => by cases hf⟩

/-! ## What anybody may do -/

theorem Beside.passes (hb : Beside w f) (hw : Passes w w') :
    Beside w' { f with engine := w'.engine } := by
  have hstrands : w'.strands = w.strands := congrArg Prod.fst hw.stage
  have hlanes : w'.lanes = w.lanes := congrArg Prod.snd hw.stage
  have hstrand : ∀ t, w'.strand? t = w.strand? t := by
    intro t
    rw [strand?, strand?, hstrands]
  refine ⟨hw.engine f hb.reached hb.engine, rfl, hb.freed, hb.due, ?_, hw.ordinary hb.ordinary, ?_,
    ?_⟩
  · rw [hlanes]
    exact hb.lanes
  · intro c p hp
    unfold Between
    simp only [hstrand]
    exact hb.phases c p hp
  · intro t s hs
    rw [hstrand] at hs
    exact hb.strands t s hs

/-- Lanes do not matter to a floor, as long as there is one for each carrier. -/
theorem Beside.setLanes (hb : Beside w f) {lanes : Array Lane} (hl : lanes.size = w.lanes.size) :
    Beside { w with lanes } f :=
  ⟨hb.reached, hb.engine, hb.freed, hb.due, hl.trans hb.lanes,
    ⟨hb.ordinary.scripts, hb.ordinary.bodies, hb.ordinary.threads⟩, hb.phases, hb.strands⟩

/-! ## Turns of carriers -/

theorem strand?_setStrand (w : World V) (t u : TaskId) (o : Option (Strand V)) :
    (w.setStrand t o).strand? u = if u = t then o else w.strand? u := by
  have hlt : t.index <
      (w.strands ++ Array.replicate (t.index + 1 - w.strands.size) none).size := by
    rw [Array.size_append, Array.size_replicate]
    omega
  simp only [strand?, setStrand, Array.getD_eq_getD_getElem?]
  split
  · next hu =>
      rw [hu, Array.getElem?_setIfInBounds_self_of_lt hlt, Option.getD_some]
  · next hu =>
      have hne : t.index ≠ u.index := by
        intro he
        exact hu (by cases t; cases u; simp only at he; rw [he])
      rw [Array.getElem?_setIfInBounds_ne hne, Array.getElem?_append]
      split
      · rfl
      · next hsize =>
          rw [Array.getElem?_eq_none (Nat.le_of_not_lt hsize)]
          rw [Array.getElem?_replicate]
          split <;> rfl

/-- The task that is current on a carrier takes a turn. -/
theorem Beside.turned {pace : Pace} {p' : Phase} (hb : Beside w f) (hp : f.phases[c]? = some p)
    (hr : p.right = some t) (hseat : p.seat = some t) (hm : Moves w w' c p p')
    (hl : Leads t s pace p') :
    Beside (w'.setStrand t (pace.keep s)) (f.move c p' w'.engine) := by
  have hstrands : w'.strands = w.strands := congrArg Prod.fst hm.stage
  have hlanes : w'.lanes = w.lanes := congrArg Prod.snd hm.stage
  have hstrand : ∀ u, w'.strand? u = w.strand? u := by
    intro u
    rw [strand?, strand?, hstrands]
  have ho := hm.ordinary hb.ordinary
  refine ⟨hm.engine f hb.reached hb.due hb.engine hp, rfl, hb.freed, hb.due, ?_,
    ⟨ho.scripts, ho.bodies, ho.threads⟩, ?_, ?_⟩
  · have hmoved : (f.move c p' w'.engine).phases.size = f.phases.size := Array.size_modify
    rw [hmoved, ← hb.lanes, ← hlanes]
    rfl
  · intro d q hq
    by_cases hd : c = d
    · subst hd
      rw [Floor.getElem?_move hp] at hq
      cases hq
      cases hl with
      | goes hs => exact .inr (.inl ⟨t, rfl⟩)
      | blocks hs =>
          exact .inr (.inr ⟨t, _, s, rfl, by rw [strand?_setStrand, if_pos rfl, Pace.keep], hs⟩)
      | leaves hs => exact .inl rfl
      | ends => exact .inl rfl
    · rw [Floor.getElem?_move_of_ne hd] at hq
      rcases hb.phases d q hq with hq' | hq' | ⟨u, a, s', hq', hs', hblock⟩
      · exact .inl hq'
      · exact .inr (.inl hq')
      · have hu : u ≠ t := by
          rintro rfl
          exact hd (hb.reached.sound.eq_of_right hp hq hr (by rw [hq']; rfl))
        refine .inr (.inr ⟨u, a, s', hq', ?_, hblock⟩)
        rw [strand?_setStrand, if_neg hu, hstrand]
        exact hs'
  · intro u s' hs'
    rw [strand?_setStrand] at hs'
    split at hs'
    · next hu =>
        subst hu
        cases hl with
        | goes hs =>
            cases hs'
            exact .inl hs
        | blocks hs =>
            cases hs'
            exact .inr ⟨c, _, Floor.getElem?_move hp _ _, hs⟩
        | leaves hs =>
            cases hs'
            exact .inl hs
        | ends => cases hs'
    · next hu =>
        rw [hstrand] at hs'
        rcases hb.strands u s' hs' with hs | ⟨d, a, hd, hs⟩
        · exact .inl hs
        · have hne : c ≠ d := by
            rintro rfl
            rw [hp] at hd
            cases hd
            cases hseat
            exact hu rfl
          refine .inr ⟨d, a, ?_, hs⟩
          rw [Floor.getElem?_move_of_ne hne]
          exact hd

theorem Beside.current (hb : Beside w f) (hc : w.engine.current? c = some t) :
    f.phases[c]? = some (.working t) ∨
      ∃ a s, f.phases[c]? = some (.blocked t a) ∧ w.strand? t = some s ∧ s.Blocking a := by
  obtain ⟨x, hx, hcurrent⟩ := Option.bind_eq_some_iff.mp hc
  rw [← hb.engine] at hx
  have hlt : c < f.phases.size := by
    rw [hb.reached.sound.size]
    exact (Array.getElem?_eq_some_iff.mp hx).1
  have hp := Array.getElem?_eq_getElem hlt
  obtain ⟨hseat, -⟩ := hb.reached.sound.placed c _ x hp hx
  rw [hcurrent] at hseat
  rcases hb.phases c _ hp with hp' | ⟨u, hp'⟩ | ⟨u, a, s, hp', hs, hblock⟩
  · rw [hp'] at hseat
    cases hseat
  · rw [hp'] at hseat hp
    cases hseat
    exact .inl hp
  · rw [hp'] at hseat hp
    cases hseat
    exact .inr ⟨a, s, hp, hs, hblock⟩

/-- The strand of a task that works blocks no carrier. -/
theorem Beside.orderly (hb : Beside w f) (hp : f.phases[c]? = some (.working t))
    (hs : w.strand? t = some s) : s.Orderly := by
  rcases hb.strands t s hs with hs | ⟨d, a, hd, -⟩
  · exact hs
  · have heq := hb.reached.sound.eq_of_right hp hd rfl rfl
    subst heq
    rw [hp] at hd
    cases hd

/-- What is left of the turn of a task. -/
def afterTurn (c : Nat) (t : TaskId) (r : Turn V) : World V :=
  { r.1.setStrand t (r.2.2.keep r.2.1) with
    lanes := r.1.lanes.setIfInBounds c (laneAfter r.1.now r.2.2) }

theorem actTask_strand (hs : w.strand? t = some s) :
    w.actTask c t = afterTurn c t
      (w.advance (.task t c) ((w.engine.task? t).bind (·.job)) s) := by
  unfold strand? at hs
  unfold World.actTask
  simp only [hs]
  obtain ⟨w', s', pace⟩ := w.advance (.task t c) ((w.engine.task? t).bind (·.job)) s
  cases pace <;> rfl

theorem actTask_begin {job : JobId} (hs : w.strand? t = none)
    (hjob : (w.engine.task? t).bind (·.job) = some job) :
    w.actTask c t = afterTurn c t
      ((w.begin (.task t c) job).1.advance (.task t c) (some job) (w.begin (.task t c) job).2) := by
  unfold strand? at hs
  unfold World.actTask
  simp only [hs, hjob]
  obtain ⟨w', s', pace⟩ := (w.begin (.task t c) job).1.advance (.task t c) (some job)
    (w.begin (.task t c) job).2
  cases pace <;> rfl

theorem actTask_silent (hs : w.strand? t = none)
    (hjob : (w.engine.task? t).bind (·.job) = none) :
    w.actTask c t = afterTurn c t
      (w.advance (.task t c) none { voice := .silent, control := .back }) := by
  unfold strand? at hs
  unfold World.actTask
  simp only [hs, hjob]
  obtain ⟨w', s', pace⟩ := w.advance (.task t c) none { voice := .silent, control := .back }
  cases pace <;> rfl

theorem Beside.carried {r : Turn V} (hb : Beside w f) (hp : f.phases[c]? = some p)
    (hr : p.right = some t) (hseat : p.seat = some t) (hturn : w.Carried t c p r) :
    ∃ f, Beside (afterTurn c t r) f := by
  obtain ⟨p', hm, hl⟩ := hturn
  exact ⟨_, (hb.turned hp hr hseat hm hl).setLanes Array.size_setIfInBounds⟩

theorem Beside.actTask (hb : Beside w f) (hc : w.engine.current? c = some t) :
    ∃ f, Beside (w.actTask c t) f := by
  rcases hb.current hc with hp | ⟨a, s, hp, hs, hblock⟩
  · cases hs : w.strand? t with
    | some s =>
        rw [actTask_strand hs]
        exact hb.carried hp rfl rfl (w.fair_advance (.task t c) _ (hb.orderly hp hs))
    | none =>
        cases hjob : (w.engine.task? t).bind (·.job) with
        | some job =>
            rw [actTask_begin hs hjob]
            have hbegin := w.passes_begin (.task t c) job
            exact (hb.passes hbegin).carried hp rfl rfl
              (fair_advance _ (.task t c) _ (hb.ordinary.begin (.task t c) job))
        | none =>
            rw [actTask_silent hs hjob]
            exact hb.carried hp rfl rfl (w.fair_advance (.task t c) _ orderly_silent)
  · rw [actTask_strand hs]
    exact hb.carried hp rfl rfl (w.carried_advance _ hblock)

/-! ## Looking for something to do -/

theorem Beside.looking (hb : Beside w f) (hc : w.engine.current? c = none)
    (hlt : c < w.lanes.size) : f.phases[c]? = some .looking := by
  rw [hb.lanes] at hlt
  have hp := Array.getElem?_eq_getElem hlt
  have hx := Array.getElem?_eq_getElem (hb.reached.sound.size ▸ hlt)
  obtain ⟨hseat, -⟩ := hb.reached.sound.placed c _ _ hp hx
  rw [← hb.engine] at hc
  simp only [Engine.current?, hx, Option.bind_some] at hc
  rw [hc] at hseat
  rcases hb.phases c _ hp with hp' | ⟨u, hp'⟩ | ⟨u, a, s, hp', -⟩
  · rw [hp, hp']
  · rw [hp'] at hseat
    cases hseat
  · rw [hp'] at hseat
    cases hseat

/-- A carrier that looked for something to do may have begun to run a task. -/
theorem Beside.dispatched {e : Engine (Option V)} (hb : Beside w f)
    (hp : f.phases[c]? = some .looking) (hp' : p = .looking ∨ ∃ t, p = .working t)
    (hr : Floor.Reached (f.move c p e)) : Beside { w with engine := e } (f.move c p e) := by
  refine ⟨hr, rfl, hb.freed, hb.due, hb.lanes.trans Array.size_modify.symm, hb.ordinary.engine e, ?_,
    ?_⟩
  · intro d q hq
    by_cases hd : c = d
    · subst hd
      rw [Floor.getElem?_move hp] at hq
      cases hq
      rcases hp' with hp' | hp'
      · exact .inl hp'
      · exact .inr (.inl hp')
    · rw [Floor.getElem?_move_of_ne hd] at hq
      exact hb.phases d q hq
  · intro t s hs
    rcases hb.strands t s hs with hs | ⟨d, a, hd, hs⟩
    · exact .inl hs
    · have hne : c ≠ d := by
        rintro rfl
        rw [hp] at hd
        cases hd
      refine .inr ⟨d, a, ?_, hs⟩
      rw [Floor.getElem?_move_of_ne hne]
      exact hd

theorem Beside.rest (hb : Beside w f) (c : Nat) : ∃ f, Beside (w.rest c) f := by
  unfold World.rest
  split
  · have hend := hb.passes (passes_of_anytime (Floor.anytime_endCarrier c))
    exact ⟨_, hend.setLanes Array.size_setIfInBounds⟩
  · exact ⟨f, hb.setLanes Array.size_setIfInBounds⟩

theorem Beside.look (hb : Beside w f) (hp : f.phases[c]? = some .looking) :
    ∃ f, Beside (w.look c) f := by
  have hpoll := hb.passes (passes_of_anytime (Floor.anytime_pollTimers w.now c))
  unfold World.look
  dsimp only
  split
  · next r e hn =>
      obtain ⟨p, hp', hr⟩ := hpoll.reached.dispatch w.now hb.due hp hn
      exact ⟨_, (hpoll.dispatched hp hp' hr).setLanes Array.size_setIfInBounds⟩
  · exact hpoll.rest c

theorem Beside.actCarrier (hb : Beside w f) (hlt : c < w.lanes.size) :
    ∃ f, Beside (w.actCarrier c) f := by
  unfold World.actCarrier
  split
  · next t hc => exact hb.actTask hc
  · next hc =>
      have hp := hb.looking hc hlt
      split
      · exact (hb.passes (passes_of_anytime (Floor.anytime_pollEvents w.now))).look hp
      · exact hb.look hp

/-! ## Threads -/

/-- A thread beside the engine has acted. -/
theorem Beside.setThread (hb : Beside w f) (n : Nat) (hs : s.Orderly) (lane : Lane) :
    Beside { w with threads := w.threads.modify n ({ · with strand := some s, lane }) } f := by
  refine ⟨hb.reached, hb.engine, hb.freed, hb.due, hb.lanes,
    ⟨hb.ordinary.scripts, hb.ordinary.bodies, ?_⟩, hb.phases, hb.strands⟩
  intro m x s' hx hs'
  rw [Array.getElem?_modify] at hx
  split at hx
  · obtain ⟨y, -, rfl⟩ := Option.map_eq_some_iff.mp hx
    cases hs'
    exact hs
  · exact hb.ordinary.threads m x s' hx hs'

theorem Beside.actThread (hb : Beside w f) (n : Nat) : ∃ f, Beside (w.actThread n) f := by
  unfold World.actThread
  split
  · exact ⟨f, hb⟩
  · next x hx =>
      have hturn : ∀ w' s, Passes w w' → s.Orderly → ∀ lane, ∃ f,
          Beside { (w'.advance (.thread n) x.job s).1 with
            threads := (w'.advance (.thread n) x.job s).1.threads.modify n
              ({ · with strand := some (w'.advance (.thread n) x.job s).2.1, lane }) } f := by
        intro w' s hw hs lane
        obtain ⟨hpasses, hs'⟩ := w'.fair_advance (.thread n) x.job hs
        exact ⟨_, (hb.passes (hw.trans hpasses)).setThread n hs' lane⟩
      cases hs : x.strand with
      | some s => exact hturn w s (.refl w) (hb.ordinary.threads n x s hx hs) _
      | none =>
          cases hjob : x.job with
          | some job =>
              rw [hjob] at hturn
              exact hturn _ _ (w.passes_begin (.thread n) job)
                (hb.ordinary.begin (.thread n) job) _
          | none =>
              rw [hjob] at hturn
              exact hturn w _ (.refl w) orderly_silent _

/-! ## Runs -/

theorem Beside.rouse (hb : Beside w f) : Beside w.rouse f := by
  refine ⟨hb.reached, hb.engine, hb.freed, hb.due, Array.size_mapIdx.trans hb.lanes,
    ⟨hb.ordinary.scripts, hb.ordinary.bodies, ?_⟩, hb.phases, hb.strands⟩
  intro n x s hx hs
  dsimp only [World.rouse] at hx
  rw [Array.getElem?_map] at hx
  obtain ⟨y, hy, rfl⟩ := Option.map_eq_some_iff.mp hx
  exact hb.ordinary.threads n y s hy hs

theorem mem_of_earliest {l : List (Actor × Option Nanos)} {a : Actor} {at_ : Nanos}
    (h : earliest l = some (a, at_)) : (a, some at_) ∈ l := by
  induction l with
  | nil => cases h
  | cons x l ih =>
      obtain ⟨b, o⟩ := x
      cases o with
      | none => exact List.mem_cons_of_mem _ (ih h)
      | some u =>
          unfold earliest at h
          split at h
          · next b' u' hl =>
              split at h
              · cases h
                exact List.mem_cons_of_mem _ (ih hl)
              · cases h
                exact List.mem_cons_self
          · cases h
            exact List.mem_cons_self

/-- Only carriers that exist act. -/
theorem lt_of_mem_agenda {o : Option Nanos} (h : (Actor.carrier c, o) ∈ w.agenda) :
    c < w.lanes.size := by
  unfold agenda at h
  rcases List.mem_append.mp h with h | h
  · rcases List.mem_append.mp h with h | h
    · obtain ⟨n, _, heq⟩ := List.mem_mapIdx.mp h
      cases heq
    · obtain ⟨n, hn, heq⟩ := List.mem_mapIdx.mp h
      cases heq
      simpa using hn
  · cases List.mem_singleton.mp h

theorem Beside.act (hb : Beside w f) {a : Actor} (ha : ∀ c, a = .carrier c → c < w.lanes.size) :
    ∃ f, Beside (w.act a) f := by
  cases a with
  | thread n => exact hb.actThread n
  | carrier c => exact hb.actCarrier (ha c rfl)
  | preciseTimer =>
      exact ⟨_, hb.passes (passes_of_anytime (Floor.anytime_pollTimers w.now _))⟩

theorem Beside.step (hb : Beside w f) (hw : w.step? = some w') : ∃ f, Beside w' f := by
  obtain ⟨⟨a, at_⟩, ha, rfl⟩ := Option.map_eq_some_iff.mp hw
  have hlt : ∀ c, a = .carrier c → c < w.lanes.size := by
    rintro c rfl
    exact lt_of_mem_agenda (mem_of_earliest ha)
  have hnow : Passes w { w with now := max w.now at_ } := passes_of_eq rfl rfl rfl rfl rfl
  obtain ⟨f', hact⟩ := (hb.passes hnow).act hlt
  exact ⟨f', hact.rouse⟩

theorem Beside.runFor (hb : Beside w f) (n : Nat) : ∃ f, Beside (w.runFor n) f := by
  induction n generalizing w f with
  | zero => exact ⟨f, hb⟩
  | succ n ih =>
      unfold World.runFor
      split
      · next w' hw =>
          obtain ⟨f', hb'⟩ := hb.step hw
          exact ih hb'
      · exact ⟨f, hb⟩

/-- A world begins beside a floor where nobody has anything in hand. -/
theorem beside_create {config : Config} {processors : Nat} {groups : List ControlGroup}
    {pump : EventPump} {e : Engine (Option V)} {scripts : List (String × List (Step V))}
    {main : List (Step V)} (leave : Bool)
    (he : Engine.start config processors groups pump = .ok e)
    (hs : ∀ x ∈ scripts, Step.AllOrdinary x.2) (hm : Step.AllOrdinary main) :
    Beside (create e scripts main leave) (Floor.quiet e) := by
  refine ⟨.start he, rfl, rfl, rfl, ?_, ⟨hs, ?_, ?_⟩, ?_, ?_⟩
  · simp [create, Floor.quiet]
  · intro j key l hj
    simp [create] at hj
  · intro n x s hx hs
    have hthread : x ∈ (create e scripts main leave).threads := Array.mem_of_getElem? hx
    simp only [create, List.mem_toArray, List.mem_singleton] at hthread
    subst hthread
    cases hs
    refine ⟨?_, ?_⟩
    · intro l hl
      cases hl
      exact hm
    · intro g hg
      cases List.mem_singleton.mp hg
      trivial
  · intro c p hp
    obtain ⟨-, rfl⟩ := Array.getElem?_eq_some_iff.mp hp
    exact .inl (Array.getElem_replicate _)
  · intro t s hs
    simp [create, strand?] at hs

/-- What the carriers have in hand between two actions is current on them. -/
theorem Beside.right_eq_seated (hb : Beside w f) (t : TaskId) :
    f.phased Phase.right t = w.engine.seated t := by
  rw [← hb.engine, ← hb.reached.sound.phased_seat]
  refine total_congr ?_
  intro p hp
  obtain ⟨c, hc⟩ := Array.mem_iff_getElem?.mp hp
  rcases hb.phases c p hc with rfl | ⟨u, rfl⟩ | ⟨u, a, s, rfl, -⟩
  · rfl
  · rfl
  · rfl

/-- Whatever ordinary programs do on an engine that starts, and after however many actions: a task
that has work is current on one carrier, or else there is one way for it to go on, and never both. A
task without work is neither. -/
theorem runFor_keeps_tasks {config : Config} {processors : Nat} {groups : List ControlGroup}
    {pump : EventPump} {e : Engine (Option V)} {scripts : List (String × List (Step V))}
    {main : List (Step V)} (leave : Bool)
    (he : Engine.start config processors groups pump = .ok e)
    (hs : ∀ x ∈ scripts, Step.AllOrdinary x.2) (hm : Step.AllOrdinary main) (n : Nat) :
    let e' := ((create e scripts main leave).runFor n).engine
    (∀ t, e'.seated t + (e'.queued t + e'.deferrals t + e'.armed t + e'.waiting t) =
      e'.flag t (·.status == .alive)) ∧
    ∀ x ∈ e'.faults, x = .negateOverflow ∨ x = .unbalancedCritical := by
  obtain ⟨f, hb⟩ := (beside_create leave he hs hm).runFor n
  refine ⟨?_, ?_⟩
  · intro t
    have hlaw := hb.reached.sound.law t
    rw [Floor.lying, hb.engine, hb.freed, hb.due, hb.right_eq_seated, Engine.alarms] at hlaw
    simp only [List.count_nil, List.countP_nil] at hlaw
    omega
  · intro x hx
    rw [← hb.engine] at hx
    exact Fault.eq_of_isLocal (hb.reached.sound.faults x hx)

end World

end GreenThreads

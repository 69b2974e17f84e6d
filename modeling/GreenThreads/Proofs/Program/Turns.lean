import GreenThreads.Program.Run
import GreenThreads.Proofs.Floor.Errands

/-!
# Turns of programs

One action of a program is a turn. Here a turn is laid beside the floor of the engine: what it does
to the engine are steps, and it leaves its carrier in the phase that its pace tells.
-/

namespace GreenThreads

/-! ## Ordinary programs -/

mutual

/-- A step that leaves it to the engine when a task is woken and when a timeout is armed for it. -/
def Step.Ordinary {V : Type} : Step V → Prop
  | .wake _ | .arm _ _ _ | .cancelTimeout _ => False
  | .again _ body => AllOrdinary body
  | .attempt body => AllOrdinary body
  | .critical body => AllOrdinary body
  | .groupRun _ body => AllOrdinary body
  | _ => True

/-- All steps of a list are ordinary. -/
def Step.AllOrdinary {V : Type} : List (Step V) → Prop
  | [] => True
  | x :: l => x.Ordinary ∧ AllOrdinary l

end

/-- A frame of a strand that does not block a carrier. -/
def Frame.Orderly {V : Type} : Frame V → Prop
  | .rest steps => Step.AllOrdinary steps
  | .again _ body => Step.AllOrdinary body
  | .blocked _ _ => False
  | _ => True

/-- A strand that blocks no carrier. -/
structure Strand.Orderly {V : Type} (s : Strand V) : Prop where
  control : ∀ steps, s.control = .steps steps → Step.AllOrdinary steps
  frames : ∀ f ∈ s.frames, f.Orderly

/-- A strand that blocks its carrier on an axis. -/
structure Strand.Blocking {V : Type} (s : Strand V) (a : Axis) : Prop where
  control : s.control = .back
  frames : ∃ armed frames, s.frames = .blocked a armed :: frames ∧ ∀ f ∈ frames, f.Orderly

namespace Strand.Orderly

variable {V : Type} {s : Strand V} {l : List (Step V)}

theorem push {f : Frame V} (h : s.Orderly) (hf : f.Orderly) : (s.push f).Orderly := by
  refine ⟨h.control, ?_⟩
  intro g hg
  rcases List.mem_cons.mp hg with rfl | hg
  · exact hf
  · exact h.frames g hg

theorem pop {f : Frame V} {frames : List (Frame V)} (h : s.Orderly) (hf : s.frames = f :: frames) :
    f.Orderly ∧ Strand.Orderly { s with frames } := by
  have hall := h.frames
  rw [hf] at hall
  obtain ⟨hhead, htail⟩ := List.forall_mem_cons.mp hall
  exact ⟨hhead, h.control, htail⟩

theorem back (h : s.Orderly) : Strand.Orderly { s with control := .back } :=
  ⟨fun _ hc => (by cases hc), h.frames⟩

theorem value (h : s.Orderly) (v : Option V) : Strand.Orderly { s with control := .value v } :=
  ⟨fun _ hc => (by cases hc), h.frames⟩

theorem unwind (h : s.Orderly) (u : Unwind) : Strand.Orderly { s with control := .unwind u } :=
  ⟨fun _ hc => (by cases hc), h.frames⟩

theorem steps (h : s.Orderly) (hs : Step.AllOrdinary l) :
    Strand.Orderly { s with control := .steps l } :=
  ⟨fun _ hc => (by cases hc; exact hs), h.frames⟩

end Strand.Orderly

namespace World

variable {V : Type} {w w' w'' : World V} {c : Nat} {t : TaskId} {p p' : Phase} {s : Strand V}
  {h : Host}

/-- All programs of a world are ordinary, and no thread beside the engine blocks a carrier. -/
structure Ordinary (w : World V) : Prop where
  scripts : ∀ x ∈ w.scripts, Step.AllOrdinary x.2
  bodies : ∀ (j : Nat) (key : String) (l : List (Step V)), w.bodies[j]? = some (.program key l) →
    Step.AllOrdinary l
  threads : ∀ (n : Nat) (x : Thread V) (s : Strand V), w.threads[n]? = some x →
    x.strand = some s → s.Orderly

/-- What a world keeps for its carriers: the strands of their tasks, and their lanes. -/
def stage (w : World V) : Array (Option (Strand V)) × Array Lane := (w.strands, w.lanes)

/-- `w'` comes from `w` by something that anybody may do at any time. -/
structure Passes (w w' : World V) : Prop where
  engine : ∀ f : Floor (Option V), f.Reached → f.engine = w.engine →
    Floor.Reached { f with engine := w'.engine }
  ordinary : w.Ordinary → w'.Ordinary
  stage : w'.stage = w.stage

/-- `w'` comes from `w` by something that takes carrier `c` from phase `p` to phase `p'`. -/
structure Moves (w w' : World V) (c : Nat) (p p' : Phase) : Prop where
  engine : ∀ f : Floor (Option V), f.Reached → f.due = [] → f.engine = w.engine →
    f.phases[c]? = some p → (f.move c p' w'.engine).Reached
  ordinary : w.Ordinary → w'.Ordinary
  stage : w'.stage = w.stage

/-- The phase of a carrier, by the strand of its task and its pace. -/
inductive Leads (t : TaskId) : Strand V → Pace → Phase → Prop
  | goes {s : Strand V} {cost : Nanos} (h : s.Orderly) : Leads t s (.busy cost) (.working t)
  | blocks {s : Strand V} {a : Axis} {deadline : Option Nanos} (h : s.Blocking a) :
      Leads t s (.wait (.released a) deadline) (.blocked t a)
  | leaves {s : Strand V} (h : s.Orderly) : Leads t s .away .looking
  | ends {s : Strand V} : Leads t s .over .looking

/-- A turn in which a task takes its carrier from phase `p` to the phase that its pace tells. -/
def Carried (w : World V) (t : TaskId) (c : Nat) (p : Phase) (r : Turn V) : Prop :=
  ∃ p', w.Moves r.1 c p p' ∧ Leads t r.2.1 r.2.2 p'

/-- A turn of a thread, which anybody may take at any time, or of a task that works. -/
def Fair (w : World V) (h : Host) (r : Turn V) : Prop :=
  match h with
  | .thread _ => w.Passes r.1 ∧ r.2.1.Orderly
  | .task t c => w.Carried t c (.working t) r

/-! ## What anybody may do -/

theorem Ordinary.engine (ho : w.Ordinary) (e : Engine (Option V)) :
    Ordinary { w with engine := e } := ⟨ho.scripts, ho.bodies, ho.threads⟩

theorem Passes.refl (w : World V) : Passes w w := ⟨fun _ hf he => he ▸ hf, id, rfl⟩

theorem Passes.trans (h : Passes w w') (h' : Passes w' w'') : Passes w w'' := by
  refine ⟨?_, fun ho => h'.ordinary (h.ordinary ho), h'.stage.trans h.stage⟩
  intro f hf he
  exact h'.engine { f with engine := w'.engine } (h.engine f hf he) rfl

theorem Passes.then_moves (h : Passes w w') (h' : Moves w' w'' c p p') : Moves w w'' c p p' := by
  refine ⟨?_, fun ho => h'.ordinary (h.ordinary ho), h'.stage.trans h.stage⟩
  intro f hf hdue he hp
  exact h'.engine { f with engine := w'.engine } (h.engine f hf he) hdue rfl hp

theorem Passes.moves (h : Passes w w') (c : Nat) (p : Phase) : Moves w w' c p p := by
  refine ⟨?_, h.ordinary, h.stage⟩
  intro f hf _ he hp
  have hpass := h.engine f hf he
  unfold Floor.move
  rw [modify_eq_self hp rfl]
  exact hpass

theorem passes_of_anytime {g : Engine (Option V) → Engine (Option V)} (h : Floor.Anytime g) :
    Passes w (w.onEngine g) := by
  refine ⟨?_, fun ho => ho.engine _, rfl⟩
  intro f hf he
  have hg := h f hf
  rw [he] at hg
  exact hg

theorem passes_of_frame {e : Engine (Option V)} (h : Engine.Frame w.engine e) :
    Passes w { w with engine := e } :=
  ⟨fun _ hf he => hf.step (.other (he ▸ h)), fun ho => ho.engine _, rfl⟩

/-- Only the log, the time, the handles and the like are changed. -/
theorem passes_of_eq (he : w'.engine = w.engine) (hs : w'.scripts = w.scripts)
    (hb : w'.bodies = w.bodies) (ht : w'.threads = w.threads) (hstage : w'.stage = w.stage) :
    Passes w w' := by
  refine ⟨?_, ?_, hstage⟩
  · intro f hf hf'
    rw [he, ← hf']
    exact hf
  · intro ho
    refine ⟨?_, ?_, ?_⟩
    · rw [hs]
      exact ho.scripts
    · rw [hb]
      exact ho.bodies
    · rw [ht]
      exact ho.threads

theorem Moves.carried {cost : Nanos} (h : Moves w w' c p (.working t)) (hs : s.Orderly) :
    w.Carried t c p (w', s, .busy cost) := ⟨.working t, h, .goes hs⟩

/-- The strand goes on after something that anybody may do. -/
theorem Passes.fair {cost : Nanos} (hw : Passes w w') (hs : s.Orderly) (h : Host) :
    w.Fair h (w', s, .busy cost) := by
  cases h with
  | thread n => exact ⟨hw, hs⟩
  | task t c => exact (hw.moves c (.working t)).carried hs

theorem Passes.then_fair {r : Turn V} (hw : Passes w w') (hr : w'.Fair h r) : w.Fair h r := by
  cases h with
  | thread n => exact ⟨hw.trans hr.1, hr.2⟩
  | task t c =>
      obtain ⟨p', hm, hl⟩ := hr
      exact ⟨p', hw.then_moves hm, hl⟩

/-! ## What a carrier does -/

theorem Moves.trans {q : Phase} (h : Moves w w' c p q) (h' : Moves w' w'' c q p') :
    Moves w w'' c p p' := by
  refine ⟨?_, fun ho => h'.ordinary (h.ordinary ho), h'.stage.trans h.stage⟩
  intro f hf hdue he hp
  have hfirst := h.engine f hf hdue he hp
  exact (h'.engine (f.move c q w'.engine) hfirst hdue rfl (Floor.getElem?_move hp q _)).moved f q

theorem Moves.then_carried {q : Phase} {r : Turn V} (h : Moves w w' c p q)
    (hr : w'.Carried t c q r) : w.Carried t c p r := by
  obtain ⟨p', hm, hl⟩ := hr
  exact ⟨p', h.trans hm, hl⟩

theorem Passes.then_carried {r : Turn V} (h : Passes w w') (hr : w'.Carried t c p r) :
    w.Carried t c p r := by
  obtain ⟨p', hm, hl⟩ := hr
  exact ⟨p', h.then_moves hm, hl⟩

/-- Only the engine changes. -/
theorem moves_of_reached {e : Engine (Option V)}
    (h : ∀ f : Floor (Option V), f.Reached → f.due = [] → f.engine = w.engine →
      f.phases[c]? = some p → (f.move c p' e).Reached) : Moves w { w with engine := e } c p p' :=
  ⟨h, fun ho => ho.engine e, rfl⟩

theorem moves_of_step {e : Engine (Option V)}
    (h : ∀ f : Floor (Option V), f.engine = w.engine → f.phases[c]? = some p →
      Floor.Step f (f.move c p' e)) : Moves w { w with engine := e } c p p' :=
  moves_of_reached fun f hf _ he hp => hf.step (h f he hp)

/-- A step in which the carrier stays in its phase. -/
theorem moves_of_step_at {e : Engine (Option V)}
    (h : ∀ f : Floor (Option V), f.engine = w.engine → f.phases[c]? = some p →
      Floor.Step f { f with engine := e }) : Moves w { w with engine := e } c p p := by
  refine moves_of_reached ?_
  intro f hf _ he hp
  have hstep := hf.step (h f he hp)
  unfold Floor.move
  rw [modify_eq_self hp rfl]
  exact hstep

theorem moves_disarm (w : World V)
    (busy : p = .resuming t ∨ p = .working t ∨ ∃ a, p = .blocked t a) :
    Moves w (w.onEngine (·.disarm t)) c p p := by
  refine moves_of_reached ?_
  intro f hf hdue he hp
  have hdisarm := hf.disarm hdue hp busy
  unfold Floor.move
  rw [modify_eq_self hp rfl]
  rw [he] at hdisarm
  exact hdisarm

/-! ## Checkpoints -/

theorem passes_checkpoint (w : World V) (t : TaskId) : Passes w (w.checkpoint t).1 := by
  unfold checkpoint
  split
  · exact .refl w
  · next x hx => exact passes_of_frame (Engine.frame_stays hx (.checkpoint x))

theorem goChecked_eq (w : World V) (t : TaskId) (hs : s.Orderly) :
    ∃ s' : Strand V, s'.Orderly ∧ w.goChecked t s = ((w.checkpoint t).1, s', .busy tick) := by
  unfold goChecked
  split
  · next w' hw =>
      rw [hw]
      exact ⟨_, hs.back, rfl⟩
  · next w' u hw =>
      rw [hw]
      exact ⟨_, hs.unwind u, rfl⟩

theorem fair_goChecked (w : World V) (h : Host) (t : TaskId) (hs : s.Orderly) :
    w.Fair h (w.goChecked t s) := by
  obtain ⟨s', hs', heq⟩ := w.goChecked_eq t hs
  rw [heq]
  exact (w.passes_checkpoint t).fair hs' h

/-! ## Giving a carrier away -/

theorem carried_giveAway (w : World V) {f : Frame V} {parked : Option Axis} (hs : s.Orderly)
    (hf : f.Orderly) : w.Carried t c (.leaving t parked) (w.giveAway t c s f) := by
  refine ⟨.looking, moves_of_reached ?_, .leaves (hs.push hf).back⟩
  intro g hg _ he hp
  have haway := hg.giveAway w.now hp
  rw [he] at haway
  exact haway

theorem carried_yieldTask (w : World V) (hs : s.Orderly) :
    w.Carried t c (.working t) (w.yieldTask t c s) := by
  unfold yieldTask
  have hpasses := w.passes_checkpoint t
  split
  · next w' u hw =>
      rw [hw] at hpasses
      exact hpasses.fair (hs.unwind u) (.task t c)
  · next w' hw =>
      rw [hw] at hpasses
      split
      · exact hpasses.fair hs.back (.task t c)
      · refine hpasses.then_carried (Moves.then_carried (q := .leaving t none) ?_
          (carried_giveAway _ hs trivial))
        exact moves_of_step fun f he hp => he ▸ .yield hp

/-! ## Parks -/

theorem passes_leaveCritical (w : World V) (c : Nat) : Passes w (w.leaveCritical c) := by
  unfold leaveCritical
  split
  · exact .refl w
  · next x hx =>
      have hexit : Engine.Frame w.engine (w.engine.updateCarrier c fun _ => x.exitCritical.1) := by
        rw [← Engine.updateCarrier_congr (g := (·.exitCritical.1)) hx rfl]
        exact Engine.frame_updateCarrier (fun _ => rfl) fun _ => rfl
      refine passes_of_frame (hexit.trans (Engine.frame_blameIf ?_))
      intro y hy
      split at hy
      · cases hy
        rfl
      · cases hy

/-- A park that is refused or consumes a permit leaves the task at work. -/
theorem moves_beginPark {a : Axis} {native : Bool} {r : Except Fault Bool}
    (h : w.beginPark t a native = (w', r)) (hr : r ≠ .ok true) :
    Moves w w' c (.working t) (.working t) := by
  unfold beginPark at h
  split at h
  · cases h
    exact (Passes.refl w).moves c _
  · next x hx =>
      split at h
      · next y hy =>
          cases h
          exact moves_of_step_at fun f he hp => he ▸ .refusePark hp (he ▸ hx) hy
      · next q blocks hq =>
          cases h
          cases blocks with
          | true => exact absurd rfl hr
          | false => exact moves_of_step_at fun f he hp => he ▸ .permit hp (he ▸ hx) hq

/-- A park that waits gives the carrier away, or else blocks it. -/
theorem moves_beginPark_true {a : Axis} {native : Bool}
    (h : w.beginPark t a native = (w', .ok true)) :
    Moves w w' c (.working t) (if native then .blocked t a else .leaving t (some a)) := by
  unfold beginPark at h
  split at h
  · cases h
  · next x hx =>
      split at h
      · cases h
      · next q blocks hq =>
          cases h
          cases native with
          | true => exact moves_of_step fun f he hp => he ▸ .block hp (he ▸ hx) hq
          | false => exact moves_of_step fun f he hp => he ▸ .park hp (he ▸ hx) hq

theorem moves_endPark (w : World V) (a : Axis) :
    Moves w (w.endPark t a) c (.working t) (.working t) :=
  moves_of_step_at fun _ he hp => he ▸ .endPark a hp

theorem moves_endPark_blocked (w : World V) (a : Axis) :
    Moves w (w.endPark t a) c (.blocked t a) (.working t) :=
  moves_of_step fun _ he hp => he ▸ .unblock hp

theorem carried_goChecked (w : World V) (c : Nat) (hs : s.Orderly) :
    w.Carried t c (.working t) (w.goChecked t s) := w.fair_goChecked (.task t c) t hs

theorem carried_parkBlocking (w : World V) (a : Axis) (deadline : Option Nanos)
    (hs : s.Orderly) : w.Carried t c (.working t) (w.parkBlocking t c s a deadline) := by
  have hblocking : ∀ armed, Strand.Blocking { s.push (.blocked a armed) with control := .back } a :=
    fun armed => ⟨rfl, armed, s.frames, rfl, hs.frames⟩
  unfold parkBlocking
  split
  · next w' y hw => exact (moves_beginPark hw nofun).carried (hs.unwind _)
  · next w' hw => exact (moves_beginPark hw nofun).then_carried (w'.carried_goChecked c hs)
  · next w' hw =>
      have hblock := moves_beginPark_true (c := c) hw
      dsimp only
      split
      · exact ⟨_, hblock, .blocks (hblocking false)⟩
      · next d =>
          split
          · have harm : Moves w' (w'.onEngine (·.arm w'.now c t d (.wakeNative a) true)) c
                (.blocked t a) (.blocked t a) :=
              moves_of_step_at fun f he hp => he ▸ .armBlocked w'.now d hp
            exact ⟨_, hblock.trans harm, .blocks (hblocking true)⟩
          · exact ⟨_, hblock, .blocks (hblocking false)⟩

theorem carried_parkGiving (w : World V) (a : Axis) (deadline : Option Nanos) (hs : s.Orderly) :
    w.Carried t c (.working t) (w.parkGiving t c s a deadline) := by
  unfold parkGiving
  split
  · next w' y hw => exact (moves_beginPark hw nofun).carried (hs.unwind _)
  · next w' hw => exact (moves_beginPark hw nofun).then_carried (w'.carried_goChecked c hs)
  · next w' hw =>
      have hpark := moves_beginPark_true (c := c) hw
      cases deadline with
      | none => exact hpark.then_carried (carried_giveAway w' hs trivial)
      | some d =>
          have harm : Moves w' (w'.onEngine (·.arm w'.now c t d (.wakeCooperative a) true)) c
              (.leaving t (some a)) (.leaving t (some a)) :=
            moves_of_step_at fun f he hp => he ▸ .arm w'.now d hp
          exact (hpark.trans harm).then_carried (carried_giveAway _ hs trivial)

theorem carried_parkTask (w : World V) (a : Axis) (timeout : Option Nat) (forChannel : Bool)
    (hs : s.Orderly) : w.Carried t c (.working t) (w.parkTask t c s a timeout forChannel) := by
  have hpasses := w.passes_checkpoint t
  unfold parkTask
  split
  · next w' u hw =>
      rw [hw] at hpasses
      exact hpasses.fair (hs.unwind u) (.task t c)
  · next w' hw =>
      rw [hw] at hpasses
      split
      · exact hpasses.then_carried (w'.carried_yieldTask hs)
      · have hpark : ∀ (w'' : World V) (deadline : Option Nanos), w''.Carried t c (.working t)
            (if w''.engine.inCritical c then w''.parkBlocking t c s a deadline
              else w''.parkGiving t c s a deadline) := by
          intro w'' deadline
          split
          · exact w''.carried_parkBlocking a deadline hs
          · exact w''.carried_parkGiving a deadline hs
        have hchannel : Passes w' (w'.onEngine (·.unregisterChannel t)) :=
          passes_of_frame (Engine.frame_unregisterChannel _ t)
        cases forChannel with
        | true => exact hpasses.then_carried (hpark w' _)
        | false => exact (hpasses.trans hchannel).then_carried (hpark _ _)

/-- Parks and naps of threads leave the engine as it is. -/
theorem Passes.outside (w : World V) (n : Nat) (g : Thread V → Thread V)
    (hg : ∀ x, (g x).strand = x.strand) : Passes w { w with threads := w.threads.modify n g } := by
  refine ⟨fun _ hf he => he ▸ hf, fun ho => ⟨ho.scripts, ho.bodies, ?_⟩, rfl⟩
  intro m x s hx hs
  rw [Array.getElem?_modify] at hx
  split at hx
  · obtain ⟨y, hy, rfl⟩ := Option.map_eq_some_iff.mp hx
    exact ho.threads m y s hy ((hg y).symm.trans hs)
  · exact ho.threads m x s hx hs

theorem fair_parkThread (w : World V) (n : Nat) (timeout : Option Nat) (hs : s.Orderly) :
    w.Fair (.thread n) (w.parkThread n s timeout) := by
  unfold parkThread
  split
  · exact ⟨.refl w, hs.back⟩
  · split
    · exact ⟨.refl w, hs.unwind _⟩
    · next outside blocks _ =>
        have hpark : Passes w { w with threads := w.threads.modify n ({ · with outside }) } :=
          .outside w n _ fun _ => rfl
        dsimp only
        split
        · exact ⟨hpark, (hs.push (f := .threadParked) trivial).back⟩
        · exact ⟨hpark, hs.back⟩

theorem fair_sleep (w : World V) (h : Host) (time : Nanos) (hs : s.Orderly) :
    w.Fair h (w.sleep h s time) := by
  cases h with
  | thread n => exact ⟨.refl w, hs.back⟩
  | task t c => exact (Passes.refl w).fair (hs.push (f := .sleeping _) trivial).back (.task t c)

end World

end GreenThreads

import GreenThreads.Proofs.Program.Deeds

/-!
# Schedules

Carriers and threads act in whatever order. An action is taken apart here: the task that is current
on a carrier takes a turn, or its work is over, or an idle carrier takes work; and before and after
that there is only what leaves critical sections, memberships and the tasks on the carriers as they
are. What holds where a world begins and is kept by these pieces holds whoever acts, and whenever.
-/

namespace GreenThreads

theorem Floor.Sound.current?_eq {V : Type} {f : Floor V} (h : f.Sound) (c : Nat) :
    f.engine.current? c = (f.phases[c]?).bind Phase.seat := by
  unfold Engine.current?
  cases hp : f.phases[c]? with
  | none =>
      have hsize : f.engine.carriers.size ≤ c := h.size ▸ Array.getElem?_eq_none_iff.mp hp
      rw [Array.getElem?_eq_none hsize]
      rfl
  | some p =>
      have hlt : c < f.engine.carriers.size := h.size ▸ (Array.getElem?_eq_some_iff.mp hp).1
      have hx := Array.getElem?_eq_getElem hlt
      obtain ⟨hseat, -⟩ := h.placed c p _ hp hx
      rw [hx]
      exact hseat

theorem Engine.still_endCarrier {V : Type} (e : Engine V) (c : Nat) : e.Still (e.endCarrier c) := by
  refine endCarrier_induct (P := e.Still) (.refl e) ?_ ?_ ?_
  · intro e₁ e₂ t h hpop
    have htasks : e₂.tasks = e₁.tasks ∧ e₂.groups = e₁.groups := by
      obtain ⟨carriers, pool, rfl⟩ := hpop.eq
      exact ⟨rfl, rfl⟩
    refine (h.trans (still_of_eq htasks.1 htasks.2)).trans ?_
    refine ⟨sameMembers_updateTask fun _ => rfl, fun u y hy hc => ?_⟩
    rw [task?_updateTask] at hy
    split at hy
    · obtain ⟨x, -, rfl⟩ := Option.map_eq_some_iff.mp hy
      cases hc
    · exact ⟨y, hy, hc⟩
  · exact fun e₁ h => h.trans (still_of_eq rfl rfl)
  · exact fun e₁ k h => h.trans (still_of_eq rfl rfl)

/-- The task that a carrier obtains for new work, with a context, is ready for it. -/
def Engine.HasSpare {V : Type} (e : Engine V) (c : Nat) : Prop :=
  ∃ y, ((e.obtain c).1.ensureContext (e.obtain c).2).task? (e.obtain c).2 = some y ∧ y.Ended

namespace World

variable {V : Type} {w w' w'' : World V} {f : Floor (Option V)} {c n : Nat} {t : TaskId} {p : Phase}
  {s : Strand V} {h : Host} {q : Step V → Prop} {r : Turn V} {P : List (Step V) → Prop}
  {Q : Strand V → Prop}

theorem strand?_congr (hs : w'.strands = w.strands) (t : TaskId) : w'.strand? t = w.strand? t := by
  rw [strand?, strand?, hs]

/-! ## What deeds leave as it is -/

theorem Holds.engine (hw : w.Holds P Q) (e : Engine (Option V)) :
    Holds P Q { w with engine := e } := ⟨hw.scripts, hw.bodies, hw.threads⟩

theorem leaveCritical_eq (w : World V) (c : Nat) :
    ∃ e, w.leaveCritical c = { w with engine := e } := by
  unfold leaveCritical
  split
  · exact ⟨w.engine, rfl⟩
  · exact ⟨_, rfl⟩

theorem Deed.strands {x y : World V × List Bracket} (hd : Deed q n h x y) :
    y.1.strands = x.1.strands := by
  cases hd with
  | neutral hw => exact hw.strands
  | @leave _ d w bs =>
      obtain ⟨e, heq⟩ := w.leaveCritical_eq d
      dsimp only
      rw [heq]
  | _ => rfl

theorem Deed.holds {x y : World V × List Bracket} (hd : Deed q n h x y) (hP : P [])
    (hw : x.1.Holds P Q) : y.1.Holds P Q := by
  cases hd with
  | neutral hn => exact hn.holds P Q hP hw
  | @leave _ d w bs =>
      obtain ⟨e, heq⟩ := w.leaveCritical_eq d
      dsimp only
      rw [heq]
      exact hw.engine e
  | drop => exact hw
  | _ => exact hw.engine _

theorem Deeds.strands {x y : World V × List Bracket} (hd : Deeds q n h x y) :
    y.1.strands = x.1.strands := by
  induction hd with
  | refl => rfl
  | tail _ hlast ih => exact hlast.strands.trans ih

theorem Deeds.holds {x y : World V × List Bracket} (hd : Deeds q n h x y) (hP : P [])
    (hw : x.1.Holds P Q) : y.1.Holds P Q := by
  induction hd with
  | refl => exact hw
  | tail _ hlast ih => exact hlast.holds hP ih

theorem Deeds.neutral_of_thread {k : Nat} {x y : World V × List Bracket}
    (hd : Deeds q n (.thread k) x y) (hx : x.2 = []) : Neutral x.1 y.1 ∧ y.2 = [] := by
  induction hd with
  | refl => exact ⟨.refl _, hx⟩
  | tail _ hlast ih =>
      obtain ⟨hw, hbs⟩ := ih
      cases hlast with
      | neutral hw' => exact ⟨hw.trans hw', hbs⟩
      | leave => cases hbs
      | drop => cases hbs

/-! ## Worlds within bounds -/

/-- All programs and strands of a world fit, and a strand of a thread has opened nothing. -/
structure Fits (q : Step V → Prop) (n : Nat) (w : World V) : Prop where
  holds : w.Holds (Step.AllFit q n) fun s => s.Fits q n ∧ s.brackets = []
  strands : ∀ t s, w.strand? t = some s → s.Fits q n

theorem Fits.neutral (hf : w.Fits q n) (hw : Neutral w w') : w'.Fits q n :=
  ⟨hw.holds _ _ trivial hf.holds, fun t s hs => hf.strands t s (strand?_congr hw.strands t ▸ hs)⟩

theorem Fits.engine (hf : w.Fits q n) (e : Engine (Option V)) : Fits q n { w with engine := e } :=
  ⟨hf.holds.engine e, hf.strands⟩

theorem Fits.setLanes (hf : w.Fits q n) (lanes : Array Lane) : Fits q n { w with lanes } :=
  ⟨⟨hf.holds.scripts, hf.holds.bodies, hf.holds.threads⟩, hf.strands⟩

theorem Fits.setThread (hf : w.Fits q n) (k : Nat) (hs : s.Fits q n) (hb : s.brackets = [])
    (lane : Lane) :
    Fits q n { w with threads := w.threads.modify k ({ · with strand := some s, lane }) } := by
  refine ⟨⟨hf.holds.scripts, hf.holds.bodies, ?_⟩, hf.strands⟩
  intro m x s' hx hs'
  rw [Array.getElem?_modify] at hx
  split at hx
  · obtain ⟨y, -, rfl⟩ := Option.map_eq_some_iff.mp hx
    cases hs'
    exact ⟨hs, hb⟩
  · exact hf.holds.threads m x s' hx hs'

theorem Fits.rouse (hf : w.Fits q n) : w.rouse.Fits q n := by
  refine ⟨⟨hf.holds.scripts, hf.holds.bodies, ?_⟩, hf.strands⟩
  intro k x s hx hs
  dsimp only [World.rouse] at hx
  rw [Array.getElem?_map] at hx
  obtain ⟨y, hy, rfl⟩ := Option.map_eq_some_iff.mp hx
  exact hf.holds.threads k y s hy hs

theorem strand?_afterTurn (hs : r.1.strands = w.strands) (u : TaskId) :
    (afterTurn c t r).strand? u = if u = t then r.2.2.keep r.2.1 else w.strand? u := by
  have hset : (afterTurn c t r).strand? u = (r.1.setStrand t (r.2.2.keep r.2.1)).strand? u := rfl
  rw [hset, strand?_setStrand, strand?_congr hs]

theorem strand?_afterOver (e : Engine (Option V)) (s : Strand V) (hs : w'.strands = w.strands)
    (u : TaskId) : (afterTurn c t ({ w' with engine := e }, s, .over)).strand? u =
      if u = t then none else w.strand? u :=
  strand?_afterTurn (r := ({ w' with engine := e }, s, .over)) hs u

theorem strand?_create (e : Engine (Option V)) (scripts : List (String × List (Step V)))
    (main : List (Step V)) (leave : Bool) (t : TaskId) :
    (World.create e scripts main leave).strand? t = none := by
  simp [World.create, strand?]

theorem Fits.afterTurn (hf : w.Fits q n) (hstrands : r.1.strands = w.strands)
    (hholds : r.1.Holds (Step.AllFit q n) fun s => s.Fits q n ∧ s.brackets = [])
    (hs : ∀ s, r.2.2.keep r.2.1 = some s → s.Fits q n) : Fits q n (World.afterTurn c t r) := by
  refine ⟨⟨hholds.scripts, hholds.bodies, hholds.threads⟩, fun u s' hs' => ?_⟩
  rw [strand?_afterTurn hstrands] at hs'
  split at hs'
  · exact hs s' hs'
  · exact hf.strands u s' hs'

/-! ## The pieces of an action -/

/-- `w'` comes from `w` by something that leaves critical sections, memberships, strands and the
tasks on the carriers as they are. -/
structure Aside (w w' : World V) : Prop where
  nesting : w'.engine.nesting = w.engine.nesting
  still : w.engine.Still w'.engine
  strands : w'.strands = w.strands
  seats : ∀ c, w'.engine.current? c = w.engine.current? c

/-- The task `t` has work, is current on carrier `c` alone, and goes on with the strand `s`, which
may have yet to begin. -/
structure Runs (w : World V) (c : Nat) (t : TaskId) (s : Strand V) : Prop where
  current : w.engine.current? c = some t
  alone : ∀ d, w.engine.current? d = some t → d = c
  alive : ∃ x, w.engine.task? t = some x ∧ x.status = .alive
  strand : w.strand? t = some s ∨ w.strand? t = none ∧ s.brackets = []

/-- What an action does to critical sections and memberships. -/
inductive Piece (q : Step V → Prop) (n : Nat) : World V → World V → Prop
  /-- A task takes a turn, and keeps its carrier or gives it away. -/
  | turn {w : World V} {c : Nat} {t : TaskId} {s : Strand V} {r : Turn V} (runs : w.Runs c t s)
      (turned : Turned q n (.task t c) w s r)
      (seat : r.1.engine.current? c = some t ∨ r.2.2 = .away ∧ r.1.engine.current? c = none)
      (others : ∀ d, d ≠ c → r.1.engine.current? d = w.engine.current? d) :
      Piece q n w (afterTurn c t r)
  /-- The work of a task is over. -/
  | finish {w w' : World V} {c : Nat} {t : TaskId} {s : Strand V} {e : Engine (Option V)}
      (runs : w.Runs c t s) (left : s.frames = []) (neutral : Neutral w w')
      (exits : w'.engine.exit w'.now c t = e) (seat : e.current? c = none)
      (others : ∀ d, d ≠ c → e.current? d = w.engine.current? d) :
      Piece q n w (afterTurn c t ({ w' with engine := e }, s, .over))
  /-- An idle carrier takes work and may have begun to run a task. -/
  | take {w : World V} {c : Nat} {x : Runnable} {e e' : Engine (Option V)}
      (idle : w.engine.current? c = none) (there : c < w.engine.carriers.size)
      (next : w.engine.next? c = some (x, e)) (works : e.dispatch w.now c x = e')
      (ready : ∀ s, x = .start s → e.HasSpare c)
      (others : ∀ d, d ≠ c → e'.current? d = w.engine.current? d)
      (alone : ∀ t, e'.current? c = some t → ∀ d, w.engine.current? d ≠ some t) :
      Piece q n w { w with engine := e' }

/-- An action: one piece at most, and other things before and after it. -/
def Course (q : Step V → Prop) (n : Nat) (w w' : World V) : Prop :=
  ∃ w₁ w₂, Aside w w₁ ∧ Relation.ReflGen (Piece q n) w₁ w₂ ∧ Aside w₂ w'

theorem aside_of_eq (he : w'.engine = w.engine) (hs : w'.strands = w.strands) : Aside w w' :=
  ⟨by rw [he], by rw [he]; exact .refl _, hs, fun _ => by rw [he]⟩

theorem Aside.refl (w : World V) : Aside w w := aside_of_eq rfl rfl

theorem Aside.trans (h : Aside w w') (h' : Aside w' w'') : Aside w w'' :=
  ⟨h'.nesting.trans h.nesting, h.still.trans h'.still, h'.strands.trans h.strands,
    fun c => (h'.seats c).trans (h.seats c)⟩

theorem Aside.course (h : Aside w w') : Course q n w w' := ⟨w, w, .refl w, .refl, h⟩

theorem Piece.course (h : Piece q n w w') : Course q n w w' := ⟨w, w', .refl w, .single h, .refl w'⟩

theorem Course.after (h : Aside w w') (hc : Course q n w' w'') : Course q n w w'' := by
  obtain ⟨w₁, w₂, hbefore, hpiece, hafter⟩ := hc
  exact ⟨w₁, w₂, h.trans hbefore, hpiece, hafter⟩

theorem Course.before (hc : Course q n w w') (h : Aside w' w'') : Course q n w w'' := by
  obtain ⟨w₁, w₂, hbefore, hpiece, hafter⟩ := hc
  exact ⟨w₁, w₂, hbefore, hpiece, hafter.trans h⟩

/-! ## Turns of tasks -/

/-- What anybody may do at any time changes no current task. -/
theorem Beside.aside (hb : Beside w f) (hp : Passes w w') (hn : Neutral w w') : Aside w w' := by
  refine ⟨hn.nesting, hn.still, hn.strands, fun c => ?_⟩
  rw [← hb.engine, hb.reached.sound.current?_eq]
  exact (hb.passes hp).reached.sound.current?_eq c

theorem Beside.current_move {e : Engine (Option V)} {p' : Phase} (hb : Beside w f)
    (hp : f.phases[c]? = some p) (hr : (f.move c p' e).Reached) :
    e.current? c = p'.seat ∧ ∀ d, d ≠ c → e.current? d = w.engine.current? d := by
  have hcurrent := hr.sound.current?_eq
  refine ⟨?_, fun d hd => ?_⟩
  · have hc := hcurrent c
    rwa [Floor.getElem?_move hp, Option.bind_some] at hc
  · have hc := hcurrent d
    rw [Floor.getElem?_move_of_ne (Ne.symm hd), ← hb.reached.sound.current?_eq, hb.engine] at hc
    exact hc

/-- Between two actions a task that is current on a carrier is on no other. -/
theorem Beside.alone {d : Nat} (hb : Beside w f) (hp : f.phases[c]? = some p)
    (hr : p.right = some t) (hd : w.engine.current? d = some t) : d = c := by
  rcases hb.current hd with hq | ⟨a, s, hq, -, -⟩
  · exact (hb.reached.sound.eq_of_right hp hq hr rfl).symm
  · exact (hb.reached.sound.eq_of_right hp hq hr rfl).symm

theorem Leads.seat {pace : Pace} (hl : Leads t s pace p) :
    p.seat = some t ∨ (pace = .away ∨ pace = .over) ∧ p.seat = none := by
  cases hl with
  | goes => exact .inl rfl
  | blocks => exact .inl rfl
  | leaves => exact .inr ⟨.inl rfl, rfl⟩
  | ends => exact .inr ⟨.inr rfl, rfl⟩

theorem eq_of_keep {pace : Pace} {s' : Strand V} (hk : pace.keep s = some s') : s' = s :=
  match pace, hk with
  | .busy _, hk | .wait _ _, hk | .away, hk => (Option.some.inj hk).symm

/-- The task that is current on a carrier takes a turn with its strand, or its work is over. -/
theorem Beside.piece_of_carried {job : Option JobId} (hb : Beside w f) (hf : w.Fits q n)
    (hp : f.phases[c]? = some p) (hr : p.right = some t) (hseat : p.seat = some t)
    (hs : s.Fits q n) (hstrand : w.strand? t = some s ∨ w.strand? t = none ∧ s.brackets = [])
    (hturn : w.Carried t c p (w.advance (.task t c) job s)) :
    Piece q n w (afterTurn c t (w.advance (.task t c) job s)) ∧
      Fits q n (afterTurn c t (w.advance (.task t c) job s)) := by
  have hruns : w.Runs c t s := by
    refine ⟨?_, fun d hd => hb.alone hp hr hd, hb.engine ▸ hb.reached.sound.alive hp hr, hstrand⟩
    rw [← hb.engine, hb.reached.sound.current?_eq, hp]
    exact hseat
  obtain ⟨p', hm, hl⟩ := hturn
  obtain ⟨hcurrent, hothers⟩ :=
    hb.current_move hp (hm.engine f hb.reached hb.due hb.engine hp)
  rcases w.advance_cases (.task t c) job hs with hturned | ⟨hleft, outcome, heq⟩
  · refine ⟨.turn hruns hturned ?_ hothers, hf.afterTurn hturned.deeds.strands
      (hturned.deeds.holds trivial hf.holds) fun s' hk => eq_of_keep hk ▸ hturned.fits⟩
    rw [hcurrent]
    exact hl.seat.imp_right fun ⟨hpace, hnone⟩ => ⟨hpace.resolve_right hturned.goes, hnone⟩
  · obtain ⟨w', hw', hconclude⟩ := w.conclude_eq (.task t c) s.voice job outcome
    dsimp only [onEngine] at hconclude
    rw [heq, hconclude] at hcurrent hothers hl ⊢
    have hnone : p'.seat = none := by
      cases hl
      rfl
    generalize hover : w'.engine.exit w'.now c t = e at hcurrent hothers ⊢
    exact ⟨.finish hruns hleft hw' hover (hcurrent.trans hnone) hothers,
      hf.afterTurn hw'.strands ((hf.neutral hw').engine e).holds fun _ hk => by cases hk⟩

theorem Beside.course_actTask (hb : Beside w f) (hf : w.Fits q n)
    (hc : w.engine.current? c = some t) :
    Course q n w (w.actTask c t) ∧ (w.actTask c t).Fits q n := by
  rcases hb.current hc with hp | ⟨a, s, hp, hs, hblock⟩
  · cases hs : w.strand? t with
    | some s =>
        rw [actTask_strand hs]
        exact (hb.piece_of_carried hf hp rfl rfl (hf.strands t s hs) (.inl hs)
          (w.fair_advance (.task t c) _ (hb.orderly hp hs))).imp_left Piece.course
    | none =>
        cases hjob : (w.engine.task? t).bind (·.job) with
        | some job =>
            rw [actTask_begin hs hjob]
            have hpasses := w.passes_begin (.task t c) job
            have hneutral := w.neutral_begin (.task t c) job
            obtain ⟨hfits, hnone⟩ := fits_begin hf.holds (.task t c) job
            have hbegun := (strand?_congr hneutral.strands t).trans hs
            exact ((hb.passes hpasses).piece_of_carried (hf.neutral hneutral) hp rfl rfl hfits
              (.inr ⟨hbegun, hnone⟩) (fair_advance _ (.task t c) _
                (hb.ordinary.begin (.task t c) job))).imp_left fun hpiece =>
                hpiece.course.after (hb.aside hpasses hneutral)
        | none =>
            rw [actTask_silent hs hjob]
            exact (hb.piece_of_carried hf hp rfl rfl fits_silent (.inr ⟨hs, rfl⟩)
              (w.fair_advance (.task t c) _ orderly_silent)).imp_left Piece.course
  · rw [actTask_strand hs]
    exact (hb.piece_of_carried hf hp rfl rfl (hf.strands t s hs) (.inl hs)
      (w.carried_advance _ hblock)).imp_left Piece.course

/-! ## Idle carriers -/

theorem Beside.course_rest (hb : Beside w f) (hf : w.Fits q n) (c : Nat) :
    Aside w (w.rest c) ∧ (w.rest c).Fits q n := by
  unfold World.rest
  split
  · have hend : Neutral w (w.onEngine (·.endCarrier c)) :=
      neutral_of_still (Engine.nesting_endCarrier _ c) (Engine.still_endCarrier _ c)
    have haside := hb.aside (passes_of_anytime (Floor.anytime_endCarrier c)) hend
    exact ⟨haside.trans (aside_of_eq rfl rfl), (hf.neutral hend).setLanes _⟩
  · exact ⟨aside_of_eq rfl rfl, hf.setLanes _⟩

/-- What an idle carrier takes it may begin to run at once. -/
theorem Beside.piece_of_next {x : Runnable} {e : Engine (Option V)} (hb : Beside w f)
    (hp : f.phases[c]? = some .looking) (hn : w.engine.next? c = some (x, e)) :
    Piece q n w { w with engine := e.dispatch w.now c x } := by
  have hsound := hb.reached.sound
  have hidle : w.engine.current? c = none := by
    rw [← hb.engine, hsound.current?_eq, hp]
    rfl
  have hthere : c < w.engine.carriers.size := by
    rw [← hb.engine, ← hsound.size]
    exact (Array.getElem?_eq_some_iff.mp hp).1
  have hn' : f.engine.next? c = some (x, e) := hb.engine ▸ hn
  obtain ⟨p, hp', hr⟩ := hb.reached.dispatch w.now hb.due hp hn'
  obtain ⟨hcurrent, hothers⟩ := hb.current_move hp hr
  refine .take hidle hthere hn rfl ?_ hothers ?_
  · rintro s rfl
    have htake := hb.reached.step (.take hp (Engine.taken_of_next? hn'))
    have hholds := Floor.getElem?_move hp (.holding (.start s)) e
    have hready := (htake.obtain hholds).step
      (.other (Engine.frame_ensureContext _ (e.obtain c).2))
    exact hready.sound.ended (Floor.getElem?_move hholds _ _)
  · intro t ht d hd
    rw [hcurrent] at ht
    have hdispatched := hb.dispatched hp hp' hr
    have hright : p.right = some t := by
      rcases hp' with rfl | ⟨u, rfl⟩
      · cases ht
      · exact ht
    by_cases hdc : d = c
    · rw [hdc, hidle] at hd
      cases hd
    · exact hdc (hdispatched.alone (Floor.getElem?_move hp _ _) hright ((hothers d hdc).trans hd))

theorem Beside.course_look (hb : Beside w f) (hf : w.Fits q n)
    (hp : f.phases[c]? = some .looking) : Course q n w (w.look c) ∧ (w.look c).Fits q n := by
  have hpasses : Passes w (w.onEngine (·.pollTimers w.now c)) :=
    passes_of_anytime (Floor.anytime_pollTimers w.now c)
  have hneutral : Neutral w (w.onEngine (·.pollTimers w.now c)) :=
    neutral_of_nudges (Engine.nesting_pollTimers _ _ c) (Engine.nudges_pollTimers _ _ c)
  have hpoll := hb.passes hpasses
  have hfits := hf.neutral hneutral
  refine And.imp_left (Course.after (hb.aside hpasses hneutral)) ?_
  unfold World.look
  dsimp only
  split
  · next x e hn =>
      have hpiece : Piece q n _ _ := hpoll.piece_of_next hp hn
      exact ⟨hpiece.course.before (aside_of_eq rfl rfl), (hfits.engine _).setLanes _⟩
  · exact (hpoll.course_rest hfits c).imp_left Aside.course

theorem Beside.course_actCarrier (hb : Beside w f) (hf : w.Fits q n) (hlt : c < w.lanes.size) :
    Course q n w (w.actCarrier c) ∧ (w.actCarrier c).Fits q n := by
  unfold World.actCarrier
  split
  · next t hc => exact hb.course_actTask hf hc
  · next hc =>
      have hp := hb.looking hc hlt
      split
      · have hpasses : Passes w (w.onEngine (·.pollEvents w.now)) :=
          passes_of_anytime (Floor.anytime_pollEvents w.now)
        have hneutral : Neutral w (w.onEngine (·.pollEvents w.now)) :=
          neutral_of_nudges (Engine.nesting_pollEvents _ _) (Engine.nudges_pollEvents _ _)
        exact ((hb.passes hpasses).course_look (hf.neutral hneutral) hp).imp_left
          (Course.after (hb.aside hpasses hneutral))
      · exact hb.course_look hf hp

/-! ## Threads -/

theorem neutral_advance (w : World V) (k : Nat) (job : Option JobId) (hs : s.Fits q n)
    (hnone : s.brackets = []) :
    Neutral w (w.advance (.thread k) job s).1 ∧
      (w.advance (.thread k) job s).2.1.Fits q n ∧
      (w.advance (.thread k) job s).2.1.brackets = [] := by
  rcases w.advance_cases (.thread k) job hs with hturned | ⟨-, outcome, heq⟩
  · obtain ⟨hneutral, hleft⟩ := hturned.deeds.neutral_of_thread hnone
    exact ⟨hneutral, hturned.fits, hleft⟩
  · obtain ⟨w', hw', hconclude⟩ := w.conclude_eq (.thread k) s.voice job outcome
    rw [heq, hconclude]
    exact ⟨hw', hs, hnone⟩

theorem Beside.course_actThread (hb : Beside w f) (hf : w.Fits q n) (k : Nat) :
    Aside w (w.actThread k) ∧ (w.actThread k).Fits q n := by
  unfold World.actThread
  split
  · exact ⟨.refl w, hf⟩
  · next x hx =>
      have hturn : ∀ w' s, Passes w w' → Neutral w w' → s.Orderly → s.Fits q n → s.brackets = [] →
          ∀ lane, let w'' := { (w'.advance (.thread k) x.job s).1 with
              threads := (w'.advance (.thread k) x.job s).1.threads.modify k
                ({ · with strand := some (w'.advance (.thread k) x.job s).2.1, lane }) }
            Aside w w'' ∧ w''.Fits q n := by
        intro w' s hpasses hneutral hs hfits hnone lane
        obtain ⟨hpasses', -⟩ := w'.fair_advance (.thread k) x.job hs
        obtain ⟨hneutral', hfits', hnone'⟩ := w'.neutral_advance k x.job hfits hnone
        have haside := hb.aside (hpasses.trans hpasses') (hneutral.trans hneutral')
        exact ⟨haside.trans (aside_of_eq rfl rfl),
          (hf.neutral (hneutral.trans hneutral')).setThread k hfits' hnone' lane⟩
      cases hs : x.strand with
      | some s =>
          obtain ⟨hfits, hnone⟩ := hf.holds.threads k x s hx hs
          exact hturn w s (.refl w) (.refl w) (hb.ordinary.threads k x s hx hs) hfits hnone _
      | none =>
          cases hjob : x.job with
          | some job =>
              rw [hjob] at hturn
              obtain ⟨hfits, hnone⟩ := fits_begin hf.holds (.thread k) job
              exact hturn _ _ (w.passes_begin (.thread k) job) (w.neutral_begin (.thread k) job)
                (hb.ordinary.begin (.thread k) job) hfits hnone _
          | none =>
              rw [hjob] at hturn
              exact hturn w _ (.refl w) (.refl w) orderly_silent fits_silent rfl _

/-! ## All schedules -/

/-- Whoever acts, there is one piece at most. -/
theorem Beside.course_act (hb : Beside w f) (hf : w.Fits q n) {a : Actor}
    (ha : ∀ c, a = .carrier c → c < w.lanes.size) :
    Course q n w (w.act a) ∧ (w.act a).Fits q n := by
  cases a with
  | thread k => exact (hb.course_actThread hf k).imp_left Aside.course
  | carrier c => exact hb.course_actCarrier hf (ha c rfl)
  | preciseTimer =>
      have hneutral : Neutral w (w.onEngine (·.pollTimers w.now Engine.preciseOwner)) :=
        neutral_of_nudges (Engine.nesting_pollTimers _ _ _) (Engine.nudges_pollTimers _ _ _)
      exact ⟨(hb.aside (passes_of_anytime (Floor.anytime_pollTimers w.now _)) hneutral).course,
        hf.neutral hneutral⟩

/-- An action at a given time, after which those become ready whose turn it is. -/
def actAt (w : World V) (now : Nanos) (a : Actor) : World V := ({ w with now }.act a).rouse

/-- What can be reached, whoever acts and whenever, and whatever is drawn by lot. Programs leave it
to the engine when a task is woken and when a timeout is armed for it, steps without a body satisfy
`q`, and critical sections are nested `n` deep at most. -/
inductive Reached (q : Step V → Prop) (n : Nat) : World V → Prop
  | create {config : Config} {processors : Nat} {groups : List ControlGroup} {pump : EventPump}
      {e : Engine (Option V)} {scripts : List (String × List (Step V))} {main : List (Step V)}
      (started : Engine.start config processors groups pump = .ok e)
      (opened : ∀ G ∈ groups, G.IsNew)
      (fit : ∀ x ∈ scripts, Step.AllOrdinary x.2 ∧ Step.AllFit q n x.2)
      (fitMain : Step.AllOrdinary main ∧ Step.AllFit q n main) (leave : Bool) :
      Reached q n (create e scripts main leave)
  | act {w : World V} (h : Reached q n w) (now : Nanos) (a : Actor)
      (there : ∀ c, a = .carrier c → c < w.lanes.size) : Reached q n (w.actAt now a)
  /-- Where an action leaves a choice to chance, what is drawn now decides. -/
  | redraw {w : World V} (h : Reached q n w) (draws : Draws) :
      Reached q n (w.onEngine (·.redraw draws))

theorem passes_redraw (w : World V) (draws : Draws) : Passes w (w.onEngine (·.redraw draws)) :=
  passes_of_frame (Engine.frame_redraw w.engine draws)

theorem neutral_redraw (w : World V) (draws : Draws) : Neutral w (w.onEngine (·.redraw draws)) :=
  neutral_of_still rfl (Engine.still_of_eq rfl rfl)

theorem Reached.beside (h : Reached q n w) : (∃ f, Beside w f) ∧ w.Fits q n := by
  induction h with
  | @create config processors groups pump e scripts main started opened fit fitMain leave =>
      refine ⟨⟨_, beside_create leave started (fun x hx => (fit x hx).1) fitMain.1⟩, ⟨?_, ?_, ?_⟩,
        ?_⟩
      · exact fun x hx => (fit x hx).2
      · intro j key l hj
        simp [World.create] at hj
      · intro k x s hx hs
        have hthread : x ∈ (World.create e scripts main leave).threads :=
          Array.mem_of_getElem? hx
        simp only [World.create, List.mem_toArray, List.mem_singleton] at hthread
        subst hthread
        cases hs
        refine ⟨⟨?_, trivial, Nat.zero_le n, trivial⟩, rfl⟩
        intro l hl
        cases hl
        exact fitMain.2
      · intro t s hs
        rw [strand?_create] at hs
        cases hs
  | @act w h now a there ih =>
      obtain ⟨⟨f, hb⟩, hf⟩ := ih
      have hnow : Passes w { w with now } := passes_of_eq rfl rfl rfl rfl rfl
      have hneutral : Neutral w { w with now } := neutral_of_eq rfl rfl rfl rfl rfl
      obtain ⟨f', hb'⟩ := (hb.passes hnow).act there
      exact ⟨⟨f', hb'.rouse⟩, ((hb.passes hnow).course_act (hf.neutral hneutral) there).2.rouse⟩
  | @redraw w h draws ih =>
      obtain ⟨⟨f, hb⟩, hf⟩ := ih
      exact ⟨⟨_, hb.passes (w.passes_redraw draws)⟩, hf.neutral (w.neutral_redraw draws)⟩

/-- Every action has its course. -/
theorem Reached.course (h : Reached q n w) (now : Nanos) {a : Actor}
    (there : ∀ c, a = .carrier c → c < w.lanes.size) : Course q n w (w.actAt now a) := by
  obtain ⟨⟨f, hb⟩, hf⟩ := h.beside
  have hnow : Passes w { w with now } := passes_of_eq rfl rfl rfl rfl rfl
  have hneutral : Neutral w { w with now } := neutral_of_eq rfl rfl rfl rfl rfl
  have hact := ((hb.passes hnow).course_act (hf.neutral hneutral) there).1
  have hafter : Aside ({ w with now }.act a) (w.actAt now a) := aside_of_eq rfl rfl
  exact (hact.after (hb.aside hnow hneutral)).before hafter

/-- What worlds begin with and what is kept aside and by every piece always holds. -/
theorem Reached.induct {I : World V → Prop} (h : Reached q n w)
    (begins : ∀ (config : Config) (processors : Nat) (groups : List ControlGroup) (pump : EventPump)
      (e : Engine (Option V)) scripts main leave,
      Engine.start config processors groups pump = .ok e → (∀ G ∈ groups, G.IsNew) →
        I (World.create e scripts main leave))
    (aside : ∀ w w', I w → Aside w w' → I w') (piece : ∀ w w', I w → Piece q n w w' → I w') : I w := by
  induction h with
  | create started opened _ _ leave => exact begins _ _ _ _ _ _ _ leave started opened
  | act h now a there ih =>
      obtain ⟨w₁, w₂, hbefore, hpiece, hafter⟩ := h.course now there
      refine aside _ _ ?_ hafter
      have hfirst := aside _ _ ih hbefore
      cases hpiece with
      | refl => exact hfirst
      | single hpiece => exact piece _ _ hfirst hpiece
  | @redraw w h draws ih =>
      obtain ⟨⟨f, hb⟩, -⟩ := h.beside
      exact aside _ _ ih (hb.aside (w.passes_redraw draws) (w.neutral_redraw draws))

/-- A run is one of the schedules. -/
theorem Reached.runFor (h : Reached q n w) (k : Nat) : Reached q n (w.runFor k) := by
  induction k generalizing w with
  | zero => exact h
  | succ k ih =>
      unfold World.runFor
      split
      · next w' hw =>
          obtain ⟨⟨a, at_⟩, ha, rfl⟩ := Option.map_eq_some_iff.mp hw
          refine ih (h.act _ a ?_)
          rintro c rfl
          exact lt_of_mem_agenda (mem_of_earliest ha)
      · exact h

end World

end GreenThreads

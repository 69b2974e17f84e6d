import GreenThreads.Proofs.Program.Schedule
import Mathlib.Algebra.GroupWithZero.Nat

/-!
# Critical sections

A carrier counts the critical sections that its task is in, and the frames of the task say which it
has yet to leave. The two agree, whoever acts: a task with open sections stays on the carrier on
which it entered them, and a carrier that is given away counts none. So every section that is left
was entered on the same carrier, which then counts what it counted before.
-/

namespace GreenThreads

namespace Engine

variable {V : Type} {e e' : Engine V} {c d : Nat} {x : Carrier} {g : Carrier → Carrier}

/-- How many critical sections the task on a carrier is in. -/
def depth (e : Engine V) (c : Nat) : Nat := (e.carriers[c]?).elim 0 fun x => x.critical.toNat

theorem depth_eq (h : e.carriers[c]? = some x) : e.depth c = x.critical.toNat := by
  rw [depth, h]
  rfl

theorem depth_congr (h : e'.nesting = e.nesting) (c : Nat) : e'.depth c = e.depth c := by
  have hget := congrArg (·[c]?) (congrArg Prod.fst h)
  simp only [nesting, Array.getElem?_map] at hget
  have hdepth := congrArg (Option.elim · 0 UInt64.toNat) hget
  simp only [Option.elim_map] at hdepth
  exact hdepth

theorem depth_updateCarrier (h : e.carriers[c]? = some x) :
    (e.updateCarrier c g).depth c = (g x).critical.toNat := by
  refine depth_eq ?_
  rw [getElem?_updateCarrier, if_pos rfl, h]
  rfl

theorem depth_updateCarrier_of_ne (h : d ≠ c) : (e.updateCarrier c g).depth d = e.depth d := by
  rw [depth, getElem?_updateCarrier, if_neg (Ne.symm h), depth]

theorem current?_updateCarrier (h : ∀ x, (g x).current = x.current) (d : Nat) :
    (e.updateCarrier c g).current? d = e.current? d := by
  rw [current?, getElem?_updateCarrier]
  split
  · next hd => cases hd; rw [current?, Option.bind_map]; exact congrArg _ (funext h)
  · rfl

theorem depth_eq_zero_of_inCritical (h : e.inCritical c = false) : e.depth c = 0 := by
  unfold depth inCritical at *
  cases hx : e.carriers[c]? with
  | none => rfl
  | some x =>
      rw [hx] at h
      have hzero : x.critical = 0 := by simpa [Carrier.inCritical] using h
      rw [Option.elim_some, hzero]
      rfl

theorem not_mem_faults_iff : e.nesting.2 = 0 ↔ Fault.unbalancedCritical ∉ e.faults :=
  List.count_eq_zero

end Engine

namespace World

variable {V : Type} {w w' : World V} {c n : Nat} {t : TaskId} {s : Strand V} {q : Step V → Prop}
  {r : Turn V} {x y : World V × List Bracket}

/-! ## The count of a carrier during a turn -/

/-- During a turn on carrier `c` that began in `w`, the carrier counts the open sections, and all of
them are its own. Other carriers count what they did. -/
structure Counted (w : World V) (c : Nat) (x : World V × List Bracket) : Prop where
  there : c < x.1.engine.nesting.1.size
  sections : Bracket.sections x.2 = List.replicate (x.1.engine.depth c) c
  others : ∀ d, d ≠ c → x.1.engine.depth d = w.engine.depth d
  clean : x.1.engine.nesting.2 = 0

theorem Counted.congr (h : Counted w c x) (hn : y.1.engine.nesting = x.1.engine.nesting)
    (hs : Bracket.sections y.2 = Bracket.sections x.2) : Counted w c y := by
  refine ⟨?_, ?_, fun d hd => ?_, ?_⟩
  · rw [hn]
    exact h.there
  · rw [hs, Engine.depth_congr hn]
    exact h.sections
  · rw [Engine.depth_congr hn]
    exact h.others d hd
  · rw [hn]
    exact h.clean

theorem Counted.exists_carrier (h : Counted w c x) : ∃ y, x.1.engine.carriers[c]? = some y :=
  ⟨_, Array.getElem?_eq_getElem (by simpa [Engine.nesting] using h.there)⟩

/-- A section is entered. There is room for it in the count. -/
theorem Counted.enter {w' : World V} {bs : List Bracket} (h : Counted w c (w', bs))
    (hlt : (Bracket.sections bs).length < n) (hn : n < 2 ^ 64) :
    Counted w c (w'.onEngine (·.updateCarrier c Carrier.enterCritical), .critical c :: bs) := by
  obtain ⟨k, hk⟩ := h.exists_carrier
  have hdepth : w'.engine.depth c = k.critical.toNat := Engine.depth_eq hk
  have hlength : (Bracket.sections bs).length = w'.engine.depth c := by
    rw [h.sections, List.length_replicate]
  have hroom : k.critical.toNat + 1 < 2 ^ 64 := by omega
  have hnext : (w'.engine.updateCarrier c Carrier.enterCritical).depth c =
      w'.engine.depth c + 1 := by
    rw [Engine.depth_updateCarrier hk, hdepth, Carrier.critical_enterCritical, UInt64.toNat_add]
    exact Nat.mod_eq_of_lt hroom
  refine ⟨?_, ?_, fun d hd => ?_, h.clean⟩
  · have hthere := h.there
    simpa [Engine.nesting, onEngine, Engine.updateCarrier] using hthere
  · have hcons : Bracket.sections (.critical c :: bs) = c :: Bracket.sections bs := rfl
    have hsections := h.sections
    dsimp only [onEngine] at hsections ⊢
    rw [hnext, hcons, hsections, List.replicate_succ]
  · exact (Engine.depth_updateCarrier_of_ne hd).trans (h.others d hd)

/-- The section that is left is one that the carrier counts. -/
theorem Counted.leave {w' : World V} {bs : List Bracket} {d : Nat}
    (h : Counted w c (w', .critical d :: bs)) : Counted w c (w'.leaveCritical d, bs) := by
  obtain ⟨k, hk⟩ := h.exists_carrier
  have hdepth : w'.engine.depth c = k.critical.toNat := Engine.depth_eq hk
  have hcons : Bracket.sections (.critical d :: bs) = d :: Bracket.sections bs := rfl
  have hsections := h.sections
  dsimp only at hsections hk
  rw [hcons, hdepth] at hsections
  obtain ⟨m, hm⟩ : ∃ m, k.critical.toNat = m + 1 := by
    cases hzero : k.critical.toNat with
    | zero =>
        rw [hzero] at hsections
        cases hsections
    | succ m => exact ⟨m, rfl⟩
  rw [hm, List.replicate_succ] at hsections
  obtain ⟨rfl, hrest⟩ := List.cons.inj hsections
  have hpos : k.critical ≠ 0 := by
    intro hzero
    rw [hzero] at hm
    cases hm
  have hexit : w'.leaveCritical d =
      w'.onEngine (·.updateCarrier d fun _ => k.exitCritical.1) := by
    unfold leaveCritical
    rw [hk]
    dsimp only [Carrier.exitCritical]
    rw [if_neg hpos]
    rfl
  have hnext : (w'.engine.updateCarrier d fun _ => k.exitCritical.1).depth d = m := by
    have hone : (1 : UInt64) ≤ k.critical := by
      rw [UInt64.le_iff_toNat_le, hm]
      exact Nat.le_add_left 1 m
    rw [Engine.depth_updateCarrier hk]
    dsimp only [Carrier.exitCritical]
    rw [UInt64.toNat_sub_of_le _ _ hone, hm]
    rfl
  rw [hexit]
  refine ⟨?_, ?_, fun d' hd => ?_, h.clean⟩
  · have hthere := h.there
    simpa [Engine.nesting, onEngine, Engine.updateCarrier] using hthere
  · dsimp only [onEngine]
    rw [hnext]
    exact hrest
  · exact (Engine.depth_updateCarrier_of_ne hd).trans (h.others d' hd)

theorem Counted.deed (h : Counted w c x) (hn : n < 2 ^ 64) (hd : Deed q n (.task t c) x y) :
    Counted w c y := by
  cases hd with
  | neutral hw => exact h.congr hw.nesting rfl
  | enter room => exact h.enter room hn
  | leave => exact h.leave
  | @join _ _ w' bs g e ok =>
      refine h.congr ?_ rfl
      have hattach := w'.engine.nesting_attach w'.now t g
      rwa [ok] at hattach
  | @part _ _ w' bs g => exact h.congr (w'.engine.nesting_detach w'.now t g) rfl
  | @attach _ _ w' bs g _ => exact h.congr (w'.engine.nesting_attach w'.now t g) rfl
  | @detach _ _ w' bs g _ => exact h.congr (w'.engine.nesting_detach w'.now t g) rfl

theorem Counted.deeds (h : Counted w c x) (hn : n < 2 ^ 64) (hd : Deeds q n (.task t c) x y) :
    Counted w c y := by
  induction hd with
  | refl => exact h
  | tail _ hlast ih => exact ih.deed hn hlast

/-! ## Counts and open sections -/

/-- The carriers of the sections that a task has yet to leave. -/
def sections (w : World V) (t : TaskId) : List Nat :=
  (w.strand? t).elim [] fun s => Bracket.sections s.brackets

/-- A carrier counts the open sections of its task, and a task that is on no carrier has none. -/
structure Balanced (w : World V) : Prop where
  current : ∀ c t, w.engine.current? c = some t →
    w.sections t = List.replicate (w.engine.depth c) c
  idle : ∀ c, w.engine.current? c = none → w.engine.depth c = 0
  away : ∀ t, (∀ c, w.engine.current? c ≠ some t) → w.sections t = []
  clean : w.engine.nesting.2 = 0

theorem sections_of_strand? (hs : w.strand? t = some s) :
    w.sections t = Bracket.sections s.brackets := by
  rw [sections, hs, Option.elim_some]

theorem sections_congr (hs : w'.strands = w.strands) (t : TaskId) :
    w'.sections t = w.sections t := by
  rw [sections, strand?_congr hs, sections]

theorem keep_of_ne_over {pace : Pace} (h : pace ≠ .over) : pace.keep s = some s :=
  match pace, h with
  | .busy _, _ | .wait _ _, _ | .away, _ => rfl
  | .over, h => absurd rfl h

namespace Balanced

theorem aside (h : Balanced w) (ha : Aside w w') : Balanced w' := by
  refine ⟨fun c t hc => ?_, fun c hc => ?_, fun t ht => ?_, ha.nesting ▸ h.clean⟩
  · rw [ha.seats] at hc
    rw [sections_congr ha.strands, Engine.depth_congr ha.nesting]
    exact h.current c t hc
  · rw [ha.seats] at hc
    rw [Engine.depth_congr ha.nesting]
    exact h.idle c hc
  · rw [sections_congr ha.strands]
    refine h.away t fun c hc => ht c ?_
    rw [ha.seats]
    exact hc

theorem runs (h : Balanced w) (hr : w.Runs c t s) :
    Bracket.sections s.brackets = List.replicate (w.engine.depth c) c := by
  have hcurrent := h.current c t hr.current
  rcases hr.strand with hs | ⟨hs, hnone⟩
  · rwa [sections_of_strand? hs] at hcurrent
  · rw [sections, hs] at hcurrent
    rw [hnone]
    exact hcurrent

/-- Only the task on carrier `c` has done something. -/
theorem change (h : Balanced w) (hr : w.Runs c t s)
    (seats : ∀ d, d ≠ c → w'.engine.current? d = w.engine.current? d)
    (depths : ∀ d, d ≠ c → w'.engine.depth d = w.engine.depth d)
    (others : ∀ u, u ≠ t → w'.sections u = w.sections u) (clean : w'.engine.nesting.2 = 0)
    (self : w'.engine.current? c = some t ∧
        w'.sections t = List.replicate (w'.engine.depth c) c ∨
      w'.engine.current? c = none ∧ w'.sections t = [] ∧ w'.engine.depth c = 0) : Balanced w' := by
  refine ⟨fun d u hd => ?_, fun d hd => ?_, fun u hu => ?_, clean⟩
  · by_cases hdc : d = c
    · subst hdc
      rcases self with ⟨hself, hsections⟩ | ⟨hself, -, -⟩
      · rw [hself] at hd
        cases hd
        exact hsections
      · rw [hself] at hd
        cases hd
    · rw [seats d hdc] at hd
      have hut : u ≠ t := by
        rintro rfl
        exact hdc (hr.alone d hd)
      rw [others u hut, depths d hdc]
      exact h.current d u hd
  · by_cases hdc : d = c
    · subst hdc
      rcases self with ⟨hself, -⟩ | ⟨-, -, hdepth⟩
      · rw [hself] at hd
        cases hd
      · exact hdepth
    · rw [seats d hdc] at hd
      rw [depths d hdc]
      exact h.idle d hd
  · by_cases hut : u = t
    · subst hut
      rcases self with ⟨hself, -⟩ | ⟨-, hsections, -⟩
      · exact absurd hself (hu c)
      · exact hsections
    · rw [others u hut]
      refine h.away u fun d hd => ?_
      by_cases hdc : d = c
      · subst hdc
        rw [hr.current] at hd
        cases hd
        exact hut rfl
      · exact hu d ((seats d hdc).trans hd)

theorem turn (h : Balanced w) (hn : n < 2 ^ 64) (hr : w.Runs c t s)
    (ht : Turned q n (.task t c) w s r)
    (seat : r.1.engine.current? c = some t ∨ r.2.2 = .away ∧ r.1.engine.current? c = none)
    (seats : ∀ d, d ≠ c → r.1.engine.current? d = w.engine.current? d) :
    Balanced (afterTurn c t r) := by
  have hthere : c < w.engine.nesting.1.size := by
    obtain ⟨x, hx, -⟩ := Option.bind_eq_some_iff.mp hr.current
    simpa [Engine.nesting] using (Array.getElem?_eq_some_iff.mp hx).1
  have hbefore : Counted w c (w, s.brackets) := ⟨hthere, h.runs hr, fun _ _ => rfl, h.clean⟩
  have hafter := hbefore.deeds hn ht.deeds
  have hstrand := strand?_afterTurn (c := c) (t := t) ht.deeds.strands
  have hself : (afterTurn c t r).sections t = List.replicate (r.1.engine.depth c) c := by
    have hkept := hstrand t
    rw [if_pos rfl, keep_of_ne_over ht.goes] at hkept
    rw [sections_of_strand? hkept]
    exact hafter.sections
  refine h.change hr seats hafter.others (fun u hu => ?_) hafter.clean ?_
  · rw [sections, hstrand, if_neg hu, sections]
  · rcases seat with hseat | ⟨hpace, hseat⟩
    · exact .inl ⟨hseat, hself⟩
    · have hzero := Engine.depth_eq_zero_of_inCritical (ht.away hpace t c rfl).2
      rw [hzero] at hself
      exact .inr ⟨hseat, hself, hzero⟩

theorem depth_of_left (h : Balanced w) (hr : w.Runs c t s) (hleft : s.frames = []) :
    w.engine.depth c = 0 := by
  have hsections := h.runs hr
  have hnone : s.brackets = [] := by
    rw [Strand.brackets, hleft]
    rfl
  rw [hnone] at hsections
  exact (List.replicate_eq_nil_iff c).mp hsections.symm

theorem finish {w' : World V} {e : Engine (Option V)} (h : Balanced w) (hr : w.Runs c t s)
    (hleft : s.frames = []) (hnesting : e.nesting = w.engine.nesting)
    (hstrands : w'.strands = w.strands) (seat : e.current? c = none)
    (seats : ∀ d, d ≠ c → e.current? d = w.engine.current? d) :
    Balanced (afterTurn c t ({ w' with engine := e }, s, .over)) := by
  have hstrand := strand?_afterOver (c := c) (t := t) e s hstrands
  refine h.change hr seats (fun d _ => Engine.depth_congr hnesting d) (fun u hu => ?_)
    (hnesting ▸ h.clean) (.inr ⟨seat, ?_, ?_⟩)
  · rw [sections, hstrand, if_neg hu, sections]
  · rw [sections, hstrand, if_pos rfl, Option.elim_none]
  · exact (Engine.depth_congr hnesting c).trans (h.depth_of_left hr hleft)

/-- A task that was on no carrier comes to one that counts no sections. -/
theorem take {e : Engine (Option V)} (h : Balanced w) (idle : w.engine.current? c = none)
    (hnesting : e.nesting = w.engine.nesting)
    (others : ∀ d, d ≠ c → e.current? d = w.engine.current? d)
    (alone : ∀ t, e.current? c = some t → ∀ d, w.engine.current? d ≠ some t) :
    Balanced { w with engine := e } := by
  have hzero := h.idle c idle
  refine ⟨fun d t hd => ?_, fun d hd => ?_, fun t ht => ?_, hnesting ▸ h.clean⟩
  · rw [Engine.depth_congr hnesting]
    by_cases hdc : d = c
    · subst hdc
      rw [hzero]
      exact h.away t (alone t hd)
    · exact h.current d t ((others d hdc).symm.trans hd)
  · rw [Engine.depth_congr hnesting]
    by_cases hdc : d = c
    · rw [hdc]
      exact hzero
    · exact h.idle d ((others d hdc).symm.trans hd)
  · refine h.away t fun d hd => ?_
    by_cases hdc : d = c
    · rw [hdc, idle] at hd
      cases hd
    · exact ht d ((others d hdc).trans hd)

theorem piece (h : Balanced w) (hn : n < 2 ^ 64) (hp : Piece q n w w') : Balanced w' := by
  cases hp with
  | turn runs turned seat others => exact h.turn hn runs turned seat others
  | @finish w' c t s e runs left neutral exits seat others =>
      have hexit := (Engine.nesting_exit w'.engine w'.now c t).trans neutral.nesting
      exact h.finish runs left (exits ▸ hexit) neutral.strands seat others
  | @take c x e e' idle there next works ready others alone =>
      have hdispatch := (Engine.nesting_dispatch e w.now c x).trans (Engine.nesting_next? next)
      exact h.take idle (works ▸ hdispatch) others alone

theorem create {config : Config} {processors : Nat} {groups : List ControlGroup} {pump : EventPump}
    {e : Engine (Option V)} (he : Engine.start config processors groups pump = .ok e)
    (scripts : List (String × List (Step V))) (main : List (Step V)) (leave : Bool) :
    Balanced (World.create e scripts main leave) := by
  have hfresh : ∀ x ∈ e.carriers, x.current = none ∧ x.critical = 0 := by
    intro x hx
    rw [Engine.start_eq he] at hx
    obtain ⟨i, hi, rfl⟩ := Array.mem_ofFn.mp hx
    exact ⟨rfl, rfl⟩
  have hidle : ∀ c, e.current? c = none ∧ e.depth c = 0 := by
    intro c
    unfold Engine.current? Engine.depth
    cases hx : e.carriers[c]? with
    | none => exact ⟨rfl, rfl⟩
    | some x =>
        obtain ⟨hcurrent, hcritical⟩ := hfresh x (Array.mem_of_getElem? hx)
        rw [Option.bind_some, Option.elim_some, hcurrent, hcritical]
        exact ⟨rfl, rfl⟩
  have hnone : ∀ t, (World.create e scripts main leave).sections t = [] := by
    intro t
    rw [World.sections, strand?_create, Option.elim_none]
  refine ⟨fun c t hc => ?_, fun c _ => (hidle c).2, fun t _ => hnone t, ?_⟩
  · have hcreated : e.current? c = some t := hc
    rw [(hidle c).1] at hcreated
    cases hcreated
  · have hfaults : e.faults = [] := by rw [Engine.start_eq he]
    exact Engine.not_mem_faults_iff.mpr (by
      have hcreated : (World.create e scripts main leave).engine.faults = [] := hfaults
      rw [hcreated]
      exact List.not_mem_nil)

end Balanced

theorem Reached.balanced (h : Reached q n w) (hn : n < 2 ^ 64) : Balanced w :=
  h.induct (fun _ _ _ _ _ scripts main leave started _ => .create started scripts main leave)
    (fun _ _ hb ha => hb.aside ha) fun _ _ hb hp => hb.piece hn hp

/-! ## Giving a carrier away -/

/-- A task that loses its carrier was in no section, and the carrier counts none afterwards. -/
theorem Piece.depth_of_away (hp : Piece q n w w') (hb : Balanced w) (hb' : Balanced w')
    (hc : w.engine.current? c = some t) (hc' : w'.engine.current? c ≠ some t) :
    w.engine.depth c = 0 ∧ w'.engine.depth c = 0 := by
  cases hp with
  | @turn c' t' s r runs turned seat others =>
      by_cases hcc : c = c'
      · subst hcc
        have ht := runs.current
        rw [hc] at ht
        cases ht
        rcases seat with hseat | ⟨hpace, hseat⟩
        · exact absurd hseat hc'
        · exact ⟨Engine.depth_eq_zero_of_inCritical (turned.away hpace t c rfl).1,
            hb'.idle c hseat⟩
      · exact absurd ((others c hcc).trans hc) hc'
  | @finish w₁ c' t' s e runs left neutral exits seat others =>
      by_cases hcc : c = c'
      · subst hcc
        exact ⟨hb.depth_of_left runs left, hb'.idle c seat⟩
      · exact absurd ((others c hcc).trans hc) hc'
  | @take c' x e e' idle there next works ready others alone =>
      by_cases hcc : c = c'
      · rw [hcc, idle] at hc
        cases hc
      · exact absurd ((others c hcc).trans hc) hc'

theorem Course.depth_of_away (hcourse : Course q n w w') (hn : n < 2 ^ 64) (hb : Balanced w)
    (hc : w.engine.current? c = some t) (hc' : w'.engine.current? c ≠ some t) :
    w.engine.depth c = 0 ∧ w'.engine.depth c = 0 := by
  obtain ⟨w₁, w₂, hbefore, hpiece, hafter⟩ := hcourse
  have hb₁ := hb.aside hbefore
  rw [← hbefore.seats] at hc
  rw [hafter.seats] at hc'
  rw [← Engine.depth_congr hbefore.nesting, Engine.depth_congr hafter.nesting]
  cases hpiece with
  | refl => exact absurd hc hc'
  | single hp => exact hp.depth_of_away hb₁ (hb₁.piece hn hp) hc hc'

/-! ## Entering and leaving -/

/-- The strand that a task goes on with on a carrier: the one that it has, or the one that its work
begins with. -/
def strandOf (w : World V) (c : Nat) (t : TaskId) : Strand V :=
  match w.strand? t, (w.engine.task? t).bind (·.job) with
  | some s, _ => s
  | none, some job => (w.begin (.task t c) job).2
  | none, none => { voice := .silent, control := .back }

theorem begin_keeps (w : World V) (h : Host) (job : JobId) :
    (w.begin h job).1.engine = w.engine ∧ (w.begin h job).1.strands = w.strands := by
  unfold World.begin
  split
  · exact ⟨rfl, rfl⟩
  · exact ⟨rfl, rfl⟩
  · exact ⟨rfl, rfl⟩

theorem brackets_begin (w : World V) (h : Host) (job : JobId) : (w.begin h job).2.brackets = [] := by
  unfold World.begin
  split
  · rfl
  · rfl
  · rfl

theorem begin_now (w : World V) (now : Nanos) (h : Host) (job : JobId) :
    (World.begin { w with now } h job).2 = (w.begin h job).2 := by
  unfold World.begin
  dsimp only
  split
  · rfl
  · rfl
  · rfl

/-- The task on a carrier goes on with its strand. -/
theorem actAt_carrier (hc : w.engine.current? c = some t) (now : Nanos) :
    ∃ (w' : World V) (job : Option JobId), w'.engine = w.engine ∧ w'.strands = w.strands ∧
      w.actAt now (.carrier c) =
        (afterTurn c t (w'.advance (.task t c) job (w.strandOf c t))).rouse := by
  have hact : w.actAt now (.carrier c) = (World.actTask { w with now } c t).rouse := by
    unfold actAt act actCarrier
    dsimp only
    rw [hc]
  rw [hact]
  unfold strandOf
  cases hs : w.strand? t with
  | some s =>
      have hs' : World.strand? { w with now } t = some s := hs
      exact ⟨{ w with now }, _, rfl, rfl, by rw [actTask_strand hs']⟩
  | none =>
      have hs' : World.strand? { w with now } t = none := hs
      cases hjob : (w.engine.task? t).bind (·.job) with
      | some job =>
          obtain ⟨hengine, hstrands⟩ := begin_keeps { w with now } (.task t c) job
          refine ⟨_, some job, hengine, hstrands, ?_⟩
          rw [actTask_begin hs' hjob, begin_now]
      | none => exact ⟨{ w with now }, none, rfl, rfl, by rw [actTask_silent hs' hjob]⟩

/-- What an action of the task on a carrier leaves is what its turn leaves. -/
theorem actAt_turn (hc : w.engine.current? c = some t) (now : Nanos) :
    ∃ (w' : World V) (job : Option JobId), w'.engine = w.engine ∧ w'.strands = w.strands ∧
      ∀ r, w'.advance (.task t c) job (w.strandOf c t) = r → r.1.strands = w'.strands →
        r.2.2 ≠ .over → (w.actAt now (.carrier c)).engine = r.1.engine ∧
          (w.actAt now (.carrier c)).strand? t = some r.2.1 := by
  obtain ⟨w', job, hengine, hstrands, hact⟩ := actAt_carrier hc now
  refine ⟨w', job, hengine, hstrands, fun r hr hkept hgoes => ?_⟩
  rw [hact, hr]
  refine ⟨rfl, ?_⟩
  have hself := strand?_afterTurn (c := c) (t := t) hkept t
  rw [if_pos rfl, keep_of_ne_over hgoes] at hself
  exact hself

theorem Balanced.strandOf (h : Balanced w) (hc : w.engine.current? c = some t) :
    Bracket.sections (w.strandOf c t).brackets = List.replicate (w.engine.depth c) c := by
  have hcurrent := h.current c t hc
  unfold World.strandOf
  cases hs : w.strand? t with
  | some s => rwa [sections_of_strand? hs] at hcurrent
  | none =>
      rw [sections, hs] at hcurrent
      rw [← hcurrent]
      cases (w.engine.task? t).bind (·.job) with
      | some job => exact congrArg Bracket.sections (w.brackets_begin _ job)
      | none => rfl

theorem Balanced.depth_eq (h : Balanced w) (hc : w.engine.current? c = some t) :
    w.engine.depth c = Frame.depth (w.strandOf c t).frames := by
  rw [← Strand.length_sections, h.strandOf hc, List.length_replicate]

theorem advance_critical (w : World V) (job : Option JobId) {body rest : List (Step V)}
    (hs : s.control = .steps (.critical body :: rest)) :
    w.advance (.task t c) job s =
      (w.onEngine (·.updateCarrier c Carrier.enterCritical),
        { s with control := .steps body, frames := .critical c :: .rest rest :: s.frames },
        .busy tick) := by
  obtain ⟨voice, control, frames⟩ := s
  cases hs
  rfl

theorem advance_leave (w : World V) (h : Host) (job : Option JobId) {d : Nat}
    {frames : List (Frame V)} (hs : s.frames = .critical d :: frames)
    (hc : ∀ l, s.control ≠ .steps l) :
    w.advance h job s = (w.leaveCritical d, { s with frames }, .busy tick) := by
  obtain ⟨voice, control, frames'⟩ := s
  cases hs
  cases control with
  | steps l => exact absurd rfl (hc l)
  | _ => rfl

theorem current?_leaveCritical (w : World V) (c d : Nat) :
    (w.leaveCritical d).engine.current? c = w.engine.current? c := by
  unfold leaveCritical
  split
  · rfl
  · next x hx =>
      have hexit : w.engine.updateCarrier d (fun _ => x.exitCritical.1) =
          w.engine.updateCarrier d (·.exitCritical.1) := Engine.updateCarrier_congr hx rfl
      have hblame : ∀ (e : Engine (Option V)) o, (e.blameIf o).current? c = e.current? c := by
        intro e o
        cases o with
        | none => rfl
        | some y => rfl
      dsimp only [onEngine]
      have hcurrent : ∀ x : Carrier, x.exitCritical.1.current = x.current := fun _ => rfl
      rw [hblame, hexit, Engine.current?_updateCarrier hcurrent]

/-- The task on a carrier takes a turn that leaves it there. -/
theorem actAt_of_advance {s' : Strand V} (hc : w.engine.current? c = some t)
    (hturn : ∀ (w' : World V) job, w'.engine = w.engine → w'.strands = w.strands →
      ∃ w₁, w'.advance (.task t c) job (w.strandOf c t) = (w₁, s', .busy tick) ∧
        w₁.strands = w.strands ∧ w₁.engine.current? c = some t) (now : Nanos) :
    (w.actAt now (.carrier c)).engine.current? c = some t ∧
      (w.actAt now (.carrier c)).strandOf c t = s' := by
  obtain ⟨w', job, hengine, hstrands, hafter⟩ := actAt_turn hc now
  obtain ⟨w₁, hadvance, hstrands₁, hcurrent⟩ := hturn w' job hengine hstrands
  obtain ⟨hacted, hstrand⟩ := hafter _ hadvance (hstrands₁.trans hstrands.symm) nofun
  refine ⟨?_, ?_⟩
  · rw [hacted]
    exact hcurrent
  · rw [World.strandOf, hstrand]

theorem actAt_enter (hc : w.engine.current? c = some t) {body rest : List (Step V)}
    (hs : (w.strandOf c t).control = .steps (.critical body :: rest)) (now : Nanos) :
    (w.actAt now (.carrier c)).engine.current? c = some t ∧
      (w.actAt now (.carrier c)).strandOf c t = { w.strandOf c t with
        control := .steps body, frames := .critical c :: .rest rest :: (w.strandOf c t).frames } := by
  refine actAt_of_advance hc (fun w' job hengine hstrands => ?_) now
  refine ⟨_, w'.advance_critical job hs, hstrands, ?_⟩
  have hcurrent : ∀ x : Carrier, x.enterCritical.current = x.current := fun _ => rfl
  dsimp only [onEngine]
  rw [Engine.current?_updateCarrier hcurrent, hengine]
  exact hc

theorem actAt_leave (hc : w.engine.current? c = some t) {d : Nat} {frames : List (Frame V)}
    (hs : (w.strandOf c t).frames = .critical d :: frames)
    (hcontrol : ∀ l, (w.strandOf c t).control ≠ .steps l) (now : Nanos) :
    (w.actAt now (.carrier c)).engine.current? c = some t ∧
      (w.actAt now (.carrier c)).strandOf c t = { w.strandOf c t with frames } := by
  refine actAt_of_advance hc (fun w' job hengine hstrands => ?_) now
  refine ⟨_, w'.advance_leave _ job hs hcontrol, ?_, ?_⟩
  · obtain ⟨e, heq⟩ := w'.leaveCritical_eq d
    rw [heq]
    exact hstrands
  · rw [current?_leaveCritical, hengine]
    exact hc

theorem Reached.there (h : Reached q n w) (hc : w.engine.current? c = some t) :
    c < w.lanes.size := by
  obtain ⟨⟨f, hb⟩, -⟩ := h.beside
  obtain ⟨x, hx, -⟩ := Option.bind_eq_some_iff.mp hc
  rw [hb.lanes, hb.reached.sound.size, hb.engine]
  exact (Array.getElem?_eq_some_iff.mp hx).1

theorem Reached.act_current (h : Reached q n w) (hc : w.engine.current? c = some t) (now : Nanos) :
    Reached q n (w.actAt now (.carrier c)) := by
  refine h.act now (.carrier c) ?_
  rintro d ⟨⟩
  exact h.there hc

/-- Whatever programs do whose critical sections are nested in bounds, and whoever acts: no section
is left that was not entered; a carrier that runs no task counts none; and a task that is in
sections is on the carrier on which it entered them, which counts them all. A task gives its carrier
away only while the carrier counts none. Whoever enters a section stays on the carrier, and where
that section is left, be it that its body has ended, has a value or is unwound, the task is on the
same carrier, which counts what it counted before. -/
theorem Reached.sections_kept (h : Reached q n w) (hn : n < 2 ^ 64) :
    Fault.unbalancedCritical ∉ w.engine.faults ∧
    (∀ c, w.engine.current? c = none → w.engine.depth c = 0) ∧
    (∀ t, w.sections t ≠ [] → ∃ c, w.engine.current? c = some t) ∧
    ∀ c t, w.engine.current? c = some t →
      w.sections t = List.replicate (w.engine.depth c) c ∧
      (∀ now a, (∀ d, a = .carrier d → d < w.lanes.size) →
        (w.actAt now a).engine.current? c ≠ some t →
          w.engine.depth c = 0 ∧ (w.actAt now a).engine.depth c = 0) ∧
      ∀ now body rest, (w.strandOf c t).control = .steps (.critical body :: rest) →
        let entered := w.actAt now (.carrier c)
        let below := Frame.rest rest :: (w.strandOf c t).frames
        (entered.engine.current? c = some t ∧ entered.engine.depth c = w.engine.depth c + 1 ∧
          entered.strandOf c t =
            { w.strandOf c t with control := .steps body, frames := .critical c :: below }) ∧
        ∀ w₁ c₁ now₁, Reached q n w₁ → w₁.engine.current? c₁ = some t →
          (w₁.strandOf c₁ t).frames = .critical c :: below →
          (∀ l, (w₁.strandOf c₁ t).control ≠ .steps l) →
            let left := w₁.actAt now₁ (.carrier c₁)
            c₁ = c ∧ left.engine.current? c = some t ∧
              left.strandOf c t = { w₁.strandOf c₁ t with frames := below } ∧
              left.engine.depth c = w.engine.depth c := by
  have hb := h.balanced hn
  refine ⟨Engine.not_mem_faults_iff.mp hb.clean, hb.idle, fun t ht => ?_, fun c t hc =>
    ⟨hb.current c t hc, fun now a there hne => (h.course now there).depth_of_away hn hb hc hne,
      fun now body rest hs => ⟨?_, ?_⟩⟩⟩
  · by_contra hnone
    exact ht (hb.away t fun c hc => hnone ⟨c, hc⟩)
  · obtain ⟨hcurrent, hstrand⟩ := actAt_enter hc hs now
    have hdepth := ((h.act_current hc now).balanced hn).depth_eq hcurrent
    refine ⟨hcurrent, ?_, hstrand⟩
    rw [hdepth, hstrand, hb.depth_eq hc]
    rfl
  · intro w₁ c₁ now₁ h₁ hc₁ hframes hcontrol
    have hb₁ := h₁.balanced hn
    -- the innermost open section is one of the carrier on which the task is
    have hsame : c = c₁ := by
      have hsections := hb₁.strandOf hc₁
      have hmem : c ∈ Bracket.sections (w₁.strandOf c₁ t).brackets := by
        rw [Strand.brackets, hframes]
        exact List.mem_cons_self
      rw [hsections] at hmem
      exact List.eq_of_mem_replicate hmem
    subst hsame
    obtain ⟨hcurrent, hstrand⟩ := actAt_leave hc₁ hframes hcontrol now₁
    have hdepth := ((h₁.act_current hc₁ now₁).balanced hn).depth_eq hcurrent
    refine ⟨rfl, hcurrent, hstrand, ?_⟩
    rw [hdepth, hstrand, hb.depth_eq hc]
    rfl

/-- A task in a section yields, which changes nothing there, and fails in a section within: both are
left on the carrier. -/
theorem sections_kept_nested : ∃ w w₁ : World Unit,
    Reached (fun _ => True) 2 w ∧ Reached (fun _ => True) 2 w₁ ∧
      w.engine.current? 0 = some ⟨0⟩ ∧ w.engine.depth 0 = 1 ∧
      (w.actAt 0 (.carrier 0)).engine.depth 0 = 2 ∧
      w₁.engine.current? 0 = some ⟨0⟩ ∧ w₁.engine.depth 0 = 2 ∧
      (w₁.strandOf 0 ⟨0⟩).control = .unwind (.failed "lost") ∧
      (w₁.actAt 0 (.carrier 0)).engine.depth 0 = 1 := by
  have hstart : Engine.start (V := Option Unit) { workers := 1 } 1 [] .absent = .ok _ := rfl
  have hscripts : ∀ x ∈ [("nested", ([.critical [.critical [.yieldNow, .fail (.failed "lost")]]] :
      List (Step Unit)))], Step.AllOrdinary x.2 ∧ Step.AllFit (fun _ => True) 2 x.2 := by
    simp [Step.AllOrdinary, Step.Ordinary, Step.AllFit, Step.Fits]
  have hmain : Step.AllOrdinary ([.submit "a" "nested" "a"] : List (Step Unit)) ∧
      Step.AllFit (fun _ => True) 2 ([.submit "a" "nested" "a"] : List (Step Unit)) := by
    simp [Step.AllOrdinary, Step.Ordinary, Step.AllFit, Step.Fits]
  have h0 := Reached.create hstart nofun hscripts hmain true
  have h1 := h0.act 0 (.thread 0) (by rintro c ⟨⟩)
  have h2 := h1.act 0 (.carrier 0) (by rintro c ⟨⟩; decide +kernel)
  have h3 := h2.act_current (c := 0) (t := ⟨0⟩) (by decide +kernel) 0
  have h4 := h3.act_current (c := 0) (t := ⟨0⟩) (by decide +kernel) 0
  have h5 := h4.act_current (c := 0) (t := ⟨0⟩) (by decide +kernel) 0
  have h6 := h5.act_current (c := 0) (t := ⟨0⟩) (by decide +kernel) 0
  have h7 := h6.act_current (c := 0) (t := ⟨0⟩) (by decide +kernel) 0
  have h8 := h7.act_current (c := 0) (t := ⟨0⟩) (by decide +kernel) 0
  obtain ⟨-, -, -, hcurrent⟩ := h3.sections_kept (by decide)
  obtain ⟨-, -, hentered⟩ := hcurrent 0 ⟨0⟩ (by decide +kernel)
  obtain ⟨⟨-, hdepth, -⟩, hleft⟩ := hentered 0 _ _ (by with_unfolding_all rfl)
  obtain ⟨-, -, -, hback⟩ := hleft _ 0 0 h8 (by decide +kernel) (by with_unfolding_all rfl)
    fun l hl => by
      with_unfolding_all change Control.unwind _ = _ at hl
      cases hl
  exact ⟨_, _, h3, h8, by decide +kernel, by decide +kernel, hdepth.trans (by decide +kernel),
    by decide +kernel, by decide +kernel, by with_unfolding_all rfl,
    hback.trans (by decide +kernel)⟩

end World

end GreenThreads

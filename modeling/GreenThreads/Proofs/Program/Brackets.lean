import GreenThreads.Proofs.Engine.Nesting
import GreenThreads.Proofs.Program.Run
import GreenThreads.Proofs.Workshop.Destroy

/-!
# Brackets

A critical section and a run in a control group are brackets: what is opened when the body begins is
closed when the body ends, however that comes about. The frames of a strand say which brackets are
open. Here a turn of a strand is taken apart into deeds: it opens a bracket, it closes the innermost
one, it joins or leaves a group without a bracket, or it does something that concerns neither
critical sections nor memberships.
-/

namespace GreenThreads

/-- Something that a strand has opened and has yet to close. -/
inductive Bracket where
  /-- A critical section of a carrier. -/
  | critical (carrier : Nat)
  /-- A run in a control group. -/
  | inGroup (group : GroupId)
deriving DecidableEq, Repr

/-- The carrier of a critical section. -/
def Bracket.carrier? : Bracket → Option Nat
  | critical c => some c
  | inGroup _ => none

/-- The group of a run. -/
def Bracket.group? : Bracket → Option GroupId
  | critical _ => none
  | inGroup g => some g

/-- The carriers of the critical sections among brackets, in their order. -/
def Bracket.sections (bs : List Bracket) : List Nat := bs.filterMap Bracket.carrier?

/-- The groups of the runs among brackets, in their order. -/
def Bracket.runs (bs : List Bracket) : List GroupId := bs.filterMap Bracket.group?

/-- The bracket that is closed where a frame is left. -/
def Frame.bracket? {V : Type} : Frame V → Option Bracket
  | .critical c => some (.critical c)
  | .inGroup g => some (.inGroup g)
  | _ => none

/-- The brackets that a strand has yet to close, the innermost first. -/
def Strand.brackets {V : Type} (s : Strand V) : List Bracket := s.frames.filterMap Frame.bracket?

/-! ## Programs within bounds -/

mutual

/-- Every step without a body satisfies `q`, and critical sections are nested `n` deep at most. -/
def Step.Fits {V : Type} (q : Step V → Prop) : Nat → Step V → Prop
  | n, .again _ body => AllFit q n body
  | n, .attempt body => AllFit q n body
  | n, .groupRun _ body => AllFit q n body
  | n, .critical body => 0 < n ∧ AllFit q (n - 1) body
  | _, x => q x

/-- All steps of a list fit. -/
def Step.AllFit {V : Type} (q : Step V → Prop) : Nat → List (Step V) → Prop
  | _, [] => True
  | n, x :: l => x.Fits q n ∧ AllFit q n l

end

section

variable {V : Type} {q : Step V → Prop}

mutual

/-- What fits where less sections may be open fits where more may be. -/
theorem Step.Fits.mono {m n : Nat} (hle : m ≤ n) {x : Step V} (hx : x.Fits q m) :
    x.Fits q n := by
  cases x with
  | again k body => exact Step.AllFit.mono hle hx
  | attempt body => exact Step.AllFit.mono hle hx
  | groupRun g body => exact Step.AllFit.mono hle hx
  | critical body =>
      exact ⟨Nat.lt_of_lt_of_le hx.1 hle, Step.AllFit.mono (Nat.sub_le_sub_right hle 1) hx.2⟩
  | _ => exact hx

theorem Step.AllFit.mono {m n : Nat} (hle : m ≤ n) {l : List (Step V)}
    (hl : Step.AllFit q m l) : Step.AllFit q n l := by
  cases l with
  | nil => trivial
  | cons x l => exact ⟨Step.Fits.mono hle hl.1, Step.AllFit.mono hle hl.2⟩

end

end

/-- The steps that a frame goes on with fit. -/
def Frame.Fits {V : Type} (q : Step V → Prop) (n : Nat) : Frame V → Prop
  | .rest steps => Step.AllFit q n steps
  | .again _ body => Step.AllFit q n body
  | _ => True

/-- How many critical sections are left where frames are left. -/
def Frame.depth {V : Type} : List (Frame V) → Nat
  | [] => 0
  | .critical _ :: frames => depth frames + 1
  | _ :: frames => depth frames

/-- Each frame fits with those below it: `n` critical sections are open at most. -/
def Frame.AllFit {V : Type} (q : Step V → Prop) (n : Nat) : List (Frame V) → Prop
  | [] => True
  | f :: frames => f.Fits q (n - depth frames) ∧ depth (f :: frames) ≤ n ∧ AllFit q n frames

/-- All that a strand has yet to do fits. -/
structure Strand.Fits {V : Type} (q : Step V → Prop) (n : Nat) (s : Strand V) : Prop where
  control : ∀ steps, s.control = .steps steps → Step.AllFit q (n - Frame.depth s.frames) steps
  frames : Frame.AllFit q n s.frames

section

variable {V : Type} {q : Step V → Prop} {n : Nat} {s : Strand V} {f : Frame V}
  {frames : List (Frame V)} {l : List (Step V)}

theorem Frame.depth_le (h : Frame.AllFit q n frames) : Frame.depth frames ≤ n := by
  cases frames with
  | nil => exact Nat.zero_le n
  | cons f frames => exact h.2.1

theorem Strand.length_sections (s : Strand V) :
    (Bracket.sections s.brackets).length = Frame.depth s.frames := by
  obtain ⟨voice, control, frames⟩ := s
  unfold Strand.brackets Bracket.sections
  dsimp only
  induction frames with
  | nil => rfl
  | cons f frames ih =>
      cases f with
      | critical c => exact congrArg (· + 1) ih
      | _ => exact ih

namespace Strand.Fits

theorem depth_le (h : s.Fits q n) : Frame.depth s.frames ≤ n := Frame.depth_le h.frames

/-- A frame that closes no critical section is pushed. -/
theorem push (h : s.Fits q n) (hf : f.Fits q (n - Frame.depth s.frames))
    (hd : Frame.depth (f :: s.frames) = Frame.depth s.frames) : (s.push f).Fits q n := by
  refine ⟨?_, hf, hd ▸ h.depth_le, h.frames⟩
  intro steps hc
  unfold Strand.push
  dsimp only
  rw [hd]
  exact h.control steps hc

theorem pop (h : s.Fits q n) (hf : s.frames = f :: frames)
    (hc : ∀ steps, s.control ≠ .steps steps) :
    f.Fits q (n - Frame.depth frames) ∧ Strand.Fits q n { s with frames } := by
  have hall := h.frames
  rw [hf] at hall
  exact ⟨hall.1, fun steps hs => absurd hs (hc steps), hall.2.2⟩

theorem back (h : s.Fits q n) : Strand.Fits q n { s with control := .back } :=
  ⟨fun _ hc => (by cases hc), h.frames⟩

theorem value (h : s.Fits q n) (v : Option V) : Strand.Fits q n { s with control := .value v } :=
  ⟨fun _ hc => (by cases hc), h.frames⟩

theorem unwind (h : s.Fits q n) (u : Unwind) : Strand.Fits q n { s with control := .unwind u } :=
  ⟨fun _ hc => (by cases hc), h.frames⟩

theorem steps (h : s.Fits q n) (hl : Step.AllFit q (n - Frame.depth s.frames) l) :
    Strand.Fits q n { s with control := .steps l } :=
  ⟨fun _ hc => (by cases hc; exact hl), h.frames⟩

/-- A critical section is entered that fits. -/
theorem enter (h : s.Fits q n) (c : Nat)
    (hl : (Step.critical l).Fits q (n - Frame.depth s.frames)) :
    Frame.depth s.frames < n ∧
      Strand.Fits q n { s.push (.critical c) with control := .steps l } := by
  have hlt : Frame.depth s.frames < n := Nat.lt_of_sub_pos hl.1
  refine ⟨hlt, ?_, trivial, hlt, h.frames⟩
  intro steps hc
  cases hc
  exact hl.2

end Strand.Fits

end

namespace Engine

variable {V : Type} {e e' e'' : Engine V} {t : TaskId} {c : Nat}

/-! ## What leaves memberships as they are -/

/-- `e'` has the tasks of `e` in the groups of `e`, and a task that is kept for reuse was kept
before. -/
structure Still (e e' : Engine V) : Prop extends SameMembers e e' where
  cached : ∀ t y, e'.task? t = some y → y.status = .cached →
    ∃ x, e.task? t = some x ∧ x.status = .cached

theorem SameMembers.still (h : SameMembers e e')
    (hs : e'.tasks.map (·.status) = e.tasks.map (·.status)) : Still e e' := by
  refine ⟨h, fun t y hy hc => ?_⟩
  obtain ⟨x, hx, heq⟩ := exists_of_map_eq hs hy
  exact ⟨x, hx, heq.symm.trans hc⟩

theorem still_of_eq (ht : e'.tasks = e.tasks) (hg : e'.groups = e.groups) : Still e e' :=
  SameMembers.still ⟨by rw [ht], by rw [hg]⟩ (by rw [ht])

theorem Still.refl (e : Engine V) : Still e e := still_of_eq rfl rfl

theorem Still.trans (h : Still e e') (h' : Still e' e'') : Still e e'' := by
  refine ⟨h.toSameMembers.trans h'.toSameMembers, fun t z hz hc => ?_⟩
  obtain ⟨y, hy, hc⟩ := h'.cached t z hz hc
  exact h.cached t y hy hc

theorem Still.groupOf (h : Still e e') (t : TaskId) : e'.groupOf t = e.groupOf t := by
  have hget := congrArg (·[t.index]?) h.tasks
  simp only [Array.getElem?_map] at hget
  have hplace := congrArg (Option.bind · (·.2.2)) hget
  simp only [Option.bind_map] at hplace
  exact hplace

theorem SameRecords.still (h : SameRecords e e') : Still e e' := by
  have hstatus := congrArg (Array.map Task.status) h.tasks
  simp only [Array.map_map] at hstatus
  exact h.sameMembers.still hstatus

theorem Nudge.still (h : Nudge e e') : Still e e' := by
  refine h.sameRolls.toSameMembers.still ?_
  cases h with
  | task h _ => exact map_modify_of_eq fun x hx => (congrArg Task.status (h x hx).badge :)
  | _ => rfl

theorem Nudges.still (h : Nudges e e') : Still e e' := h.induct .refl .trans Nudge.still

theorem still_updateTask {f : Task → Task} (hp : ∀ x, (f x).place = x.place)
    (hs : ∀ x, (f x).status = x.status) : Still e (e.updateTask t f) :=
  (sameMembers_updateTask hp).still (map_updateTask hs)

theorem still_updateJob (e : Engine V) (j : JobId) (k : Join V → Join V) :
    Still e (e.updateJob j k) := still_of_eq rfl rfl

theorem still_finishJob (e : Engine V) (now : Nanos) (j : JobId) (outcome : Except Unwind V) :
    Still e (e.finishJob now j outcome) := by
  cases hj : e.jobs[j]? with
  | none =>
      unfold finishJob
      rw [hj]
      exact .refl e
  | some cell => exact (still_updateJob e j _).trans (sameRecords_finishJob hj now outcome).still

theorem tasks_place (e : Engine V) (caller : Option TaskId) (s : Submission) :
    (e.place caller s).tasks = e.tasks ∧ (e.place caller s).groups = e.groups := by
  unfold place
  split
  · exact ⟨rfl, rfl⟩
  · split <;> exact ⟨rfl, rfl⟩

theorem still_accept (e : Engine V) (caller : Option TaskId) (name : String)
    (group : Option GroupId) : Still e (e.accept caller name group).1 := by
  obtain ⟨htasks, hgroups⟩ := tasks_place
    (({ e.makeJob.1 with outstanding := e.makeJob.1.outstanding + 1 } : Engine V).count
      .tasksSubmitted) caller { job := e.makeJob.2, name, group }
  exact still_of_eq htasks hgroups

theorem still_submit (e : Engine V) (caller : Option TaskId) (name : String)
    (group : Option GroupId) : Still e (e.submit caller name group).1 := by
  unfold submit
  split
  · exact still_of_eq rfl rfl
  · exact still_accept e caller name group

theorem still_submitThread (e : Engine V) (caller : Option TaskId) (name : String) :
    Still e (e.submitThread caller name).1 := by
  unfold submitThread
  split
  · exact still_submit e caller name none
  · split
    · exact still_of_eq rfl rfl
    · exact still_of_eq rfl rfl

theorem still_shutdown (e : Engine V) (caller : Option TaskId) : Still e (e.shutdown caller).1 := by
  unfold shutdown
  split
  · have hstopped : Still e { e with accepting := false } := still_of_eq rfl rfl
    dsimp only
    exact hstopped.trans (still_accept _ caller _ _)
  · exact .refl e

theorem still_closeGroup {g : GroupId} {G : ControlGroup} (hG : e.groups[g]? = some G)
    (caller : Option TaskId) (now : Nanos) (members : List Member) :
    Still e (members.foldl (fun e m => (e.cancelTask now m.task m.generation).1)
      (e.updateGroup g fun _ => (G.close caller).1)) := by
  have hclose : SameMembers e (e.updateGroup g fun _ => (G.close caller).1) := by
    refine sameMembers_updateGroup fun G' hG' => ?_
    rw [hG] at hG'
    cases hG'
    exact Membership.members_close G caller
  exact (hclose.still rfl).trans
    (nudges_foldl (fun e m => nudges_cancelTask e now m.task m.generation) _ members).still

theorem inCritical_congr (h : e'.nesting = e.nesting) (c : Nat) :
    e'.inCritical c = e.inCritical c := by
  have hget := congrArg (·[c]?) (congrArg Prod.fst h)
  simp only [nesting, Array.getElem?_map] at hget
  have hdepth := congrArg (Option.map (· != 0)) hget
  simp only [Option.map_map] at hdepth
  exact congrArg (·.getD false) hdepth

end Engine

namespace World

variable {V : Type} {w w' w'' : World V} {c n : Nat} {t : TaskId} {s s' : Strand V} {h : Host}
  {q : Step V → Prop} {bs bs' : List Bracket} {r : Turn V}

/-! ## Deeds -/

/-- The programs of a world satisfy `P`, and the strands of its threads satisfy `Q`. -/
structure Holds (P : List (Step V) → Prop) (Q : Strand V → Prop) (w : World V) : Prop where
  scripts : ∀ x ∈ w.scripts, P x.2
  bodies : ∀ (j : Nat) (key : String) (l : List (Step V)), w.bodies[j]? = some (.program key l) →
    P l
  threads : ∀ (k : Nat) (x : Thread V) (s : Strand V), w.threads[k]? = some x →
    x.strand = some s → Q s

/-- `w'` comes from `w` by something that concerns neither critical sections nor memberships. -/
structure Neutral (w w' : World V) : Prop where
  nesting : w'.engine.nesting = w.engine.nesting
  still : w.engine.Still w'.engine
  holds : ∀ (P : List (Step V) → Prop) (Q : Strand V → Prop), P [] → w.Holds P Q → w'.Holds P Q
  strands : w'.strands = w.strands

/-- One of the things of which a turn of a host consists, with the open brackets of its strand.
Steps that join or leave a group without a bracket have to satisfy `q`, and a critical section is
entered only while less than `n` are open. -/
inductive Deed (q : Step V → Prop) (n : Nat) :
    Host → World V × List Bracket → World V × List Bracket → Prop
  | neutral {h : Host} {w w' : World V} {bs : List Bracket} (hw : Neutral w w') :
      Deed q n h (w, bs) (w', bs)
  | enter {t : TaskId} {c : Nat} {w : World V} {bs : List Bracket}
      (room : (Bracket.sections bs).length < n) :
      Deed q n (.task t c) (w, bs)
        (w.onEngine (·.updateCarrier c Carrier.enterCritical), .critical c :: bs)
  | leave {h : Host} {d : Nat} {w : World V} {bs : List Bracket} :
      Deed q n h (w, .critical d :: bs) (w.leaveCritical d, bs)
  | join {t : TaskId} {c : Nat} {w : World V} {bs : List Bracket} {g : GroupId}
      {e : Engine (Option V)} (ok : w.engine.attach w.now t g = (e, .ok ())) :
      Deed q n (.task t c) (w, bs) ({ w with engine := e }, .inGroup g :: bs)
  | part {t : TaskId} {c : Nat} {w : World V} {bs : List Bracket} {g : GroupId} :
      Deed q n (.task t c) (w, .inGroup g :: bs) (w.onEngine (·.detach w.now t g), bs)
  | attach {t : TaskId} {c : Nat} {w : World V} {bs : List Bracket} {g : GroupId}
      (fit : q (.attach g)) :
      Deed q n (.task t c) (w, bs) (w.onEngine fun e => (e.attach w.now t g).1, bs)
  | detach {t : TaskId} {c : Nat} {w : World V} {bs : List Bracket} {g : GroupId}
      (fit : q (.detach g)) : Deed q n (.task t c) (w, bs) (w.onEngine (·.detach w.now t g), bs)
  /-- A thread has no group to leave. -/
  | drop {k : Nat} {w : World V} {bs : List Bracket} {g : GroupId} :
      Deed q n (.thread k) (w, .inGroup g :: bs) (w, bs)

/-- A number of deeds, one after the other. -/
abbrev Deeds (q : Step V → Prop) (n : Nat) (h : Host) :
    World V × List Bracket → World V × List Bracket → Prop := Relation.ReflTransGen (Deed q n h)

/-- A turn of a strand that goes on: it consists of deeds and leaves a strand that fits, and a task
gives its carrier away only outside of critical sections. -/
structure Turned (q : Step V → Prop) (n : Nat) (h : Host) (w : World V) (s : Strand V)
    (r : Turn V) : Prop where
  deeds : Deeds q n h (w, s.brackets) (r.1, r.2.1.brackets)
  fits : r.2.1.Fits q n
  away : r.2.2 = .away → ∀ t c, h = .task t c →
    w.engine.inCritical c = false ∧ r.1.engine.inCritical c = false
  goes : r.2.2 ≠ .over

/-! ## Neutral changes -/

theorem Neutral.refl (w : World V) : Neutral w w := ⟨rfl, .refl _, fun _ _ _ => id, rfl⟩

theorem Neutral.trans (h : Neutral w w') (h' : Neutral w' w'') : Neutral w w'' :=
  ⟨h'.nesting.trans h.nesting, h.still.trans h'.still,
    fun P Q hP hw => h'.holds P Q hP (h.holds P Q hP hw), h'.strands.trans h.strands⟩

/-- Only the engine changes. -/
theorem neutral_of_still {e : Engine (Option V)} (hn : e.nesting = w.engine.nesting)
    (hs : w.engine.Still e) : Neutral w { w with engine := e } :=
  ⟨hn, hs, fun _ _ _ hw => ⟨hw.scripts, hw.bodies, hw.threads⟩, rfl⟩

theorem neutral_of_nudges {e : Engine (Option V)} (hn : e.nesting = w.engine.nesting)
    (hs : Engine.Nudges w.engine e) : Neutral w { w with engine := e } :=
  neutral_of_still hn hs.still

/-- Only the log, the time, the handles and the like are changed. -/
theorem neutral_of_eq (he : w'.engine = w.engine) (hs : w'.scripts = w.scripts)
    (hb : w'.bodies = w.bodies) (ht : w'.threads = w.threads) (hstrands : w'.strands = w.strands) :
    Neutral w w' := by
  refine ⟨by rw [he], by rw [he]; exact .refl _, fun P Q _ hw => ⟨?_, ?_, ?_⟩, hstrands⟩
  · rw [hs]
    exact hw.scripts
  · rw [hb]
    exact hw.bodies
  · rw [ht]
    exact hw.threads

/-! ## Turns of one deed or none -/

theorem Deed.turned {cost : Nanos} (hd : Deed q n h (w, s.brackets) (w', s'.brackets))
    (hs : s'.Fits q n) : Turned q n h w s (w', s', .busy cost) :=
  ⟨.single hd, hs, nofun, nofun⟩

/-- The strand goes on after something neutral. -/
theorem Neutral.turned {cost : Nanos} (hw : Neutral w w') (hs : s'.Fits q n)
    (hb : s'.brackets = s.brackets) : Turned q n h w s (w', s', .busy cost) :=
  Deed.turned (hb ▸ .neutral hw) hs

/-- The strand blocks its thread or its carrier. -/
theorem Neutral.turned_wait {what : Wait} {deadline : Option Nanos} (hw : Neutral w w')
    (hs : s'.Fits q n) (hb : s'.brackets = s.brackets) :
    Turned q n h w s (w', s', .wait what deadline) :=
  ⟨.single (hb ▸ .neutral hw), hs, nofun, nofun⟩

/-- A turn begins with a deed that enters and leaves no critical section. -/
theorem Turned.after (hd : Deed q n h (w, s.brackets) (w', s'.brackets))
    (hn : w'.engine.nesting = w.engine.nesting) (ht : Turned q n h w' s' r) :
    Turned q n h w s r := by
  refine ⟨.head hd ht.deeds, ht.fits, fun ha t c hh => ?_, ht.goes⟩
  obtain ⟨hbefore, hafter⟩ := ht.away ha t c hh
  exact ⟨(Engine.inCritical_congr hn c).symm.trans hbefore, hafter⟩

theorem Neutral.then_turned (hw : Neutral w w') (ht : Turned q n h w' s' r)
    (hb : s'.brackets = s.brackets) : Turned q n h w s r :=
  Turned.after (hb ▸ .neutral hw) hw.nesting ht

/-! ## Checkpoints and parks -/

theorem neutral_checkpoint (w : World V) (t : TaskId) : Neutral w (w.checkpoint t).1 := by
  unfold checkpoint
  split
  · exact .refl w
  · next x hx =>
      refine neutral_of_still rfl ?_
      have hplace : x.checkpoint.1.place = x.place := by
        unfold Task.checkpoint
        split
        · rfl
        · split <;> rfl
      have hstatus : x.checkpoint.1.status = x.status := by
        unfold Task.checkpoint
        split
        · rfl
        · split <;> rfl
      have hput : Engine.SameMembers w.engine
          (w.engine.updateTask t fun _ => x.checkpoint.1) := ⟨Engine.map_put hx hplace, rfl⟩
      exact hput.still (Engine.map_put hx hstatus)

theorem turned_goChecked (w : World V) (h : Host) (t : TaskId) (hs : s.Fits q n) :
    Turned q n h w s (w.goChecked t s) := by
  have hw := w.neutral_checkpoint t
  unfold goChecked
  split
  · next w' hc =>
      rw [hc] at hw
      exact hw.turned hs.back rfl
  · next w' u hc =>
      rw [hc] at hw
      exact hw.turned (hs.unwind u) rfl

theorem neutral_giveAway (w : World V) (c : Nat) (t : TaskId) :
    Neutral w (w.onEngine (·.giveAway w.now c t)) :=
  neutral_of_nudges (Engine.nesting_giveAway _ _ _ _)
    ((Engine.nudges_accountRun _ _ _).trans (Engine.nudges_switchOut _ _ _))

theorem neutral_deferWake (w : World V) (c : Nat) (t : TaskId) :
    Neutral w (w.onEngine (·.updateCarrier c (·.deferWake t))) :=
  neutral_of_nudges (Engine.nesting_updateCarrier fun _ _ => rfl)
    (Engine.nudges_updateCarrier fun _ _ => rfl)

/-- A task outside of critical sections gives its carrier away. -/
theorem turned_giveAway (w : World V) {f : Frame V} (hs : s.Fits q n)
    (hf : f.Fits q (n - Frame.depth s.frames)) (hd : Frame.depth (f :: s.frames) = Frame.depth s.frames)
    (hb : (s.push f).brackets = s.brackets) (hc : w.engine.inCritical c = false) :
    Turned q n (.task t c) w s (w.giveAway t c s f) := by
  have hw := w.neutral_giveAway c t
  refine ⟨.single ?_, (hs.push hf hd).back, fun _ u d hh => ?_, nofun⟩
  · have hbrackets : (w.giveAway t c s f).2.1.brackets = s.brackets := hb
    rw [hbrackets]
    exact .neutral hw
  · cases hh
    exact ⟨hc, (Engine.inCritical_congr hw.nesting c).trans hc⟩

theorem turned_yieldTask (w : World V) (hs : s.Fits q n) :
    Turned q n (.task t c) w s (w.yieldTask t c s) := by
  have hw := w.neutral_checkpoint t
  unfold yieldTask
  split
  · next w' u hc =>
      rw [hc] at hw
      exact hw.turned (hs.unwind u) rfl
  · next w' hc =>
      rw [hc] at hw
      split
      · exact hw.turned hs.back rfl
      · next hcritical =>
          have hdefer := w'.neutral_deferWake c t
          refine (hw.trans hdefer).then_turned (turned_giveAway _ hs trivial rfl rfl ?_) rfl
          exact (Engine.inCritical_congr hdefer.nesting c).trans (Bool.eq_false_iff.mpr hcritical)

theorem neutral_updateTask (w : World V) (t : TaskId) {f : Task → Task}
    (hp : ∀ x, (f x).place = x.place) (hs : ∀ x, (f x).status = x.status) :
    Neutral w (w.onEngine (·.updateTask t f)) :=
  neutral_of_still rfl (Engine.still_updateTask hp hs)

theorem neutral_setParker (w : World V) (t : TaskId) (a : Axis) (k : Task → Parker) :
    Neutral w (w.onEngine (·.updateTask t fun x => x.setParker a (k x))) :=
  w.neutral_updateTask t (fun x => by cases a <;> rfl) fun x => by cases a <;> rfl

theorem neutral_beginPark {a : Axis} {native : Bool} {o : Except Fault Bool}
    (h : w.beginPark t a native = (w', o)) : Neutral w w' := by
  unfold beginPark at h
  split at h
  · cases h
    exact .refl w
  · split at h
    · next y hy =>
        cases h
        exact neutral_of_nudges (Engine.nesting_blame (Fault.isOther_of_begin hy))
          (.single (.blame y))
    · cases h
      exact w.neutral_setParker t a _

theorem neutral_endPark (w : World V) (t : TaskId) (a : Axis) : Neutral w (w.endPark t a) :=
  w.neutral_setParker t a fun x => (x.parker a).finish

theorem neutral_arm (w : World V) (c : Nat) (t : TaskId) (d : Nanos) (action : TimeoutAction)
    (byTask : Bool) : Neutral w (w.onEngine (·.arm w.now c t d action byTask)) :=
  neutral_of_nudges (Engine.nesting_arm _ _ _ _ _ _ _) (Engine.nudges_arm _ _ _ _ _ _ _)

theorem neutral_disarm (w : World V) (t : TaskId) : Neutral w (w.onEngine (·.disarm t)) :=
  neutral_of_nudges (Engine.nesting_disarm _ _) (Engine.nudges_disarm _ _)

theorem turned_parkBlocking (w : World V) (a : Axis) (deadline : Option Nanos) (hs : s.Fits q n) :
    Turned q n (.task t c) w s (w.parkBlocking t c s a deadline) := by
  have hblocked : ∀ armed,
      Strand.Fits q n { s.push (.blocked a armed) with control := .back } := fun armed =>
    (hs.push (f := .blocked a armed) trivial rfl).back
  unfold parkBlocking
  split
  · next hp => exact (neutral_beginPark hp).turned (hs.unwind _) rfl
  · next hp => exact (neutral_beginPark hp).then_turned (turned_goChecked _ _ t hs) rfl
  · next w' hp =>
      have hw := neutral_beginPark hp
      dsimp only
      split
      · exact hw.turned_wait (hblocked false) rfl
      · split
        · exact (hw.trans (w'.neutral_arm c t _ _ _)).turned_wait (hblocked true) rfl
        · exact hw.turned_wait (hblocked false) rfl

theorem turned_parkGiving (w : World V) (a : Axis) (deadline : Option Nanos) (hs : s.Fits q n)
    (hc : w.engine.inCritical c = false) :
    Turned q n (.task t c) w s (w.parkGiving t c s a deadline) := by
  unfold parkGiving
  split
  · next hp => exact (neutral_beginPark hp).turned (hs.unwind _) rfl
  · next hp => exact (neutral_beginPark hp).then_turned (turned_goChecked _ _ t hs) rfl
  · next w' hp =>
      have hgive : ∀ w'' : World V, Neutral w w'' →
          Turned q n (.task t c) w s (w''.giveAway t c s (.parked a deadline.isSome)) := by
        intro w'' hw
        refine hw.then_turned (turned_giveAway w'' hs trivial rfl rfl ?_) rfl
        exact (Engine.inCritical_congr hw.nesting c).trans hc
      have hw := neutral_beginPark hp
      cases deadline with
      | none => exact hgive w' hw
      | some d => exact hgive _ (hw.trans (w'.neutral_arm c t d _ _))

theorem neutral_unregisterChannel (w : World V) (t : TaskId) :
    Neutral w (w.onEngine (·.unregisterChannel t)) :=
  neutral_of_nudges (Engine.nesting_unregisterChannel _ _) (Engine.nudges_unregisterChannel _ _)

theorem turned_parkTask (w : World V) (a : Axis) (timeout : Option Nat) (forChannel : Bool)
    (hs : s.Fits q n) : Turned q n (.task t c) w s (w.parkTask t c s a timeout forChannel) := by
  have hw := w.neutral_checkpoint t
  unfold parkTask
  split
  · next w' u hc =>
      rw [hc] at hw
      exact hw.turned (hs.unwind u) rfl
  · next w' hc =>
      rw [hc] at hw
      split
      · exact hw.then_turned (turned_yieldTask _ hs) rfl
      · have hpark : ∀ (w'' : World V) (deadline : Option Nanos), Neutral w w'' →
            Turned q n (.task t c) w s
              (if w''.engine.inCritical c then w''.parkBlocking t c s a deadline
                else w''.parkGiving t c s a deadline) := by
          intro w'' deadline hw
          split
          · exact hw.then_turned (turned_parkBlocking w'' a deadline hs) rfl
          · next hcritical =>
              exact hw.then_turned
                (turned_parkGiving w'' a deadline hs (Bool.eq_false_iff.mpr hcritical)) rfl
        cases forChannel with
        | true => exact hpark w' _ hw
        | false => exact hpark _ _ (hw.trans (w'.neutral_unregisterChannel t))

/-- Parks and naps of threads leave the engine as it is. -/
theorem neutral_outside (w : World V) (k : Nat) (g : Thread V → Thread V)
    (hg : ∀ x, (g x).strand = x.strand) : Neutral w { w with threads := w.threads.modify k g } := by
  refine ⟨rfl, .refl _, fun P Q _ hw => ⟨hw.scripts, hw.bodies, ?_⟩, rfl⟩
  intro m x s hx hs
  rw [Array.getElem?_modify] at hx
  split at hx
  · obtain ⟨y, hy, rfl⟩ := Option.map_eq_some_iff.mp hx
    exact hw.threads m y s hy ((hg y).symm.trans hs)
  · exact hw.threads m x s hx hs

theorem turned_parkThread (w : World V) (k : Nat) (timeout : Option Nat) (hs : s.Fits q n) :
    Turned q n (.thread k) w s (w.parkThread k s timeout) := by
  unfold parkThread
  split
  · exact (Neutral.refl w).turned hs.back rfl
  · split
    · exact (Neutral.refl w).turned (hs.unwind _) rfl
    · next outside blocks _ =>
        have hpark := w.neutral_outside k ({ · with outside }) fun _ => rfl
        dsimp only
        split
        · exact hpark.turned_wait (hs.push (f := .threadParked) trivial rfl).back rfl
        · exact hpark.turned hs.back rfl

theorem turned_sleep (w : World V) (h : Host) (time : Nanos) (hs : s.Fits q n) :
    Turned q n h w s (w.sleep h s time) := by
  cases h with
  | thread k => exact (Neutral.refl w).turned hs.back rfl
  | task t c => exact (Neutral.refl w).turned (hs.push (f := .sleeping _) trivial rfl).back rfl

end World

end GreenThreads

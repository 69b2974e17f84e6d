import GreenThreads.Proofs.Program.Sections
import GreenThreads.Proofs.Program.Transfers
import Mathlib.Algebra.Module.Submodule.Lattice
import Mathlib.Computability.Primrec.List
import Mathlib.Data.List.Permutation

/-!
# Runs in control groups

A task runs a body in a control group: it joins the group first, and it leaves the group when the
body has ended, be it with a value or not, or is unwound. A task that is in the group already is let
in as well, and it leaves nonetheless. So a run ends with its task in no group, which is as it was
before the run if the task was in no group then.
-/

namespace GreenThreads.World

open Engine (Settled Busy Transfers Admits)

variable {V : Type} {w w' : World V} {e e' : Engine (Option V)} {c n : Nat} {t : TaskId}
  {g k : GroupId} {s : Strand V} {q : Step V → Prop} {r : Turn V} {x y : World V × List Bracket}
  {bs : List Bracket} {body rest : List (Step V)} {frames : List (Frame V)}

/-! ## The group of a task during a turn -/

/-- Steps that satisfy `q` join no group and leave none but by a run. -/
def OnlyRuns (q : Step V → Prop) : Prop := ∀ k, ¬ q (.attach k) ∧ ¬ q (.detach k)

/-- A step that does not join a group or leave one by itself. -/
def KeepsGroup : Step V → Prop
  | .attach _ | .detach _ => False
  | _ => True

theorem onlyRuns_keepsGroup : OnlyRuns (KeepsGroup (V := V)) := fun _ => ⟨id, id⟩

/-- A task that is in a group is in that of its innermost run, if it is in a run. -/
def Headed (e : Engine (Option V)) (t : TaskId) (bs : List Bracket) : Prop :=
  ∀ g k, e.groupOf t = some k → (Bracket.runs bs).head? = some g → g = k

theorem Headed.still (h : Headed e t bs) (hs : e.Still e') : Headed e' t bs := by
  intro g k hk
  rw [hs.groupOf] at hk
  exact h g k hk

theorem headed_nil (e : Engine (Option V)) (t : TaskId) : Headed e t [] := fun _ _ _ hg => by cases hg

/-- During a turn of the task `t` that began in `w`, slots and lists agree, and the groups of other
tasks are what they were. -/
structure Enlisted (q : Step V → Prop) (w : World V) (t : TaskId) (x : World V × List Bracket) :
    Prop where
  settled : Settled x.1.engine
  busy : x.1.engine.Busy t
  others : Transfers t w.engine x.1.engine
  headed : OnlyRuns q → Headed x.1.engine t x.2

theorem Enlisted.still (h : Enlisted q w t x) (hs : x.1.engine.Still y.1.engine)
    (hr : Bracket.runs y.2 = Bracket.runs x.2) : Enlisted q w t y := by
  refine ⟨h.settled.still hs, h.busy.still hs, h.others.trans (hs.transfers t), fun hq g k hk hg => ?_⟩
  rw [hs.groupOf] at hk
  rw [hr] at hg
  exact h.headed hq g k hk hg

theorem Enlisted.attach {w' : World V} {bs' : List Bracket} (h : Enlisted q w t (w', bs))
    (headed : OnlyRuns q → Headed (w'.engine.attach w'.now t g).1 t bs') :
    Enlisted q w t (w'.onEngine fun e => (e.attach w'.now t g).1, bs') :=
  ⟨h.settled.attach h.busy w'.now g, Busy.attach h.busy w'.now t g,
    h.others.trans (w'.engine.transfers_attach w'.now t g), headed⟩

theorem Enlisted.detach {w' : World V} {bs' : List Bracket} (h : Enlisted q w t (w', bs))
    (headed : OnlyRuns q → Headed (w'.engine.detach w'.now t g) t bs') :
    Enlisted q w t (w'.onEngine (·.detach w'.now t g), bs') :=
  ⟨h.settled.detach w'.now t g, Busy.detach h.busy w'.now t g,
    h.others.trans (w'.engine.transfers_detach w'.now t g), headed⟩

theorem Enlisted.join {w' : World V} (h : Enlisted q w t (w', bs))
    (ok : w'.engine.attach w'.now t g = (e, .ok ())) :
    Enlisted q w t ({ w' with engine := e }, .inGroup g :: bs) := by
  obtain rfl : (w'.engine.attach w'.now t g).1 = e := by rw [ok]
  have hin := Engine.groupOf_attach (Prod.ext rfl (congrArg Prod.snd ok))
  refine h.attach fun _ g' k hk hg => ?_
  rw [hin] at hk
  cases hk
  cases hg
  rfl

/-- The run that ends is the innermost, so its task is in no group afterwards. -/
theorem Enlisted.part {w' : World V} (h : Enlisted q w t (w', .inGroup g :: bs)) :
    Enlisted q w t (w'.onEngine (·.detach w'.now t g), bs) := by
  refine h.detach fun hq g' k hk _ => ?_
  rw [h.settled.groupOf_detach (fun k hk => h.headed hq g k hk rfl) w'.now] at hk
  cases hk

theorem still_leaveCritical (w : World V) (d : Nat) : w.engine.Still (w.leaveCritical d).engine := by
  unfold leaveCritical
  split
  · exact .refl _
  · next x _ =>
      have hblame : ∀ (e : Engine (Option V)) o, e.Still (e.blameIf o) := by
        intro e o
        cases o with
        | none => exact .refl e
        | some y => exact Engine.still_of_eq rfl rfl
      have hexit : w.engine.Still (w.engine.updateCarrier d fun _ => x.exitCritical.1) :=
        Engine.still_of_eq rfl rfl
      exact hexit.trans (hblame _ _)

theorem Enlisted.deed (h : Enlisted q w t x) (hd : Deed q n (.task t c) x y) : Enlisted q w t y := by
  cases hd with
  | neutral hw => exact h.still hw.still rfl
  | enter _ => exact h.still (Engine.still_of_eq rfl rfl) rfl
  | @leave _ d w' bs => exact h.still (w'.still_leaveCritical d) rfl
  | join ok => exact h.join ok
  | part => exact h.part
  | @attach _ _ w' bs g fit => exact h.attach fun hq => absurd fit (hq g).1
  | @detach _ _ w' bs g fit => exact h.detach fun hq => absurd fit (hq g).2

theorem Enlisted.deeds (h : Enlisted q w t x) (hd : Deeds q n (.task t c) x y) :
    Enlisted q w t y := by
  induction hd with
  | refl => exact h
  | tail _ hlast ih => exact ih.deed hlast

/-! ## Groups of tasks at any time -/

/-- Slots and lists agree, tasks with strands have work, and where programs join and leave groups
only by runs each task is in the group of its innermost run, if it is in any group and in any
run. -/
structure Enrolled (q : Step V → Prop) (w : World V) : Prop where
  settled : Settled w.engine
  busy : ∀ t s, w.strand? t = some s → w.engine.Busy t
  headed : OnlyRuns q → ∀ t s, w.strand? t = some s → Headed w.engine t s.brackets

namespace Enrolled

theorem aside (h : Enrolled q w) (ha : Aside w w') : Enrolled q w' := by
  refine ⟨h.settled.still ha.still, fun t s hs => ?_, fun hq t s hs => ?_⟩
  · rw [strand?_congr ha.strands] at hs
    exact (h.busy t s hs).still ha.still
  · rw [strand?_congr ha.strands] at hs
    exact (h.headed hq t s hs).still ha.still

/-- Only the task `t` has another group or another strand than before. -/
theorem change (h : Enrolled q w) (settled : Settled w'.engine)
    (transfers : Transfers t w.engine w'.engine) (others : ∀ u, u ≠ t → w'.strand? u = w.strand? u)
    (self : ∀ s, w'.strand? t = some s →
      w'.engine.Busy t ∧ (OnlyRuns q → Headed w'.engine t s.brackets)) : Enrolled q w' := by
  refine ⟨settled, fun u s hs => ?_, fun hq u s hs => ?_⟩
  · by_cases hu : u = t
    · subst hu
      exact (self s hs).1
    · exact transfers.busy u hu (h.busy u s (others u hu ▸ hs))
  · by_cases hu : u = t
    · subst hu
      exact (self s hs).2 hq
    · intro g k hk
      rw [transfers.groupOf hu] at hk
      exact h.headed hq u s (others u hu ▸ hs) g k hk

/-- A task begins a turn with the strand that it has, or with one that is in no run. -/
theorem enlisted (h : Enrolled q w) (hr : w.Runs c t s) : Enlisted q w t (w, s.brackets) := by
  obtain ⟨x, hx, halive⟩ := hr.alive
  refine ⟨h.settled, ⟨x, hx, by rw [halive]; exact nofun⟩, .refl t w.engine, fun hq => ?_⟩
  rcases hr.strand with hs | ⟨-, hnone⟩
  · exact h.headed hq t s hs
  · rw [hnone]
    exact headed_nil _ t

theorem turn (h : Enrolled q w) (hr : w.Runs c t s) (ht : Turned q n (.task t c) w s r) :
    Enrolled q (afterTurn c t r) := by
  have hafter := (h.enlisted hr).deeds ht.deeds
  have hstrand := strand?_afterTurn (c := c) (t := t) ht.deeds.strands
  refine h.change (t := t) hafter.settled hafter.others (fun u hu => ?_) fun s' hs => ?_
  · rw [hstrand, if_neg hu]
  · rw [hstrand, if_pos rfl, keep_of_ne_over ht.goes] at hs
    cases hs
    exact ⟨hafter.busy, hafter.headed⟩

theorem finish {w' : World V} (h : Enrolled q w) (neutral : Neutral w w')
    (exits : w'.engine.exit w'.now c t = e) :
    Enrolled q (afterTurn c t ({ w' with engine := e }, s, .over)) := by
  obtain ⟨hsettled, htransfers, -⟩ := (h.settled.still neutral.still).exit w'.now c t
  rw [exits] at hsettled htransfers
  have hstrand := strand?_afterOver (c := c) (t := t) e s neutral.strands
  refine h.change (t := t) hsettled ((neutral.still.transfers t).trans htransfers) (fun u hu => ?_)
    fun s' hs => ?_
  · rw [hstrand, if_neg hu]
  · rw [hstrand, if_pos rfl] at hs
    cases hs

theorem take {a : Runnable} (h : Enrolled q w) (there : c < w.engine.carriers.size)
    (next : w.engine.next? c = some (a, e)) (works : e.dispatch w.now c a = e')
    (ready : ∀ s, a = .start s → e.HasSpare c) : Enrolled q { w with engine := e' } := by
  have hstill : w.engine.Still e := by
    obtain ⟨carriers, shared, rfl⟩ := (Engine.taken_of_next? next).eq
    exact Engine.still_of_eq rfl rfl
  have hthere : c < e.carriers.size := by
    rw [Engine.size_of_nesting (Engine.nesting_next? next)]
    exact there
  obtain ⟨hsettled, t, htransfers, hcached⟩ := (h.settled.still hstill).dispatch hthere w.now ready
  rw [works] at hsettled htransfers
  refine h.change (t := t) hsettled ((hstill.transfers t).trans htransfers) (fun _ _ => rfl)
    fun s hs => ?_
  obtain ⟨x, hx, hbusy⟩ := (h.busy t s hs).still hstill
  exact absurd (hcached x hx) hbusy

theorem piece (h : Enrolled q w) (hp : Piece q n w w') : Enrolled q w' := by
  cases hp with
  | turn runs turned _ _ => exact h.turn runs turned
  | finish _ _ neutral exits _ _ => exact h.finish neutral exits
  | take _ there next works ready _ _ => exact h.take there next works ready

theorem create {config : Config} {processors : Nat} {groups : List ControlGroup} {pump : EventPump}
    (he : Engine.start config processors groups pump = .ok e) (hnew : ∀ G ∈ groups, G.IsNew)
    (scripts : List (String × List (Step V))) (main : List (Step V)) (leave : Bool) :
    Enrolled q (World.create e scripts main leave) := by
  refine ⟨Engine.settled_start he hnew, fun t s hs => ?_, fun _ t s hs => ?_⟩
  · rw [strand?_create] at hs
    cases hs
  · rw [strand?_create] at hs
    cases hs

end Enrolled

theorem Reached.enrolled (h : Reached q n w) : Enrolled q w :=
  h.induct (fun _ _ _ _ _ scripts main leave started opened =>
      .create started opened scripts main leave)
    (fun _ _ hw ha => hw.aside ha) fun _ _ hw hp => hw.piece hp

theorem Enrolled.headed_strandOf (h : Enrolled q w) (hq : OnlyRuns q) (c : Nat) (t : TaskId) :
    Headed w.engine t (w.strandOf c t).brackets := by
  unfold World.strandOf
  cases hs : w.strand? t with
  | some s => exact h.headed hq t s hs
  | none =>
      cases (w.engine.task? t).bind (·.job) with
      | some job => exact w.brackets_begin (.task t c) job ▸ headed_nil _ t
      | none => exact headed_nil _ t

/-! ## The beginning and the end of a run -/

theorem yieldTask_spec (w : World V) (t : TaskId) (c : Nat) (s : Strand V) :
    Neutral w (w.yieldTask t c s).1 ∧ (w.yieldTask t c s).2.2 ≠ .over ∧
      ∃ top, (w.yieldTask t c s).2.1.frames = top ++ s.frames := by
  have hw := w.neutral_checkpoint t
  unfold yieldTask
  split
  · next w' u hc =>
      rw [hc] at hw
      exact ⟨hw, nofun, [], rfl⟩
  · next w' hc =>
      rw [hc] at hw
      split
      · exact ⟨hw, nofun, [], rfl⟩
      · have hgive := (w'.neutral_deferWake c t).trans (neutral_giveAway _ c t)
        exact ⟨hw.trans hgive, nofun, [.resumed], rfl⟩

theorem runInGroup_refused (h : ¬ w.engine.Admits t g) (s : Strand V) (label : String)
    (body : List (Step V)) : ∃ a, w.runInGroup t c s label g body = w.reply s label a := by
  obtain ⟨err, hattach⟩ := Engine.attach_of_not_admits h w.now
  unfold runInGroup
  rw [hattach]
  exact ⟨.error err, rfl⟩

/-- A task that is let in has joined the group, and goes on with the body. -/
theorem runInGroup_admitted (h : w.engine.Admits t g) (s : Strand V) (label : String)
    (body : List (Step V)) :
    let r := w.runInGroup t c s label g body
    (∃ e, w.engine.attach w.now t g = (e, .ok ()) ∧ Neutral { w with engine := e } r.1) ∧
      r.2.2 ≠ .over ∧ ∃ top, r.2.1.frames = top ++ .rest body :: .inGroup g :: s.frames := by
  obtain ⟨e, hattach, -⟩ := Engine.attach_of_admits h w.now
  have hquota := neutral_outOfQuota { w with engine := e } g
  unfold runInGroup
  rw [hattach]
  dsimp only
  split
  · next w' y hw =>
      rw [hw] at hquota
      have hblame : Neutral w' (w'.onEngine (·.blame y)) :=
        neutral_of_nudges (Engine.nesting_blame (isOther_of_outOfQuota hw)) (.single (.blame y))
      exact ⟨⟨e, rfl, hquota.trans hblame⟩, nofun, [], rfl⟩
  · next w' hw =>
      rw [hw] at hquota
      obtain ⟨hyield, hgoes, hframes⟩ :=
        w'.yieldTask_spec t c ((s.push (.inGroup g)).push (.rest body))
      exact ⟨⟨e, rfl, hquota.trans hyield⟩, hgoes, hframes⟩
  · next w' hw =>
      rw [hw] at hquota
      exact ⟨⟨e, rfl, hquota⟩, nofun, [], rfl⟩

theorem advance_groupRun (w : World V) (job : Option JobId)
    (hs : s.control = .steps (.groupRun g body :: rest)) : ∃ label,
      w.advance (.task t c) job s = w.runInGroup t c (s.push (.rest rest)) label g body := by
  obtain ⟨voice, control, frames⟩ := s
  cases hs
  exact ⟨_, rfl⟩

theorem advance_part (w : World V) (job : Option JobId) (hs : s.frames = .inGroup g :: frames)
    (hc : ∀ l, s.control ≠ .steps l) :
    let r := w.advance (.task t c) job s
    r.1.engine = w.engine.detach w.now t g ∧ r.1.strands = w.strands ∧ r.2.2 ≠ .over ∧
      r.2.1.frames = frames := by
  obtain ⟨voice, control, frames'⟩ := s
  cases hs
  cases control with
  | steps l => exact absurd rfl (hc l)
  | unwind u => exact ⟨rfl, rfl, nofun, rfl⟩
  | _ => cases voice <;> exact ⟨rfl, rfl, nofun, rfl⟩

theorem record_keeps (w : World V) (v : Voice) (x : Entry V) :
    (w.record v x).engine = w.engine ∧ (w.record v x).strands = w.strands := by
  cases v with
  | silent => exact ⟨rfl, rfl⟩
  | main => exact ⟨rfl, rfl⟩
  | program key => exact ⟨rfl, rfl⟩

theorem actAt_refused (hc : w.engine.current? c = some t)
    (hs : (w.strandOf c t).control = .steps (.groupRun g body :: rest))
    (hrefused : ¬ w.engine.Admits t g) (now : Nanos) :
    (w.actAt now (.carrier c)).engine = w.engine ∧
      ∃ s, (w.actAt now (.carrier c)).strand? t = some s ∧ s.control = .back ∧
        s.frames = .rest rest :: (w.strandOf c t).frames := by
  obtain ⟨w', job, hengine, hstrands, hafter⟩ := actAt_turn hc now
  obtain ⟨label, hadvance⟩ := w'.advance_groupRun (c := c) (t := t) job hs
  rw [← hengine] at hrefused
  obtain ⟨a, hreply⟩ :=
    runInGroup_refused (c := c) hrefused ((w.strandOf c t).push (.rest rest)) label body
  obtain ⟨hsame, hkept⟩ :=
    w'.record_keeps ((w.strandOf c t).push (.rest rest)).voice (.answered label a)
  obtain ⟨hcalled, hstrand⟩ := hafter _ (hadvance.trans hreply) hkept nofun
  exact ⟨(hcalled.trans hsame).trans hengine, _, hstrand, rfl, rfl⟩

theorem actAt_admitted (hc : w.engine.current? c = some t)
    (hs : (w.strandOf c t).control = .steps (.groupRun g body :: rest))
    (hadmits : w.engine.Admits t g) (now : Nanos) :
    (w.actAt now (.carrier c)).engine.groupOf t = some g ∧
      Transfers t w.engine (w.actAt now (.carrier c)).engine ∧
      ∃ s top, (w.actAt now (.carrier c)).strand? t = some s ∧
        s.frames = top ++ .rest body :: .inGroup g :: .rest rest :: (w.strandOf c t).frames := by
  obtain ⟨w', job, hengine, hstrands, hafter⟩ := actAt_turn hc now
  obtain ⟨label, hadvance⟩ := w'.advance_groupRun (c := c) (t := t) job hs
  rw [← hengine] at hadmits
  obtain ⟨⟨e, hattach, hneutral⟩, hgoes, top, hframes⟩ :=
    runInGroup_admitted (c := c) hadmits ((w.strandOf c t).push (.rest rest)) label body
  obtain ⟨hcalled, hstrand⟩ := hafter _ hadvance hneutral.strands hgoes
  rw [hcalled]
  refine ⟨?_, ?_, _, top, hstrand, hframes⟩
  · rw [hneutral.still.groupOf]
    exact Engine.groupOf_attach hattach
  · have hjoin := w'.engine.transfers_attach w'.now t g
    rw [hattach, hengine] at hjoin
    exact hjoin.trans (hneutral.still.transfers t)

/-- Where a run ends its task leaves the group. -/
theorem actAt_part (hc : w.engine.current? c = some t)
    (hs : (w.strandOf c t).frames = .inGroup g :: frames)
    (hcontrol : ∀ l, (w.strandOf c t).control ≠ .steps l) (now : Nanos) :
    (∃ now', (w.actAt now (.carrier c)).engine = w.engine.detach now' t g) ∧
      ∃ s, (w.actAt now (.carrier c)).strand? t = some s ∧ s.frames = frames := by
  obtain ⟨w', job, hengine, hstrands, hafter⟩ := actAt_turn hc now
  obtain ⟨hdetach, hkept, hgoes, hframes⟩ :=
    w'.advance_part (c := c) (t := t) job hs hcontrol
  obtain ⟨hleft, hstrand⟩ := hafter _ rfl hkept hgoes
  rw [hdetach, hengine] at hleft
  exact ⟨⟨_, hleft⟩, _, hstrand, hframes⟩

/-- A task begins a run. It is let in if the group is open and the task is in no other; if not,
nothing changes but that the task goes on after the run. The body of a task that is let in comes
next, in the group; and when the body has ended, with a value or without, or is unwound, then unless
it has made its task leave or join groups other than by runs, the task leaves the group, and it is
in no group then. So its group and the members of all groups are as before the run, as far as this
task is concerned, exactly if it was in no group before. Other tasks stay in the groups that they
are in. -/
theorem Reached.group_left (h : Reached q n w) (hc : w.engine.current? c = some t)
    (hs : (w.strandOf c t).control = .steps (.groupRun g body :: rest)) (now : Nanos) :
    let called := w.actAt now (.carrier c)
    let below := Frame.rest rest :: (w.strandOf c t).frames
    (¬ w.engine.Admits t g → called.engine = w.engine ∧
      ∃ s, called.strand? t = some s ∧ s.control = .back ∧ s.frames = below) ∧
    (w.engine.Admits t g →
      (called.engine.groupOf t = some g ∧
        (∀ m k, m.task ≠ t → (m ∈ called.engine.membersOf k ↔ m ∈ w.engine.membersOf k)) ∧
        ∃ s top, called.strand? t = some s ∧ s.frames = top ++ .rest body :: .inGroup g :: below) ∧
      ∀ w₁ c₁ now₁, Reached q n w₁ → w₁.engine.current? c₁ = some t →
        (w₁.strandOf c₁ t).frames = .inGroup g :: below →
        (∀ l, (w₁.strandOf c₁ t).control ≠ .steps l) →
        (w₁.engine.groupOf t = some g ∨ OnlyRuns q) →
          let left := w₁.actAt now₁ (.carrier c₁)
          (∃ s, left.strand? t = some s ∧ s.frames = below) ∧
          left.engine.groupOf t = none ∧
          (∀ m k, m.task ≠ t → (m ∈ left.engine.membersOf k ↔ m ∈ w₁.engine.membersOf k)) ∧
          (left.engine.groupOf t = w.engine.groupOf t ∧
              (∀ m k, m.task = t → (m ∈ left.engine.membersOf k ↔ m ∈ w.engine.membersOf k)) ↔
            w.engine.groupOf t = none)) := by
  have hsettled := h.enrolled.settled
  have hsettled' := (h.act_current hc now).enrolled.settled
  refine ⟨fun hrefused => actAt_refused hc hs hrefused now, fun hadmits => ⟨?_, ?_⟩⟩
  · obtain ⟨hin, htransfers, hstrand⟩ := actAt_admitted hc hs hadmits now
    exact ⟨hin, fun m k hm => htransfers.mem_iff hsettled hsettled' hm, hstrand⟩
  · intro w₁ c₁ now₁ h₁ hc₁ hframes hcontrol hfound
    obtain ⟨⟨now', hdetach⟩, hstrand⟩ := actAt_part hc₁ hframes hcontrol now₁
    have hbefore := h₁.enrolled
    have hafter := (h₁.act_current hc₁ now₁).enrolled.settled
    -- the task is in no group but that of the run that ends
    have honly : ∀ k, w₁.engine.groupOf t = some k → g = k := by
      intro k hk
      rcases hfound with hin | hq
      · rw [hin] at hk
        exact Option.some.inj hk
      · refine hbefore.headed_strandOf hq c₁ t g k hk ?_
        rw [Strand.brackets, hframes]
        rfl
    have hnone : (w₁.actAt now₁ (.carrier c₁)).engine.groupOf t = none := by
      rw [hdetach]
      exact hbefore.settled.groupOf_detach honly now'
    have htransfers : Transfers t w₁.engine (w₁.actAt now₁ (.carrier c₁)).engine := by
      rw [hdetach]
      exact w₁.engine.transfers_detach now' t g
    refine ⟨hstrand, hnone, fun m k hm => htransfers.mem_iff hbefore.settled hafter hm,
      fun hsame => hsame.1.symm.trans hnone, fun hfree => ⟨hnone.trans hfree.symm, ?_⟩⟩
    intro m k hm
    exact iff_of_false (fun hin => hafter.not_mem hnone hin hm)
      fun hin => hsettled.not_mem hfree hin hm

/-- Within a run a task begins another in the same group, whose end takes it out. When the first run
ends as well the task is in no group, as it was before. -/
theorem group_left_nested : ∃ w w₁ : World Unit,
    Reached KeepsGroup 0 w ∧ Reached KeepsGroup 0 w₁ ∧ w.engine.current? 0 = some ⟨0⟩ ∧
      (w.strandOf 0 ⟨0⟩).control = .steps [.groupRun 0 [.groupRun 0 []]] ∧ w.engine.Admits ⟨0⟩ 0 ∧
      w₁.engine.current? 0 = some ⟨0⟩ ∧ w₁.engine.groupOf ⟨0⟩ = none ∧
      (w₁.actAt 0 (.carrier 0)).engine.groupOf ⟨0⟩ = w.engine.groupOf ⟨0⟩ := by
  have hstart : Engine.start (V := Option Unit) { workers := 1 } 1
      [{ bucket := Bucket.full 10 100 0 }] .absent = .ok _ := rfl
  have hscripts : ∀ x ∈ [("nested", ([.groupRun 0 [.groupRun 0 []]] : List (Step Unit)))],
      Step.AllOrdinary x.2 ∧ Step.AllFit KeepsGroup 0 x.2 := by
    simp [Step.AllOrdinary, Step.Ordinary, Step.AllFit, Step.Fits]
  have hmain : Step.AllOrdinary ([.submit "a" "nested" "a"] : List (Step Unit)) ∧
      Step.AllFit KeepsGroup 0 ([.submit "a" "nested" "a"] : List (Step Unit)) := by
    simp [Step.AllOrdinary, Step.Ordinary, Step.AllFit, Step.Fits, KeepsGroup]
  have h0 := Reached.create hstart
    (fun G hG => ⟨10, 100, 0, by rw [List.mem_singleton.mp hG]; rfl⟩) hscripts hmain true
  have h1 := h0.act 0 (.thread 0) (by rintro c ⟨⟩)
  have h2 := h1.act 0 (.carrier 0) (by rintro c ⟨⟩; decide +kernel)
  have h3 := h2.act_current (c := 0) (t := ⟨0⟩) (by decide +kernel) 0
  have h4 := h3.act_current (c := 0) (t := ⟨0⟩) (by decide +kernel) 0
  have h5 := h4.act_current (c := 0) (t := ⟨0⟩) (by decide +kernel) 0
  have h6 := h5.act_current (c := 0) (t := ⟨0⟩) (by decide +kernel) 0
  have h7 := h6.act_current (c := 0) (t := ⟨0⟩) (by decide +kernel) 0
  have h8 := h7.act_current (c := 0) (t := ⟨0⟩) (by decide +kernel) 0
  have h9 := h8.act_current (c := 0) (t := ⟨0⟩) (by decide +kernel) 0
  have h10 := h9.act_current (c := 0) (t := ⟨0⟩) (by decide +kernel) 0
  obtain ⟨-, hrun⟩ := h2.group_left (c := 0) (t := ⟨0⟩) (by decide +kernel) (by cbv) 0
  obtain ⟨-, hends⟩ := hrun (by decide +kernel)
  obtain ⟨-, -, -, hsame⟩ := hends _ 0 0 h10 (by decide +kernel) (by cbv)
    (fun l hl => by cbv at hl; cases hl) (.inr onlyRuns_keepsGroup)
  exact ⟨_, _, h2, h10, by decide +kernel, by cbv, by decide +kernel, by decide +kernel,
    by decide +kernel, (hsame.mpr (by decide +kernel)).1⟩

/-- A task whose work was submitted in a group runs an empty body in the same group, and is in no
group afterwards. -/
theorem group_lost_by_member : ∃ w : World Unit,
    Reached KeepsGroup 0 w ∧ w.engine.current? 0 = some ⟨0⟩ ∧
      (w.strandOf 0 ⟨0⟩).control = .steps [.groupRun 0 []] ∧ w.engine.groupOf ⟨0⟩ = some 0 ∧
      w.engine.membersOf 0 = [⟨⟨0⟩, 1⟩] ∧
      let left := Nat.repeat (World.actAt · 0 (.carrier 0)) 4 w
      (left.strandOf 0 ⟨0⟩).frames = .rest [] :: (w.strandOf 0 ⟨0⟩).frames ∧
        left.engine.groupOf ⟨0⟩ = none ∧ left.engine.membersOf 0 = [] := by
  have hstart : Engine.start (V := Option Unit) { workers := 1 } 1
      [{ bucket := Bucket.full 10 100 0 }] .absent = .ok _ := rfl
  have hscripts : ∀ x ∈ [("member", ([.groupRun 0 []] : List (Step Unit)))],
      Step.AllOrdinary x.2 ∧ Step.AllFit KeepsGroup 0 x.2 := by
    simp [Step.AllOrdinary, Step.Ordinary, Step.AllFit, Step.Fits]
  have hmain : Step.AllOrdinary ([.submitIn "a" "member" "a" 0] : List (Step Unit)) ∧
      Step.AllFit KeepsGroup 0 ([.submitIn "a" "member" "a" 0] : List (Step Unit)) := by
    simp [Step.AllOrdinary, Step.Ordinary, Step.AllFit, Step.Fits, KeepsGroup]
  have h0 := Reached.create hstart
    (fun G hG => ⟨10, 100, 0, by rw [List.mem_singleton.mp hG]; rfl⟩) hscripts hmain true
  have h1 := h0.act 0 (.thread 0) (by rintro c ⟨⟩)
  have h2 := h1.act 0 (.carrier 0) (by rintro c ⟨⟩; decide +kernel)
  exact ⟨_, h2, by decide +kernel, by cbv, by decide +kernel, by decide +kernel, by cbv,
    by decide +kernel, by decide +kernel⟩

end GreenThreads.World

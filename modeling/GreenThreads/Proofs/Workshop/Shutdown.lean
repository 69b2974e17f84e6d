import GreenThreads.Proofs.Ledger.Balance
import GreenThreads.Proofs.Workshop.Flow

/-!
# A shutdown leaves no accepted work behind

Whoever submits work counts it as outstanding first and looks then whether the engine accepts work;
a shutdown closes the engine first and counts the work that drains it then. So when that work finds
that nothing but itself is outstanding, there is nothing that was accepted and is not over, and
there never will be.
-/

namespace GreenThreads

/-- How far a submission is. -/
inductive OrderStage where
  /-- It is counted as outstanding. -/
  | counted
  /-- It has found the engine open. -/
  | admitted
  /-- It has found its group open, if there is one. -/
  | cleared
  /-- It is to be taken back. -/
  | refused
deriving DecidableEq, Repr

/-- A submission that is under way. -/
structure Order where
  caller : Option TaskId
  name : String
  group : Option GroupId
  /-- It is that of the work that drains the engine. -/
  drains : Bool
  stage : OrderStage
deriving DecidableEq, Repr

namespace Engine

variable {V : Type} {e e' e'' : Engine V} {t : TaskId} {c : Nat}

/-- `e'` is as open as `e`, and has as much work outstanding. -/
structure SameGate (e e' : Engine V) : Prop where
  outstanding : e'.outstanding = e.outstanding
  accepting : e'.accepting = e.accepting
  terminated : e'.terminated = e.terminated

theorem SameGate.refl (e : Engine V) : SameGate e e := ⟨rfl, rfl, rfl⟩

theorem SameGate.trans (h : SameGate e e') (h' : SameGate e' e'') : SameGate e e'' :=
  ⟨h'.outstanding.trans h.outstanding, h'.accepting.trans h.accepting,
    h'.terminated.trans h.terminated⟩

theorem Nudges.sameGate (h : Nudges e e') : SameGate e e' := by
  refine h.induct .refl .trans fun hn => ?_
  cases hn <;> exact ⟨rfl, rfl, rfl⟩

theorem Taken.sameGate {r : Runnable} (h : e.Taken c r e') : SameGate e e' := by
  obtain ⟨carriers, shared, rfl⟩ := h.eq
  exact ⟨rfl, rfl, rfl⟩

theorem Obtained.sameGate (h : e.Obtained t e') : SameGate e e' := by
  cases h with
  | fresh => exact ⟨rfl, rfl, rfl⟩
  | pooled h =>
      obtain ⟨carriers, pool, rfl⟩ := h.eq
      exact ⟨rfl, rfl, rfl⟩

theorem sameGate_enroll (e : Engine V) (now : Nanos) (t : TaskId) (g : GroupId) :
    SameGate e (e.enroll now t g) := by
  unfold enroll
  split
  · split <;> exact ⟨rfl, rfl, rfl⟩
  · exact .refl e

theorem sameGate_detach (e : Engine V) (now : Nanos) (t : TaskId) (g : GroupId) :
    SameGate e (e.detach now t g) := by
  unfold detach
  split <;> exact ⟨rfl, rfl, rfl⟩

theorem sameGate_recycle (e : Engine V) (c : Nat) (t : TaskId) : SameGate e (e.recycle c t) := by
  obtain ⟨n, carriers, pool, stats, hrecycle⟩ := recycle_eq e c t
  rw [hrecycle]
  exact ⟨rfl, rfl, rfl⟩

theorem sameGate_place (e : Engine V) (caller : Option TaskId) (s : Submission) :
    SameGate e (e.place caller s) := by
  obtain ⟨carriers, shared, hplace⟩ := place_eq e caller s
  rw [hplace]
  exact ⟨rfl, rfl, rfl⟩

end Engine

namespace Workshop

open Engine

variable {V : Type} {w w' : Workshop V}

/-- What carriers and tasks do does not close the engine, and it counts down with every piece of
work that is settled. -/
theorem Work.gate (h : Work w w') :
    w.engine.SameGate w'.engine ∧ w'.settled = w.settled ∨
    SameGate { w.engine with outstanding := w.engine.outstanding - 1 } w'.engine ∧
      ∃ j, w'.settled = j :: w.settled := by
  cases h with
  | take _ ht => exact .inl ⟨ht.sameGate, rfl⟩
  | obtain _ _ ho => exact .inl ⟨ho.sameGate, rfl⟩
  | give | bind | pass | knock | run | enter | finish => exact .inl ⟨⟨rfl, rfl, rfl⟩, rfl⟩
  | @enroll s g _ now => exact .inl ⟨sameGate_enroll w.engine now s.task g, rfl⟩
  | @detach c s g now => exact .inl ⟨sameGate_detach w.engine now s.task g, rfl⟩
  | abandon => exact .inr ⟨⟨rfl, rfl, rfl⟩, _, rfl⟩
  | @exit c s =>
      have hover : SameGate { w.engine with outstanding := w.engine.outstanding - 1 }
          (w.engine.signOff s.task) := ⟨rfl, rfl, rfl⟩
      exact .inr ⟨hover.trans (sameGate_recycle (w.engine.signOff s.task) c s.task), _, rfl⟩

end Workshop

/-- A workshop with those who submit work and those who shut the engine down. -/
structure Intake (V : Type) where
  shop : Workshop V
  /-- The submissions that are under way. -/
  orders : List Order := []
  /-- Those who have closed the engine and have yet to submit the work that drains it. -/
  closers : List (Option TaskId) := []
  /-- The work that drains the engine. -/
  drains : List JobId := []
  /-- That work has found nothing else outstanding. -/
  alone : Bool := false

namespace Intake

open Engine

variable {V : Type} {i i' : Intake V} {w : Workshop V} {e : Engine V} {o : Order} {s : Stint}
  {caller : Option TaskId} {name : String} {group : Option GroupId} {p : OrderStage} {j : JobId}

/-- The engine of an intake. -/
abbrev engine (i : Intake V) : Engine V := i.shop.engine

/-- A submission gets on. -/
def advance (i : Intake V) (o : Order) (p : OrderStage) : Intake V :=
  { i with orders := { o with stage := p } :: i.orders.erase o }

/-- One more piece of work is counted as outstanding. -/
def raise (i : Intake V) (o : Order) : Intake V :=
  { i with
    shop := i.shop.put { i.engine with outstanding := i.engine.outstanding + 1 }
    orders := o :: i.orders }

/-- What can happen at once. Pieces of work take up memory, so that there are fewer than there are
numbers to count them. A shutdown that finds the engine closed does nothing. -/
inductive Step : Intake V → Intake V → Prop
  | aside {i : Intake V} {w : Workshop V} (h : i.shop.Aside w) (gate : i.engine.SameGate w.engine) :
      Step i { i with shop := w }
  | work {i : Intake V} {w : Workshop V} (h : i.shop.Work w) : Step i { i with shop := w }
  -- A submission
  | count {i : Intake V} (caller : Option TaskId) (name : String) (group : Option GroupId)
      (room : i.engine.outstanding.toNat + 1 < 2 ^ 64) :
      Step i (i.raise ⟨caller, name, group, false, .counted⟩)
  | approve {i : Intake V} {o : Order} (on : o ∈ i.orders) (stage : o.stage = .counted)
      (stands : o.drains = true ∨ i.engine.accepting = true) : Step i (i.advance o .admitted)
  | refuse {i : Intake V} {o : Order} (on : o ∈ i.orders) (stage : o.stage = .counted)
      (outside : o.drains = false) (closed : i.engine.accepting = false) :
      Step i (i.advance o .refused)
  | clear {i : Intake V} {o : Order} (on : o ∈ i.orders) (stage : o.stage = .admitted)
      (stands : i.engine.isGone o.group = false) : Step i (i.advance o .cleared)
  | spurn {i : Intake V} {o : Order} (on : o ∈ i.orders) (stage : o.stage = .admitted)
      (gone : i.engine.isGone o.group = true) : Step i (i.advance o .refused)
  | lower {i : Intake V} {o : Order} (on : o ∈ i.orders) (stage : o.stage = .refused) :
      Step i { i with
        shop := i.shop.put
          ({ i.engine with outstanding := i.engine.outstanding - 1 }.count .tasksRejected)
        orders := i.orders.erase o }
  /-- The work is put into a run queue; who submits it from inside is a task that has work. -/
  | place {i : Intake V} {o : Order} (on : o ∈ i.orders) (stage : o.stage = .cleared)
      (here : ∀ t, o.caller = some t → ∃ s ∈ i.shop.bench, s.task = t) :
      Step i { i with
        shop := i.shop.place o.caller o.name o.group
        orders := i.orders.erase o
        drains := if o.drains then i.engine.jobs.size :: i.drains else i.drains }
  -- A shutdown
  | close {i : Intake V} (caller : Option TaskId) (stands : i.engine.accepting = true) :
      Step i { i with
        shop := i.shop.put { i.engine with accepting := false }
        closers := caller :: i.closers }
  | countDrain {i : Intake V} {caller : Option TaskId} (on : caller ∈ i.closers)
      (room : i.engine.outstanding.toNat + 1 < 2 ^ 64) :
      Step i { i.raise ⟨caller, drainName, none, true, .counted⟩ with
        closers := i.closers.erase caller }
  -- The work that drains the engine
  | look {i : Intake V} {s : Stint} (on : s ∈ i.shop.bench) (mine : s.work.job ∈ i.drains)
      (stage : s.stage = .running) (last : i.engine.outstanding ≤ 1) :
      Step i { i with alone := true }
  | terminate {i : Intake V} (alone : i.alone = true) :
      Step i { i with shop := i.shop.put { i.engine with terminated := true } }

/-- What can be reached from an engine that starts. -/
inductive Reached : Intake V → Prop
  | start {config : Config} {processors : Nat} {groups : List ControlGroup} {pump : EventPump}
      {e : Engine V} (h : Engine.start config processors groups pump = .ok e) :
      Reached { shop := { floor := Floor.quiet e } }
  | step {i i' : Intake V} (h : Reached i) (s : Step i i') : Reached i'

/-! ## What the counter says -/

/-- What holds between any two steps. -/
structure Sound (i : Intake V) : Prop where
  shop : i.shop.Sound
  /-- Outstanding is what is not over, with what is being submitted. -/
  outstanding : i.engine.outstanding.toNat + i.shop.settled.length =
    i.engine.jobs.size + i.orders.length
  /-- The submission of the work that drains the engine is never refused. -/
  inside : ∀ o ∈ i.orders, o.drains = true → o.group = none ∧ o.stage ≠ .refused
  /-- A closed engine is drained once. -/
  closed : i.closers.length + i.orders.countP (·.drains) + i.drains.length =
    (!i.engine.accepting).toNat
  last : i.alone = true → i.drains ≠ [] ∧ i.shop.pending = [] ∧ (∀ j ∈ i.shop.tasked, j ∈ i.drains) ∧
    ∀ o ∈ i.orders, o.stage = .counted ∨ o.stage = .refused
  drained : i.engine.terminated = true → i.alone = true

theorem toNat_succ {n : UInt64} (h : n.toNat + 1 < 2 ^ 64) : (n + 1).toNat = n.toNat + 1 := by
  rw [UInt64.toNat_add]
  exact Nat.mod_eq_of_lt h

theorem toNat_pred {n : UInt64} (h : 0 < n.toNat) : (n - 1).toNat = n.toNat - 1 :=
  UInt64.toNat_sub_of_le n 1 (UInt64.le_iff_toNat_le.mpr h)

namespace Sound

theorem start {config : Config} {processors : Nat} {groups : List ControlGroup} {pump : EventPump}
    (h : Engine.start config processors groups pump = .ok e) :
    Sound { shop := { floor := Floor.quiet e } } := by
  have hopen : e.outstanding = 0 ∧ e.jobs = #[] ∧ e.accepting = true ∧ e.terminated = false := by
    rw [start_eq h]
    exact ⟨rfl, rfl, rfl, rfl⟩
  obtain ⟨houtstanding, hjobs, haccepting, hterminated⟩ := hopen
  refine ⟨.start h, ?_, fun _ ho => (List.not_mem_nil ho).elim, ?_, Bool.noConfusion, fun ht => ?_⟩
  · have hcount : e.outstanding.toNat + 0 = e.jobs.size + 0 := by
      rw [houtstanding, hjobs]
      rfl
    exact hcount
  · have hclosed : 0 = (!e.accepting).toNat := by
      rw [haccepting]
      rfl
    exact hclosed
  · have hterminated' : e.terminated = true := ht
    rw [hterminated] at hterminated'
    cases hterminated'

/-! ## Workshops -/

theorem aside (h : Sound i) (ha : i.shop.Aside w) (gate : i.engine.SameGate w.engine) :
    Sound { i with shop := w } := by
  have htasked : w.tasked = i.shop.tasked := congrArg (List.map _) ha.bench
  refine ⟨h.shop.aside ha, ?_, h.inside, ?_, fun hl => ?_, fun ht => ?_⟩
  · have hcount := h.outstanding
    rw [show w.engine.outstanding = _ from gate.outstanding, ha.settled, ha.steady.files]
    exact hcount
  · rw [show w.engine.accepting = _ from gate.accepting]
    exact h.closed
  · obtain ⟨hdrains, hpending, hmine, horders⟩ := h.last hl
    refine ⟨hdrains, ha.pending.trans hpending, ?_, horders⟩
    rw [htasked]
    exact hmine
  · exact h.drained (gate.terminated.symm.trans ht)

theorem work (h : Sound i) (hw : i.shop.Work w) : Sound { i with shop := w } := by
  have hshop := h.shop.work hw
  have hsize := hw.files
  have hgate : w.engine.accepting = i.engine.accepting ∧
      w.engine.terminated = i.engine.terminated := by
    rcases hw.gate with ⟨hgate, -⟩ | ⟨hgate, -⟩
    · exact ⟨hgate.accepting, hgate.terminated⟩
    · exact ⟨hgate.accepting, hgate.terminated⟩
  refine ⟨hshop, ?_, h.inside, ?_, fun hl => ?_, fun ht => h.drained (hgate.2.symm.trans ht)⟩
  · have hold : i.shop.engine.outstanding.toNat + i.shop.settled.length =
        i.shop.engine.jobs.size + i.orders.length := h.outstanding
    have hlength := hshop.length
    have hnext : w.engine.outstanding.toNat + w.settled.length =
        w.engine.jobs.size + i.orders.length := by
      rcases hw.gate with ⟨hgate, hsettled⟩ | ⟨hgate, j, hsettled⟩
      · rw [hgate.outstanding, hsettled, hsize]
        exact hold
      · rw [hsettled, List.length_cons] at hlength ⊢
        rw [hgate.outstanding, toNat_pred (by omega)]
        omega
    exact hnext
  · rw [hgate.1]
    exact h.closed
  · obtain ⟨hdrains, hpending, hmine, horders⟩ := h.last hl
    refine ⟨hdrains, ?_, ?_, horders⟩
    · rw [List.eq_nil_iff_forall_not_mem]
      intro j hj
      have hold := hw.pending hj
      rw [hpending] at hold
      cases hold
    · intro j hj
      obtain ⟨s', hs', rfl⟩ := List.mem_map.mp hj
      rcases hw.origin hs' with ⟨s, hs, -, hwork, -⟩ | ⟨-, c, at_⟩
      · rw [← hwork]
        exact hmine _ (List.mem_map_of_mem hs)
      · have hhand : s'.work.job ∈ i.shop.pending :=
          List.mem_map_of_mem (List.mem_append_left _ (Floor.mem_hands at_ (.head _)))
        rw [hpending] at hhand
        cases hhand

/-! ## Submissions -/

/-- Whoever looks finds that the engine is not drained yet. -/
theorem alone_eq_false (h : Sound i) (hopen : i.engine.accepting = true) : i.alone = false := by
  cases halone : i.alone with
  | false => rfl
  | true =>
      have hclosed := h.closed
      have hdrains := List.length_pos_of_ne_nil (h.last halone).1
      rw [hopen] at hclosed
      simp only [Bool.not_true, Bool.toNat_false] at hclosed
      omega

/-- Once the engine is drained there is no submission of the work that drains it. -/
theorem drains_eq_false (h : Sound i) (hl : i.alone = true) (on : o ∈ i.orders) :
    o.drains = false := by
  cases hdrains : o.drains with
  | false => rfl
  | true =>
      have hclosed := h.closed
      have hpos := List.length_pos_of_ne_nil (h.last hl).1
      have hcount : 0 < i.orders.countP (·.drains) := List.countP_pos_iff.mpr ⟨o, on, hdrains⟩
      have hone := Bool.toNat_le (!i.engine.accepting)
      omega

theorem raise (h : Sound i) (room : i.engine.outstanding.toNat + 1 < 2 ^ 64) (o : Order)
    (hstage : o.stage = .counted) (hinside : o.drains = true → o.group = none)
    {closers : List (Option TaskId)} (hclosers : closers.length + o.drains.toNat = i.closers.length) :
    Sound { i.raise o with closers := closers } := by
  have hframe : i.engine.Frame { i.engine with outstanding := i.engine.outstanding + 1 } :=
    frame_of_eq rfl rfl rfl rfl rfl (fun _ h => .inl h) rfl
  refine ⟨h.shop.put hframe (steady_of_eq rfl rfl rfl) rfl, ?_, fun o' ho' hd => ?_, ?_,
    fun hl => ?_, h.drained⟩
  · have hcount := h.outstanding
    have hnext : (i.engine.outstanding + 1).toNat + i.shop.settled.length =
        i.engine.jobs.size + (o :: i.orders).length := by
      rw [toNat_succ room, List.length_cons]
      omega
    exact hnext
  · cases ho' with
    | head => exact ⟨hinside hd, by rw [hstage]; exact OrderStage.noConfusion⟩
    | tail _ ho' => exact h.inside o' ho' hd
  · have hclosed := h.closed
    have hcons : (o :: i.orders).countP (·.drains) =
        i.orders.countP (·.drains) + o.drains.toNat := by
      rw [List.countP_cons]
      cases o.drains <;> rfl
    have hnext : closers.length + (o :: i.orders).countP (·.drains) + i.drains.length =
        (!i.engine.accepting).toNat := by omega
    exact hnext
  · obtain ⟨hdrains, hpending, hmine, horders⟩ := h.last hl
    refine ⟨hdrains, hpending, hmine, fun o' ho' => ?_⟩
    cases ho' with
    | head => exact .inl hstage
    | tail _ ho' => exact horders o' ho'

theorem advance (h : Sound i) (on : o ∈ i.orders) (hinside : o.drains = true → p ≠ .refused)
    (hlate : i.alone = true → p = .counted ∨ p = .refused) : Sound (i.advance o p) := by
  have hperm : i.orders.Perm (o :: i.orders.erase o) := List.perm_cons_erase on
  refine ⟨h.shop, ?_, fun o' ho' hd => ?_, ?_, fun hl => ?_, h.drained⟩
  · have hlength := hperm.length_eq
    have hcount := h.outstanding
    have hnext : i.engine.outstanding.toNat + i.shop.settled.length =
        i.engine.jobs.size + ({ o with stage := p } :: i.orders.erase o).length := by
      rw [hcount, hlength]
      rfl
    exact hnext
  · cases ho' with
    | head => exact ⟨(h.inside o on hd).1, hinside hd⟩
    | tail _ ho' => exact h.inside o' (List.mem_of_mem_erase ho') hd
  · have hsame : ({ o with stage := p } :: i.orders.erase o).countP (·.drains) =
        i.orders.countP (·.drains) := by
      rw [hperm.countP_eq, List.countP_cons, List.countP_cons]
    have hclosed := h.closed
    rw [← hsame] at hclosed
    exact hclosed
  · obtain ⟨hdrains, hpending, hmine, horders⟩ := h.last hl
    refine ⟨hdrains, hpending, hmine, fun o' ho' => ?_⟩
    cases ho' with
    | head => exact hlate hl
    | tail _ ho' => exact horders o' (List.mem_of_mem_erase ho')

theorem countP_erase (on : o ∈ i.orders) :
    (i.orders.erase o).countP (·.drains) + o.drains.toNat = i.orders.countP (·.drains) := by
  rw [(List.perm_cons_erase on).countP_eq, List.countP_cons]
  cases o.drains <;> rfl

theorem lower (h : Sound i) (on : o ∈ i.orders) (stage : o.stage = .refused) : Sound { i with
    shop := i.shop.put
      ({ i.engine with outstanding := i.engine.outstanding - 1 }.count .tasksRejected)
    orders := i.orders.erase o } := by
  have hframe : i.engine.Frame
      ({ i.engine with outstanding := i.engine.outstanding - 1 }.count .tasksRejected) :=
    frame_of_eq rfl rfl rfl rfl rfl (fun _ h => .inl h) rfl
  have outside : o.drains = false := by
    cases hdrains : o.drains with
    | false => rfl
    | true => exact absurd stage (h.inside o on hdrains).2
  refine ⟨h.shop.put hframe (steady_of_eq rfl rfl rfl) rfl, ?_,
    fun o' ho' => h.inside o' (List.mem_of_mem_erase ho'), ?_, fun hl => ?_, h.drained⟩
  · have hcount : i.shop.engine.outstanding.toNat + i.shop.settled.length =
        i.shop.engine.jobs.size + i.orders.length := h.outstanding
    have hlength := h.shop.length
    have herase := List.length_erase_of_mem on
    have hpos := List.length_pos_of_mem on
    have hnext : (i.shop.engine.outstanding - 1).toNat + i.shop.settled.length =
        i.shop.engine.jobs.size + (i.orders.erase o).length := by
      rw [toNat_pred (by omega)]
      omega
    exact hnext
  · have hclosed := h.closed
    have herase := countP_erase on
    rw [outside, Bool.toNat_false, Nat.add_zero] at herase
    rw [← herase] at hclosed
    exact hclosed
  · obtain ⟨hdrains, hpending, hmine, horders⟩ := h.last hl
    exact ⟨hdrains, hpending, hmine, fun o' ho' => horders o' (List.mem_of_mem_erase ho')⟩

theorem place (h : Sound i) (on : o ∈ i.orders) (stage : o.stage = .cleared)
    (here : ∀ t, o.caller = some t → ∃ s ∈ i.shop.bench, s.task = t) : Sound { i with
      shop := i.shop.place o.caller o.name o.group
      orders := i.orders.erase o
      drains := if o.drains then i.engine.jobs.size :: i.drains else i.drains } := by
  have hmade : i.shop.engine.SameGate (i.shop.engine.makeJob.1.count .tasksSubmitted) :=
    ⟨rfl, rfl, rfl⟩
  obtain ⟨houtstanding, haccepting, hterminated⟩ :
      i.shop.engine.SameGate (i.shop.place o.caller o.name o.group).engine :=
    hmade.trans (sameGate_place _ o.caller _)
  refine ⟨h.shop.place here o.name o.group, ?_,
    fun o' ho' => h.inside o' (List.mem_of_mem_erase ho'), ?_, fun hl => ?_,
    fun ht => h.drained (hterminated.symm.trans ht)⟩
  · have hcount : i.shop.engine.outstanding.toNat + i.shop.settled.length =
        i.shop.engine.jobs.size + i.orders.length := h.outstanding
    have herase := List.length_erase_of_mem on
    have hpos := List.length_pos_of_mem on
    have hsize : (i.shop.place o.caller o.name o.group).engine.jobs.size =
        i.shop.engine.jobs.size + 1 := by rw [Workshop.jobs_place, Array.size_push]
    have hnext : (i.shop.place o.caller o.name o.group).engine.outstanding.toNat +
        i.shop.settled.length =
          (i.shop.place o.caller o.name o.group).engine.jobs.size + (i.orders.erase o).length := by
      rw [houtstanding, hsize]
      omega
    exact hnext
  · have hclosed := h.closed
    have herase := countP_erase on
    rw [← haccepting] at hclosed
    have hnext : i.closers.length + (i.orders.erase o).countP (·.drains) +
        (if o.drains then i.engine.jobs.size :: i.drains else i.drains).length =
          (!(i.shop.place o.caller o.name o.group).engine.accepting).toNat := by
      cases hdrains : o.drains with
      | false =>
          simp only [hdrains, Bool.toNat_false, Bool.false_eq_true, ↓reduceIte] at herase ⊢
          omega
      | true =>
          simp only [hdrains, Bool.toNat_true, ↓reduceIte, List.length_cons] at herase ⊢
          omega
    exact hnext
  · rcases (h.last hl).2.2.2 o on with hcounted | hrefused
    · rw [stage] at hcounted
      cases hcounted
    · rw [stage] at hrefused
      cases hrefused

/-! ## Shutdowns -/

theorem close (h : Sound i) (caller : Option TaskId) (stands : i.engine.accepting = true) :
    Sound { i with
      shop := i.shop.put { i.engine with accepting := false }
      closers := caller :: i.closers } := by
  have hframe : i.engine.Frame { i.engine with accepting := false } :=
    frame_of_eq rfl rfl rfl rfl rfl (fun _ h => .inl h) rfl
  refine ⟨h.shop.put hframe (steady_of_eq rfl rfl rfl) rfl, h.outstanding, h.inside, ?_,
    fun hl => ?_, h.drained⟩
  · have hclosed := h.closed
    rw [stands, Bool.not_true, Bool.toNat_false] at hclosed
    have hnext : (caller :: i.closers).length + i.orders.countP (·.drains) + i.drains.length = 1 := by
      rw [List.length_cons]
      omega
    exact hnext
  · have halone : i.alone = true := hl
    rw [h.alone_eq_false stands] at halone
    cases halone

/-- Nothing is outstanding but the work that looks. -/
theorem look (h : Sound i) (on : s ∈ i.shop.bench) (mine : s.work.job ∈ i.drains)
    (last : i.engine.outstanding ≤ 1) : Sound { i with alone := true } := by
  have hcount : i.shop.engine.outstanding.toNat + i.shop.settled.length =
      i.shop.engine.jobs.size + i.orders.length := h.outstanding
  have hlength := h.shop.length
  have hlast : i.shop.engine.outstanding.toNat ≤ 1 := UInt64.le_iff_toNat_le.mp last
  have hmem : s.work.job ∈ i.shop.tasked := List.mem_map_of_mem on
  have hpos := List.length_pos_of_mem hmem
  have hpending : i.shop.pending.length = 0 := by omega
  have htasked : i.shop.tasked.length = 1 := by omega
  have horders : i.orders.length = 0 := by omega
  refine ⟨h.shop, h.outstanding, h.inside, h.closed,
    fun _ => ⟨List.ne_nil_of_mem mine, List.length_eq_zero_iff.mp hpending, fun j hj => ?_,
      fun o ho => ?_⟩, fun _ => rfl⟩
  · obtain ⟨k, hk⟩ := List.length_eq_one_iff.mp htasked
    have hj : j ∈ i.shop.tasked := hj
    rw [hk, List.mem_singleton] at hj hmem
    rw [hj, ← hmem]
    exact mine
  · rw [List.length_eq_zero_iff.mp horders] at ho
    cases ho

theorem terminate (h : Sound i) (alone : i.alone = true) :
    Sound { i with shop := i.shop.put { i.engine with terminated := true } } := by
  have hframe : i.engine.Frame { i.engine with terminated := true } :=
    frame_of_eq rfl rfl rfl rfl rfl (fun _ h => .inl h) rfl
  exact ⟨h.shop.put hframe (steady_of_eq rfl rfl rfl) rfl, h.outstanding, h.inside, h.closed, h.last,
    fun _ => alone⟩

theorem step (h : Sound i) (hs : Step i i') : Sound i' := by
  cases hs with
  | aside ha gate => exact h.aside ha gate
  | work hw => exact h.work hw
  | count caller name group room => exact h.raise room _ rfl Bool.noConfusion rfl
  | approve on stage stands =>
      refine h.advance on (fun _ => OrderStage.noConfusion) fun hl => ?_
      rcases stands with hdrains | hopen
      · rw [h.drains_eq_false hl on] at hdrains
        cases hdrains
      · rw [h.alone_eq_false hopen] at hl
        cases hl
  | refuse on stage outside =>
      refine h.advance on (fun hdrains => ?_) fun _ => .inr rfl
      rw [outside] at hdrains
      cases hdrains
  | clear on stage =>
      refine h.advance on (fun _ => OrderStage.noConfusion) fun hl => ?_
      rcases (h.last hl).2.2.2 _ on with hcounted | hrefused
      · rw [stage] at hcounted
        cases hcounted
      · rw [stage] at hrefused
        cases hrefused
  | spurn on stage gone =>
      refine h.advance on (fun hdrains => ?_) fun _ => .inr rfl
      rw [(h.inside _ on hdrains).1] at gone
      cases gone
  | lower on stage => exact h.lower on stage
  | place on stage here => exact h.place on stage here
  | close caller stands => exact h.close caller stands
  | countDrain on room =>
      refine h.raise room _ rfl (fun _ => rfl) ?_
      have herase := List.length_erase_of_mem on
      have hpos := List.length_pos_of_mem on
      rw [Bool.toNat_true]
      omega
  | look on mine _ last => exact h.look on mine last
  | terminate alone => exact h.terminate alone

end Sound

theorem Reached.sound (h : Reached i) : Sound i := by
  induction h with
  | start hstart => exact .start hstart
  | step _ hs ih => exact ih.step hs

/-! ## What an engine does -/

theorem Reached.nudged {e : Engine V} (h : Reached i) (hf : i.engine.Frame e)
    (hn : i.engine.Nudges e) : Reached { i with shop := i.shop.put e } :=
  h.step (.aside (Workshop.aside_floor (.other hf) rfl hn.steady hn.sameWork.starts) hn.sameGate)

theorem advance_raise : (i.raise o).advance o p = i.raise { o with stage := p } := by
  simp only [advance, Intake.raise, List.erase_cons_head]

/-- A submission that is counted and that nobody interrupts is accepted, if it may be. -/
theorem Reached.accept (h : Reached (i.raise o)) (stage : o.stage = .counted)
    (here : ∀ t, o.caller = some t → ∃ s ∈ i.shop.bench, s.task = t)
    (stands : o.drains = true ∨ i.engine.accepting = true) (clear : i.engine.isGone o.group = false) :
    Reached { i with
      shop := i.shop.put (i.engine.accept o.caller o.name o.group).1
      drains := if o.drains then i.engine.jobs.size :: i.drains else i.drains } := by
  have hadmitted := h.step (.approve (.head _) stage stands)
  rw [advance_raise] at hadmitted
  have hcleared := hadmitted.step (.clear (.head _) rfl clear)
  rw [advance_raise] at hcleared
  have hplaced := hcleared.step (.place (.head _) rfl here)
  simp only [Intake.raise, List.erase_cons_head] at hplaced
  exact hplaced

/-- A submission that is refused is taken back. -/
theorem Reached.reject (h : Reached (i.raise o)) (stage : o.stage = .refused) :
    Reached { i with shop := i.shop.put (i.engine.count .tasksRejected) } := by
  have hlowered := h.step (.lower (.head _) stage)
  simp only [Intake.raise, List.erase_cons_head, Workshop.put, engine, UInt64.add_sub_cancel]
    at hlowered
  exact hlowered

/-- A submission that nobody interrupts is that of the engine. -/
theorem Reached.submit (h : Reached i) (caller : Option TaskId) (name : String)
    (group : Option GroupId) (room : i.engine.outstanding.toNat + 1 < 2 ^ 64)
    (here : ∀ t, caller = some t → ∃ s ∈ i.shop.bench, s.task = t) :
    Reached { i with shop := i.shop.put (i.engine.submit caller name group).1 } := by
  have hcounted := h.step (.count caller name group room)
  unfold Engine.submit
  by_cases hopen : i.engine.accepting = true
  · cases hgone : i.engine.isGone group with
    | true =>
        have hadmitted := hcounted.step (.approve (.head _) rfl (.inr hopen))
        rw [advance_raise] at hadmitted
        have hspurned := hadmitted.step (.spurn (.head _) rfl hgone)
        rw [advance_raise] at hspurned
        rw [if_pos (.inr rfl)]
        exact hspurned.reject rfl
    | false =>
        rw [if_neg (by simp [hopen])]
        exact hcounted.accept rfl here (.inr hopen) hgone
  · have hclosed := Bool.eq_false_iff.mpr hopen
    have hrefused := hcounted.step (.refuse (.head _) rfl rfl hclosed)
    rw [advance_raise] at hrefused
    rw [if_pos (.inl hclosed)]
    exact hrefused.reject rfl

/-- A shutdown that nobody interrupts is that of the engine. -/
theorem Reached.shutdown (h : Reached i) (caller : Option TaskId)
    (room : i.engine.outstanding.toNat + 1 < 2 ^ 64)
    (here : ∀ t, caller = some t → ∃ s ∈ i.shop.bench, s.task = t) :
    Reached { i with
      shop := i.shop.put (i.engine.shutdown caller).1
      drains := (i.engine.shutdown caller).2.toList ++ i.drains } := by
  unfold Engine.shutdown
  split
  · next hopen =>
      have hcounted := (h.step (.close caller hopen)).step (.countDrain (.head _) room)
      rw [List.erase_cons_head] at hcounted
      exact Reached.accept (i := { i with shop := i.shop.put { i.engine with accepting := false } })
        hcounted rfl here (.inl rfl) rfl
  · exact h

/-! ## Nothing is left behind -/

theorem Reached.later (h : Reached i) (hlater : Relation.ReflTransGen Step i i') : Reached i' := by
  induction hlater with
  | refl => exact h
  | tail _ hs ih => exact ih.step hs

/-- Once the engine is drained it accepts no more work. -/
theorem Sound.sealed (h : Sound i) (hl : i.alone = true) (hs : Step i i') :
    i'.alone = true ∧ i'.drains = i.drains ∧ i'.engine.jobs.size = i.engine.jobs.size := by
  cases hs with
  | aside ha => exact ⟨hl, rfl, ha.steady.files⟩
  | work hw => exact ⟨hl, rfl, hw.files⟩
  | place on stage =>
      rcases (h.last hl).2.2.2 _ on with hcounted | hrefused
      · rw [stage] at hcounted
        cases hcounted
      · rw [stage] at hrefused
        cases hrefused
  | look => exact ⟨rfl, rfl, rfl⟩
  | _ => exact ⟨hl, rfl, rfl⟩

/-- The engine is drained at most once. When it is terminated, all work that was accepted, but for
that which drains the engine, is over, no more is ever accepted, and no entry of any other work is
in a run queue, now and ever after. -/
theorem Reached.strands_nothing (h : Reached i) :
    i.drains.length ≤ 1 ∧ (i.engine.terminated = true →
      (∀ j cell, i.engine.jobs[j]? = some cell → j ∉ i.drains → cell.done = true) ∧
      ∀ i', Relation.ReflTransGen Step i i' →
        i'.drains = i.drains ∧ i'.engine.jobs.size = i.engine.jobs.size ∧ i'.engine.starts = [] ∧
        ∀ t, 0 < i'.engine.queued t → ∃ j ∈ i.drains, i'.engine.jobOf t = some j) := by
  have hsound := h.sound
  refine ⟨?_, fun hterminated => ⟨fun j cell hj hother => ?_, fun i' hlater => ?_⟩⟩
  · have hclosed := hsound.closed
    have hone := Bool.toNat_le (!i.engine.accepting)
    omega
  · obtain ⟨-, hpending, hmine, -⟩ := hsound.last (hsound.drained hterminated)
    rcases hsound.shop.cases (Array.getElem?_eq_some_iff.mp hj).1 with hwaits | htasked | hsettled
    · rw [hpending] at hwaits
      cases hwaits
    · exact absurd (hmine j htasked) hother
    · exact hsound.shop.done j hsettled cell hj
  · have hsealed : i'.alone = true ∧ i'.drains = i.drains ∧
        i'.engine.jobs.size = i.engine.jobs.size := by
      induction hlater with
      | refl => exact ⟨hsound.drained hterminated, rfl, rfl⟩
      | tail hbefore hs ih =>
          obtain ⟨halone, hdrains, hsize⟩ := ih
          obtain ⟨halone', hdrains', hsize'⟩ := (h.later hbefore).sound.sealed halone hs
          exact ⟨halone', hdrains'.trans hdrains, hsize'.trans hsize⟩
    obtain ⟨halone, hdrains, hsize⟩ := hsealed
    have hsound' := (h.later hlater).sound
    obtain ⟨-, hpending, hmine, -⟩ := hsound'.last halone
    refine ⟨hdrains, hsize, ?_, fun t hqueued => ?_⟩
    · exact (List.append_eq_nil_iff.mp (List.map_eq_nil_iff.mp hpending)).2
    · have hlaw := hsound'.shop.floor.sound.law t
      have hqueued : 0 < i'.shop.floor.engine.queued t := hqueued
      rw [Floor.lying] at hlaw
      obtain ⟨x, hx, halive⟩ := exists_of_flag_pos
        (show 0 < i'.shop.floor.engine.flag t (·.status == .alive) by omega)
      obtain ⟨s, hs, rfl⟩ := hsound'.shop.exists_stint hx (by simpa using halive)
      obtain ⟨y, cell, hy, hjob, -⟩ := hsound'.shop.duty s hs
      refine ⟨s.work.job, hdrains ▸ hmine _ (List.mem_map_of_mem hs), ?_⟩
      rw [jobOf, hy, Option.bind_some, hjob]

/-- A piece of work is submitted, and the engine is shut down at once. The work runs nevertheless,
and then the work that drains the engine finds itself alone. -/
theorem strands_nothing_after_work : ∃ i : Intake Unit, Reached i ∧ i.engine.terminated = true ∧
    i.engine.jobs.size = 2 ∧ i.drains = [1] ∧ i.drains.length ≤ 1 ∧ i.engine.starts = [] ∧
    ∃ cell, i.engine.jobs[0]? = some cell ∧ cell.done = true := by
  have h0 := Reached.start (V := Unit)
    (show Engine.start { carrierCache := 1, globalCache := 0 } 1 [] .absent = .ok _ from rfl)
  have h1 := h0.submit none "work" none (by decide) nofun
  have h2 := h1.shutdown none (by decide) nofun
  have h3 := h2.step (.work (.take (c := 0) (s := ⟨0, "work", none⟩) rfl (.shared rfl rfl)))
  have h4 := h3.step (.work (.obtain (c := 0) rfl rfl .fresh))
  have h5 := h4.step (.work (.give (c := 0) rfl))
  have h6 := h5.step (.work (.bind (.head _) rfl rfl))
  have h7 := h6.step (.work (.pass (.head _) rfl (.inl rfl)))
  have h8 := h7.step (.aside (Workshop.aside_move (.switchIn (c := 0) 5 rfl rfl rfl rfl) rfl rfl
    (nudges_switchIn _ 5 0 ⟨0⟩).steady rfl) ⟨rfl, rfl, rfl⟩)
  have h9 := h8.step (.work (.run (c := 0) (.head _) rfl rfl))
  have h10 := h9.step (.work (.finish (c := 0) (.ok ()) (.head _) rfl rfl))
  have h11 := h10.step (.work (.exit (c := 0) (.head _) rfl rfl rfl rfl))
  have h12 := h11.step (.aside
    (Workshop.aside_move (.leave (c := 0) rfl) rfl rfl (steady_vacate _ 0 ⟨0⟩) rfl)
    ⟨rfl, rfl, rfl⟩)
  have h13 := h12.step (.aside
    (Workshop.aside_move (.settle (c := 0) rfl rfl rfl rfl) rfl rfl (.refl _) rfl)
    (.refl _))
  have h14 := h13.step (.work (.take (c := 0) (s := ⟨1, drainName, none⟩) rfl (.shared rfl rfl)))
  have h15 := h14.step (.work (.obtain (c := 0) rfl rfl (.pooled (.own (i := 0) rfl))))
  have h16 := h15.step (.work (.give (c := 0) rfl))
  have h17 := h16.step (.work (.bind (.head _) rfl rfl))
  have h18 := h17.step (.work (.pass (.head _) rfl (.inl rfl)))
  have h19 := h18.step (.aside (Workshop.aside_move (.switchIn (c := 0) 6 rfl rfl rfl rfl) rfl rfl
    (nudges_switchIn _ 6 0 ⟨0⟩).steady rfl) ⟨rfl, rfl, rfl⟩)
  have h20 := h19.step (.work (.run (c := 0) (.head _) rfl rfl))
  have h21 := h20.step (.look (.head _) (.head _) rfl (by decide))
  have h22 := h21.step (.terminate rfl)
  obtain ⟨hone, hover⟩ := h22.strands_nothing
  obtain ⟨hdone, hlater⟩ := hover rfl
  exact ⟨_, h22, rfl, rfl, rfl, hone, (hlater _ .refl).2.2.1, _, rfl, hdone 0 _ rfl (by decide)⟩

end Intake

end GreenThreads

import GreenThreads.Proofs.Program.Brackets

/-!
# Steps and frames as deeds

Every step of a program and every frame that it goes back to, or leaves with a value or while it is
unwound, is a turn that consists of deeds.
-/

namespace GreenThreads.World

variable {V : Type} {w w' : World V} {c n : Nat} {t : TaskId} {s : Strand V} {h : Host}
  {q : Step V → Prop} {f : Frame V} {frames : List (Frame V)}

/-! ## Answers -/

theorem neutral_record (w : World V) (v : Voice) (x : Entry V) : Neutral w (w.record v x) := by
  cases v with
  | silent => exact .refl w
  | main => exact neutral_of_eq rfl rfl rfl rfl rfl
  | program key => exact neutral_of_eq rfl rfl rfl rfl rfl

theorem turned_goBack (w : World V) (h : Host) (hs : s.Fits q n) :
    Turned q n h w s (w.goBack s) := (Neutral.refl w).turned hs.back rfl

theorem turned_reply (w : World V) (h : Host) (hs : s.Fits q n) (label : String) (a : Answer V) :
    Turned q n h w s (w.reply s label a) := (w.neutral_record s.voice _).turned hs.back rfl

theorem Neutral.turned_reply (hw : Neutral w w') (hs : s.Fits q n) (label : String)
    (a : Answer V) : Turned q n h w s (w'.reply s label a) :=
  hw.then_turned (w'.turned_reply h hs label a) rfl

theorem turned_quietly (w : World V) (h : Host) (hs : s.Fits q n) (label : String) (m : Missing)
    {o : Option (World V)} (ho : ∀ w', o = some w' → Neutral w w') :
    Turned q n h w s (w.quietly s label m o) := by
  cases o with
  | none => exact w.turned_reply h hs label _
  | some w' => exact (ho w' rfl).turned hs.back rfl

/-! ## Submission -/

theorem Holds.script {P : List (Step V) → Prop} {Q : Strand V → Prop} (hw : w.Holds P Q)
    (hP : P []) (name : String) : P (w.script name) := by
  unfold World.script
  cases hl : w.scripts.lookup name with
  | none => exact hP
  | some l =>
      obtain ⟨before, after, heq, -⟩ := List.lookup_eq_some_iff.mp hl
      have hmem : (name, l) ∈ w.scripts := by
        rw [heq]
        exact List.mem_append_right before List.mem_cons_self
      exact hw.scripts _ hmem

/-- The body of new work is a script of the world, or it drains the engine. -/
theorem neutral_addBody (w : World V) {b : Body V}
    (hb : ∀ key l, b = .program key l → ∃ name, l = w.script name) : Neutral w (w.addBody b) := by
  refine ⟨rfl, .refl _, fun P Q hP hw => ⟨hw.scripts, ?_, hw.threads⟩, rfl⟩
  intro j key l hj
  dsimp only [addBody] at hj
  rw [Array.getElem?_push] at hj
  split at hj
  · obtain ⟨name, rfl⟩ := hb key l (Option.some.inj hj)
    exact hw.script hP name
  · exact hw.bodies j key l hj

theorem turned_submitted (w : World V) (h : Host) (hs : s.Fits q n) (label key script : String)
    (o : Except EngineError JobId) : Turned q n h w s (w.submitted s label key script o) := by
  cases o with
  | error e => exact w.turned_reply h hs label _
  | ok job =>
      have hbody : Neutral w (w.addBody (.program key (w.script script))) := by
        refine w.neutral_addBody ?_
        intro key' l hl
        cases hl
        exact ⟨script, rfl⟩
      have hkeep : Neutral (w.addBody (.program key (w.script script)))
          ((w.addBody (.program key (w.script script))).keep key job) :=
        neutral_of_eq rfl rfl rfl rfl rfl
      exact (hbody.trans hkeep).turned hs.back rfl

theorem turned_submit (w : World V) (h : Host) (hs : s.Fits q n) (label key script name : String)
    (g : Option GroupId) : Turned q n h w s (w.submit h s label key script name g) :=
  (neutral_of_still (Engine.nesting_submit w.engine h.task? name g)
    (Engine.still_submit w.engine h.task? name g)).then_turned
    (turned_submitted _ h hs label key script _) rfl

theorem neutral_addThread (w : World V) (job : JobId) : Neutral w (w.addThread job) := by
  refine ⟨rfl, .refl _, fun P Q _ hw => ⟨hw.scripts, hw.bodies, ?_⟩, rfl⟩
  intro k x s hx hs
  dsimp only [addThread] at hx
  rw [Array.getElem?_push] at hx
  split at hx
  · cases hx
    cases hs
  · exact hw.threads k x s hx hs

theorem turned_spawnThread (w : World V) (h : Host) (hs : s.Fits q n)
    (label key script name : String) :
    Turned q n h w s (w.spawnThread h s label key script name) := by
  have hsubmit := neutral_of_still (Engine.nesting_submitThread w.engine h.task? name)
    (Engine.still_submitThread w.engine h.task? name)
  unfold spawnThread
  refine hsubmit.then_turned ?_ rfl
  dsimp only
  split
  · exact (neutral_addThread _ _).then_turned (turned_submitted _ h hs label key script _) rfl
  · exact turned_submitted _ h hs label key script _
  · exact turned_submitted _ h hs label key script _

/-! ## Groups -/

theorem neutral_updateGroup (w : World V) {g : GroupId} {G G' : ControlGroup}
    (hG : w.engine.groups[g]? = some G) (hmembers : G'.members = G.members) :
    Neutral w (w.onEngine (·.updateGroup g fun _ => G')) := by
  refine neutral_of_still rfl (Engine.SameMembers.still ?_ rfl)
  refine Engine.sameMembers_updateGroup fun G₁ hG₁ => ?_
  rw [hG] at hG₁
  cases hG₁
  exact hmembers

theorem neutral_outOfQuota (w : World V) (g : GroupId) : Neutral w (w.outOfQuota g).1 := by
  unfold outOfQuota
  split
  · exact .refl w
  · next hG => exact w.neutral_updateGroup hG rfl

theorem isOther_of_outOfQuota {g : GroupId} {y : Fault} (hq : w.outOfQuota g = (w', .error y)) :
    y.IsOther := by
  unfold outOfQuota at hq
  split at hq
  · cases hq
  · next group _ =>
      have hdelay := congrArg Prod.snd hq
      dsimp only at hdelay
      cases hcheck : (group.check w.now).2 with
      | ok d =>
          rw [hcheck] at hdelay
          cases hdelay
      | error z =>
          rw [hcheck] at hdelay
          cases hdelay
          exact Fault.isOther_of_delay hcheck

theorem turned_runInGroup (w : World V) (hs : s.Fits q n) (label : String) (g : GroupId)
    {body : List (Step V)} (hbody : Step.AllFit q (n - Frame.depth s.frames) body) :
    Turned q n (.task t c) w s (w.runInGroup t c s label g body) := by
  have hpushed : (s.push (.inGroup g)).Fits q n := hs.push trivial rfl
  have hs' : ((s.push (.inGroup g)).push (.rest body)).Fits q n := hpushed.push hbody rfl
  unfold runInGroup
  split
  · exact w.turned_reply (.task t c) hs label _
  · next engine hengine =>
      have hnest : engine.nesting = w.engine.nesting := by
        have hattach := w.engine.nesting_attach w.now t g
        rwa [hengine] at hattach
      have hquota := neutral_outOfQuota { w with engine } g
      have hjoin : Deed q n (.task t c) (w, s.brackets) ({ w with engine },
          ((s.push (.inGroup g)).push (.rest body)).brackets) := .join hengine
      refine Turned.after hjoin hnest ?_
      dsimp only
      split
      · next w' y hw =>
          rw [hw] at hquota
          have hblame : Neutral w' (w'.onEngine (·.blame y)) :=
            neutral_of_nudges (Engine.nesting_blame (isOther_of_outOfQuota hw)) (.single (.blame y))
          exact (hquota.trans hblame).turned (hs'.unwind _) rfl
      · next w' hw =>
          rw [hw] at hquota
          exact hquota.then_turned (w'.turned_yieldTask hs') rfl
      · next w' hw =>
          rw [hw] at hquota
          exact hquota.turned hs'.back rfl

theorem turned_destroyGroup (w : World V) (h : Host) (hs : s.Fits q n) (label : String)
    (g : GroupId) (time : Nanos) : Turned q n h w s (w.destroyGroup h s label g time) := by
  unfold destroyGroup
  split
  · exact w.turned_reply h hs label _
  · next G hG =>
      split
      · exact w.turned_reply h hs label _
      · next G' members hclose =>
          have hstill := Engine.still_closeGroup hG h.task? w.now members
          rw [hclose] at hstill
          have hnest := (Engine.nesting_foldl (fun e m =>
            Engine.nesting_cancelTask e w.now m.task m.generation) _ members).trans
              (w.engine.nesting_updateGroup g fun _ => G')
          exact (neutral_of_still hnest hstill).turned
            (hs.push (f := .destroying _ _ _) trivial rfl).back rfl

/-! ## Waiting for work and for channels -/

theorem neutral_giveUp (w : World V) (key : String) : Neutral w (w.giveUp key) :=
  neutral_of_eq rfl rfl rfl rfl rfl

theorem turned_beginJoin (w : World V) (h : Host) (hs : s.Fits q n) (label key : String) :
    Turned q n h w s (w.beginJoin s label key) := by
  unfold beginJoin
  split
  · exact w.turned_reply h hs label _
  · split
    · exact (w.neutral_giveUp key).turned_reply hs label _
    · exact (w.neutral_giveUp key).turned (hs.push (f := .joining _ _) trivial rfl).back rfl

theorem turned_beginJoinTimeout (w : World V) (h : Host) (hs : s.Fits q n) (label key : String)
    (time : Nanos) : Turned q n h w s (w.beginJoinTimeout s label key time) := by
  unfold beginJoinTimeout
  split
  · exact w.turned_reply h hs label _
  · next job _ =>
      have hused : Neutral w { w with inUse := job :: w.inUse } :=
        neutral_of_eq rfl rfl rfl rfl rfl
      exact hused.turned (hs.push (f := .joining _ _) trivial rfl).back rfl

theorem turned_waitReady (w : World V) (h : Host) (hs : s.Fits q n) (label : String)
    (channel : Channel) (interest : Interest) (timeout : Option Nat) :
    Turned q n h w s (w.waitReady h s label channel interest timeout) := by
  unfold waitReady
  split
  · exact w.turned_reply _ hs label _
  · next t c =>
      have hdrop : Neutral w (w.onEngine (·.updateTask t fun x => x.takeReady.1)) :=
        w.neutral_updateTask t (fun _ => rfl) fun _ => rfl
      refine hdrop.then_turned ?_ rfl
      generalize w.onEngine (·.updateTask t fun x => x.takeReady.1) = w'
      have hregister := neutral_of_nudges (w := w')
        (Engine.nesting_registerChannel w'.engine t channel interest)
        (Engine.nudges_registerChannel w'.engine t channel interest)
      dsimp only
      split
      · next engine y hr =>
          rw [hr] at hregister
          exact hregister.turned_reply hs label _
      · next engine hr =>
          rw [hr] at hregister
          exact hregister.then_turned (turned_parkTask _ .internal timeout true
            (hs.push (f := .waitingReady) trivial rfl)) rfl

/-! ## All steps -/

theorem neutral_unpark (w : World V) (u : Unparker) : Neutral w (w.unpark u) := by
  cases u with
  | task waker =>
      exact neutral_of_nudges (Engine.nesting_useWaker _ _ _) (Engine.nudges_useWaker _ _ _)
  | thread k => exact w.neutral_outside k _ fun _ => rfl

theorem neutral_shutdown (w : World V) (h : Host) : Neutral w (w.shutdown h) := by
  have hshutdown := neutral_of_still (Engine.nesting_shutdown w.engine h.task?)
    (Engine.still_shutdown w.engine h.task?)
  unfold World.shutdown
  dsimp only
  split
  · exact hshutdown.trans (neutral_addBody _ fun _ _ hb => by cases hb)
  · exact hshutdown

theorem neutral_onTask (w : World V) (key : String) {k : Task → Engine (Option V) → Engine (Option V)}
    (hk : ∀ x e, (k x e).nesting = e.nesting ∧ Engine.Nudges e (k x e)) :
    ∀ w', ((w.taskOf? key).map fun x => w.onEngine (k x)) = some w' → Neutral w w' := by
  intro w' hw
  obtain ⟨x, -, rfl⟩ := Option.map_eq_some_iff.mp hw
  exact neutral_of_nudges (hk x _).1 (hk x _).2

theorem turned_perform (w : World V) (h : Host) (hs : s.Fits q n) {x : Step V}
    (hx : x.Fits q (n - Frame.depth s.frames)) : Turned q n h w s (w.perform h s x) := by
  cases x with
  | log v => exact w.turned_reply h hs _ _
  | endWith v => exact (Neutral.refl w).turned (hs.value _) rfl
  | fail u => exact (Neutral.refl w).turned (hs.unwind u) rfl
  | again k body => exact (Neutral.refl w).turned (hs.push (f := .again k body) hx rfl).back rfl
  | attempt body =>
      exact (Neutral.refl w).turned ((hs.push (f := .attempt) trivial rfl).steps hx) rfl
  | submit key script name => exact w.turned_submit h hs _ _ _ _ _
  | submitIn key script name group => exact w.turned_submit h hs _ _ _ _ _
  | spawnThread key script name => exact w.turned_spawnThread h hs _ _ _ _
  | join key => exact w.turned_beginJoin h hs _ _
  | joinTimeout key micros => exact w.turned_beginJoinTimeout h hs _ _ _
  | finished key =>
      dsimp only [perform]
      split
      · exact w.turned_reply h hs _ _
      · exact w.turned_reply h hs _ _
  | cancel key =>
      refine w.turned_quietly h hs _ _ ?_
      intro w' hw
      obtain ⟨job, -, rfl⟩ := Option.map_eq_some_iff.mp hw
      exact neutral_of_nudges (Engine.nesting_cancelJob _ _ _) (Engine.nudges_cancelJob _ _ _)
  | cancelId key =>
      dsimp only [perform]
      split
      · exact (neutral_of_nudges (Engine.nesting_cancel _ _ _)
          (Engine.nudges_cancel _ _ _)).turned_reply hs _ _
      · exact w.turned_reply h hs _ _
  | unpark key =>
      refine w.turned_quietly h hs _ _ ?_
      intro w' hw
      obtain ⟨u, -, rfl⟩ := Option.map_eq_some_iff.mp hw
      exact w.neutral_unpark u
  | peek key =>
      dsimp only [perform]
      split
      · exact w.turned_reply h hs _ _
      · exact w.turned_reply h hs _ _
  | sameTask a b =>
      dsimp only [perform]
      split
      · exact w.turned_reply h hs _ _
      · exact w.turned_reply h hs _ _
  | whereabouts =>
      cases h with
      | thread k => exact w.turned_reply _ hs _ _
      | task t c => exact w.turned_reply (.task t c) hs _ _
  | yieldNow =>
      cases h with
      | thread k => exact w.turned_goBack (.thread k) hs
      | task t c => exact w.turned_yieldTask hs
  | park =>
      cases h with
      | thread k => exact w.turned_parkThread k none hs
      | task t c => exact w.turned_parkTask .user none false hs
  | parkTimeout micros =>
      cases h with
      | thread k => exact w.turned_parkThread k _ hs
      | task t c => exact w.turned_parkTask .user _ false hs
  | sleep micros => exact w.turned_sleep h _ hs
  | spin micros => exact (Neutral.refl w).turned hs.back rfl
  | critical body =>
      cases h with
      | thread k =>
          -- outside of the engine there is nothing to enter
          exact (Neutral.refl w).turned (hs.steps (hx.2.mono (Nat.sub_le _ 1))) rfl
      | task t c =>
          obtain ⟨hlt, hs'⟩ := hs.enter c hx
          exact Deed.turned (.enter (s.length_sections ▸ hlt)) hs'
  | waitReady channel interest micros => exact w.turned_waitReady h hs _ _ _ _
  | signal channel interest =>
      have hsignal : Neutral w (w.onEngine fun e =>
          { e with pump := e.pump.signal channel interest }) :=
        neutral_of_still rfl (Engine.still_of_eq rfl rfl)
      exact hsignal.turned hs.back rfl
  | registered => exact w.turned_reply h hs _ _
  | groupRun group body =>
      cases h with
      | thread k => exact w.turned_reply (.thread k) hs _ _
      | task t c => exact w.turned_runInGroup hs _ _ hx
  | group group =>
      dsimp only [perform]
      split
      · exact w.turned_reply h hs _ _
      · exact w.turned_reply h hs _ _
  | attach group =>
      cases h with
      | thread k => exact w.turned_reply (.thread k) hs _ _
      | task t c =>
          exact Turned.after (.attach hx) (w.engine.nesting_attach w.now t group)
            (turned_reply _ (.task t c) hs _ _)
  | detach group =>
      cases h with
      | thread k => exact w.turned_reply (.thread k) hs _ _
      | task t c =>
          exact Turned.after (.detach hx) (w.engine.nesting_detach w.now t group)
            (turned_reply _ (.task t c) hs _ _)
  | groupDestroy group micros => exact w.turned_destroyGroup h hs _ _ _
  | wake key =>
      refine w.turned_quietly h hs _ _ (w.neutral_onTask key fun x e => ?_)
      exact ⟨e.nesting_wake w.now x.id, e.nudges_wake w.now x.id⟩
  | arm key micros action =>
      refine w.turned_quietly h hs _ _ (w.neutral_onTask key fun x e => ?_)
      exact ⟨Engine.nesting_arm e _ _ _ _ _ _, Engine.nudges_arm e _ _ _ _ _ _⟩
  | cancelTimeout key =>
      refine w.turned_quietly h hs _ _ (w.neutral_onTask key fun x e => ?_)
      exact ⟨e.nesting_disarm x.id, e.nudges_disarm x.id⟩
  | shutdown => exact (w.neutral_shutdown h).turned hs.back rfl
  | shutdownNow => exact w.turned_reply h hs _ _
  | engine => exact w.turned_reply h hs _ _
  | stats => exact w.turned_reply h hs _ _
  | unknown name => exact w.turned_reply h hs _ _

/-! ## Frames -/

theorem neutral_updateJob (w : World V) (job : JobId) (g : Join (Option V) → Join (Option V)) :
    Neutral w (w.onEngine (·.updateJob job g)) :=
  neutral_of_still rfl (Engine.still_updateJob _ job g)

theorem turned_joinOn (w : World V) (h : Host) (hs : s.Fits q n) (job : JobId)
    (deadline : Option Nanos) : Turned q n h w s (w.joinOn h s job deadline) := by
  have hrelease : ∀ w' : World V, Neutral w' { w' with inUse := w'.inUse.erase job } :=
    fun w' => neutral_of_eq rfl rfl rfl rfl rfl
  have hpush : ∀ d, (s.push (.joining job d)).Fits q n :=
    fun d => hs.push (f := .joining job d) trivial rfl
  unfold joinOn
  split
  · exact w.turned_goBack h hs
  · next cell _ =>
      dsimp only
      split
      · split
        · exact (w.neutral_updateJob job _).turned_reply hs _ _
        · split
          · exact (Neutral.refl w).turned_wait (hpush none).back rfl
          · exact (w.neutral_updateJob job _).then_turned
              (turned_parkTask _ .internal _ false (hpush none)) rfl
      · next d =>
          split
          · exact ((w.neutral_updateJob job _).trans (hrelease _)).turned_reply hs _ _
          · split
            · split
              · exact (hrelease w).turned_reply hs _ _
              · exact (Neutral.refl w).turned_wait (hpush (some d)).back rfl
            · split
              · exact ((w.neutral_updateJob job _).trans (hrelease _)).turned_reply hs _ _
              · exact (w.neutral_updateJob job _).then_turned
                  (turned_parkTask _ .internal _ false (hpush (some d))) rfl

/-- What a task has seen of a channel is taken, and its registration is given back. -/
theorem neutral_takeReady (w : World V) {x : Task} (hx : w.engine.task? t = some x) :
    Neutral w
      (w.onEngine fun e => (e.updateTask t fun _ => x.takeReady.1).unregisterChannel t) := by
  have hput : Neutral w (w.onEngine (·.updateTask t fun _ => x.takeReady.1)) := by
    have hsame : Engine.SameMembers w.engine (w.engine.updateTask t fun _ => x.takeReady.1) :=
      ⟨Engine.map_put hx rfl, rfl⟩
    exact neutral_of_still rfl (hsame.still (Engine.map_put hx rfl))
  exact hput.trans (neutral_unregisterChannel _ t)

theorem turned_draining (w : World V) (t : TaskId) (c : Nat) (hs : s.Fits q n) :
    Turned q n (.task t c) w s (w.reenter (.task t c) s .draining) := by
  have hdraining : Neutral w (w.onEngine fun e => { e with draining := true }) :=
    neutral_of_still rfl (Engine.still_of_eq rfl rfl)
  refine hdraining.then_turned ?_ rfl
  dsimp only [reenter]
  generalize w.onEngine (fun e => { e with draining := true }) = w'
  split
  · have hround := neutral_of_nudges (w'.engine.nesting_drainRound w'.now t)
      (w'.engine.nudges_drainRound w'.now t)
    exact hround.then_turned (turned_sleep _ (.task t c) _ (hs.push (f := .draining) trivial rfl))
      rfl
  · have hend : Neutral w' (w'.onEngine fun e => { e with terminated := true }) :=
      neutral_of_still rfl (Engine.still_of_eq rfl rfl)
    exact hend.turned hs.back rfl

theorem turned_settling (w : World V) (h : Host) (hs : s.Fits q n) (leave : Bool) :
    Turned q n h w s (w.reenter h s (.settling leave)) := by
  have hquiet : Neutral w { w with quiet := true } := neutral_of_eq rfl rfl rfl rfl rfl
  have hsilent : Strand.Fits q n { s with voice := .silent } := ⟨hs.control, hs.frames⟩
  dsimp only [reenter]
  split
  · exact (hquiet.trans (neutral_shutdown _ h)).turned hsilent.back rfl
  · exact (Neutral.refl w).then_turned
      (w.turned_sleep h _ (hs.push (f := .settling leave) trivial rfl)) rfl

theorem turned_destroying (w : World V) (h : Host) (hs : s.Fits q n) (g : GroupId) (k : Nat)
    (d : Nanos) : Turned q n h w s (w.reenter h s (.destroying g k d)) := by
  dsimp only [reenter]
  split
  · exact w.turned_goBack h hs
  · split
    · exact w.turned_reply h hs _ _
    · split
      · exact w.turned_reply h hs _ _
      · exact (Neutral.refl w).then_turned
          (w.turned_sleep h _ (hs.push (f := .destroying g k d) trivial rfl)) rfl

/-- A frame that closes no bracket is left. -/
theorem Turned.push {r : Turn V} (ht : Turned q n h w s r) (hf : f.bracket? = none) :
    Turned q n h w (s.push f) r := by
  have hbrackets : (s.push f).brackets = s.brackets := by
    unfold Strand.brackets Strand.push
    rw [List.filterMap_cons_none hf]
  exact ⟨hbrackets ▸ ht.deeds, ht.fits, ht.away, ht.goes⟩

/-- A critical section is left. -/
theorem turned_leave (w : World V) (h : Host) (d : Nat) {x : Control V}
    (hs : Strand.Fits q n { s with control := x }) :
    Turned q n h w (s.push (.critical d)) ((w.leaveCritical d).go s x) :=
  Deed.turned .leave hs

/-- A run in a group is left. -/
theorem turned_part (w : World V) (c : Nat) (t : TaskId) (g : GroupId) {r : Turn V}
    (ht : Turned q n (.task t c) (w.onEngine (·.detach w.now t g)) s r) :
    Turned q n (.task t c) w (s.push (.inGroup g)) r :=
  Turned.after .part (w.engine.nesting_detach w.now t g) ht

theorem turned_drop (w : World V) (k : Nat) (g : GroupId) {r : Turn V}
    (ht : Turned q n (.thread k) w s r) : Turned q n (.thread k) w (s.push (.inGroup g)) r :=
  Turned.after .drop rfl ht

theorem turned_reenter (w : World V) (h : Host) (hs : s.Fits q n)
    (hf : f.Fits q (n - Frame.depth s.frames)) :
    Turned q n h w (s.push f) (w.reenter h s f) := by
  cases f with
  | rest steps => exact Turned.push (s := s) ((Neutral.refl w).turned (hs.steps hf) rfl) rfl
  | again k body =>
      refine Turned.push (s := s) ?_ rfl
      cases k with
      | zero => exact w.turned_goBack h hs
      | succ k => exact (Neutral.refl w).turned ((hs.push (f := .again k body) hf rfl).steps hf) rfl
  | attempt => exact (w.turned_reply h hs _ _).push rfl
  | critical d => exact w.turned_leave h d hs.back
  | inGroup g =>
      cases h with
      | thread k => exact w.turned_drop k g (w.turned_goBack (.thread k) hs)
      | task t c => exact w.turned_part c t g (turned_reply _ (.task t c) hs _ _)
  | resumed =>
      refine Turned.push ?_ rfl
      cases h with
      | thread k => exact w.turned_goBack (.thread k) hs
      | task t c => exact w.turned_goChecked (.task t c) t hs
  | parked a timed =>
      refine Turned.push ?_ rfl
      cases h with
      | thread k => exact w.turned_goBack (.thread k) hs
      | task t c =>
          have hend := w.neutral_endPark t a
          cases timed with
          | false => exact hend.then_turned (turned_goChecked _ _ t hs) rfl
          | true => exact (hend.trans (neutral_disarm _ t)).then_turned (turned_goChecked _ _ t hs) rfl
  | blocked a armed =>
      refine Turned.push ?_ rfl
      cases h with
      | thread k => exact w.turned_goBack (.thread k) hs
      | task t c =>
          cases armed with
          | false => exact (w.neutral_endPark t a).then_turned (turned_goChecked _ _ t hs) rfl
          | true =>
              exact ((w.neutral_disarm t).trans (neutral_endPark _ t a)).then_turned
                (turned_goChecked _ _ t hs) rfl
  | threadParked =>
      refine Turned.push ?_ rfl
      cases h with
      | thread k =>
          have hend := w.neutral_outside k (fun x => { x with outside := x.outside.endPark })
            fun _ => rfl
          exact hend.then_turned (turned_goBack _ (.thread k) hs) rfl
      | task t c => exact w.turned_goBack (.task t c) hs
  | sleeping d =>
      refine Turned.push ?_ rfl
      cases h with
      | thread k => exact w.turned_goBack (.thread k) hs
      | task t c =>
          dsimp only [reenter]
          split
          · exact w.turned_goBack (.task t c) hs
          · exact (Neutral.refl w).then_turned (w.turned_parkTask .internal _ false
              (hs.push (f := .sleeping d) trivial rfl)) rfl
  | joining job d => exact (w.turned_joinOn h hs job d).push rfl
  | waitingReady =>
      refine Turned.push ?_ rfl
      cases h with
      | thread k => exact w.turned_goBack (.thread k) hs
      | task t c =>
          dsimp only [reenter]
          split
          · exact w.turned_goBack (.task t c) hs
          · next x hx => exact (w.neutral_takeReady hx).turned_reply hs _ _
  | destroying g k d => exact (w.turned_destroying h hs g k d).push rfl
  | draining =>
      refine Turned.push ?_ rfl
      cases h with
      | thread k => exact w.turned_goBack (.thread k) hs
      | task t c => exact w.turned_draining t c hs
  | settling leave => exact (w.turned_settling h hs leave).push rfl

/-- A strand that drains or settles never has a value, so it goes on. -/
theorem turned_stay (w : World V) (h : Host) (hs : s.Fits q n) (leave : Bool) :
    Turned q n h w (s.push (.settling leave)) (w.goBack (s.push (.settling leave))) :=
  w.turned_goBack h (hs.push trivial rfl)

theorem turned_passValue (w : World V) (h : Host) (hs : s.Fits q n) (v : Option V)
    (f : Frame V) : Turned q n h w (s.push f) (w.passValue h s v f) := by
  have hgo : f.bracket? = none → Turned q n h w (s.push f) (w.go s (.value v)) := fun hf =>
    Turned.push (s := s) ((Neutral.refl w).turned (hs.value v) rfl) hf
  cases f with
  | attempt => exact (w.turned_reply h hs _ _).push rfl
  | critical d => exact w.turned_leave h d (hs.value v)
  | inGroup g =>
      cases h with
      | thread k => exact w.turned_drop k g ((Neutral.refl w).turned (hs.value v) rfl)
      | task t c => exact w.turned_part c t g (turned_reply _ (.task t c) hs _ _)
  | settling leave => exact w.turned_stay h hs leave
  | _ => exact hgo rfl

theorem turned_passUnwind (w : World V) (h : Host) (hs : s.Fits q n) (u : Unwind)
    (f : Frame V) : Turned q n h w (s.push f) (w.passUnwind h s u f) := by
  have hgo : f.bracket? = none → Turned q n h w (s.push f) (w.go s (.unwind u)) := fun hf =>
    Turned.push (s := s) ((Neutral.refl w).turned (hs.unwind u) rfl) hf
  cases f with
  | attempt => exact (w.turned_reply h hs _ _).push rfl
  | critical d => exact w.turned_leave h d (hs.unwind u)
  | inGroup g =>
      cases h with
      | thread k => exact w.turned_drop k g ((Neutral.refl w).turned (hs.unwind u) rfl)
      | task t c => exact w.turned_part c t g ((Neutral.refl _).turned (hs.unwind u) rfl)
  | joining job d =>
      cases d with
      | none => exact hgo rfl
      | some d =>
          have hreleased : Neutral w { w with inUse := w.inUse.erase job } :=
            neutral_of_eq rfl rfl rfl rfl rfl
          exact Turned.push (s := s) (hreleased.turned (hs.unwind u) rfl) rfl
  | settling leave => exact w.turned_stay h hs leave
  | _ => exact hgo rfl

/-! ## Turns -/

theorem turned_step (w : World V) (h : Host) (hs : s.Fits q n) {x : Step V} {rest : List (Step V)}
    (hc : s.control = .steps (x :: rest)) :
    Turned q n h w s (w.perform h (s.push (.rest rest)) x) := by
  obtain ⟨hx, hrest⟩ := hs.control _ hc
  exact (Neutral.refl w).then_turned
    (w.turned_perform h (hs.push (f := .rest rest) hrest rfl) hx) rfl

/-- A strand takes a turn and goes on, or it has left all its frames, and its work is over. -/
theorem advance_cases (w : World V) (h : Host) (job : Option JobId) (hs : s.Fits q n) :
    Turned q n h w s (w.advance h job s) ∨
      s.frames = [] ∧ ∃ outcome, w.advance h job s = (w.conclude h s.voice job outcome, s, .over) := by
  have hpop : ∀ f frames, s.frames = f :: frames → (∀ steps, s.control ≠ .steps steps) →
      f.Fits q (n - Frame.depth frames) ∧ Strand.Fits q n { s with frames } ∧
        s = Strand.push { s with frames } f := by
    intro f frames hf hc
    obtain ⟨hhead, htail⟩ := hs.pop hf hc
    refine ⟨hhead, htail, ?_⟩
    unfold Strand.push
    rw [← hf]
  unfold advance
  dsimp only
  split
  · exact .inl (w.turned_goBack h hs)
  · next x rest hc => exact .inl (w.turned_step h hs hc)
  · next hf => exact .inr ⟨hf, _, rfl⟩
  · next hf => exact .inr ⟨hf, _, rfl⟩
  · next hf => exact .inr ⟨hf, _, rfl⟩
  · next f frames hc hf =>
      obtain ⟨hhead, htail, heq⟩ := hpop f frames hf (by rw [hc]; exact nofun)
      exact .inl (heq ▸ w.turned_reenter h htail hhead)
  · next v f frames hc hf =>
      obtain ⟨-, htail, heq⟩ := hpop f frames hf (by rw [hc]; exact nofun)
      exact .inl (heq ▸ w.turned_passValue h htail v f)
  · next u f frames hc hf =>
      obtain ⟨-, htail, heq⟩ := hpop f frames hf (by rw [hc]; exact nofun)
      exact .inl (heq ▸ w.turned_passUnwind h htail u f)

/-- What the end of work does before its task is recycled concerns neither sections nor groups. -/
theorem conclude_eq (w : World V) (h : Host) (voice : Voice) (job : Option JobId)
    (outcome : Except Unwind (Option V)) : ∃ w', Neutral w w' ∧
      w.conclude h voice job outcome =
        match h with
        | .thread _ => w'
        | .task t c => w'.onEngine (·.exit w'.now c t) := by
  have hlog := w.neutral_record voice
  unfold conclude
  cases job with
  | none => exact ⟨_, hlog _, rfl⟩
  | some j =>
      have hfinish : ∀ w' : World V, Neutral w' (w'.onEngine (·.finishJob w'.now j outcome)) :=
        fun w' => neutral_of_still (Engine.nesting_finishJob _ _ j outcome)
          (Engine.still_finishJob _ _ j outcome)
      exact ⟨_, (hlog _).trans (hfinish _), rfl⟩

/-! ## Beginnings -/

theorem neutral_begin (w : World V) (h : Host) (job : JobId) : Neutral w (w.begin h job).1 := by
  unfold World.begin
  split
  · next key l _ =>
      have hstart : ∀ u, Neutral w { w with starts := (key, u) :: w.starts.filter (·.1 != key) } :=
        fun u => neutral_of_eq rfl rfl rfl rfl rfl
      dsimp only
      exact (hstart _).trans (neutral_record _ _ _)
  · exact .refl w
  · exact .refl w

theorem fits_begin {Q : Strand V → Prop} (hw : w.Holds (Step.AllFit q n) Q) (h : Host)
    (job : JobId) : (w.begin h job).2.Fits q n ∧ (w.begin h job).2.brackets = [] := by
  have hdrain : Strand.Fits q n
      ({ voice := .silent, control := .back, frames := [.draining] } : Strand V) :=
    ⟨nofun, trivial, Nat.zero_le n, trivial⟩
  unfold World.begin
  split
  · next key l hb =>
      refine ⟨⟨?_, trivial⟩, rfl⟩
      intro l' hl
      cases hl
      exact hw.bodies job key l hb
  · exact ⟨hdrain, rfl⟩
  · exact ⟨hdrain, rfl⟩

theorem fits_silent : Strand.Fits q n ({ voice := .silent, control := .back } : Strand V) :=
  ⟨nofun, trivial⟩

end GreenThreads.World

import GreenThreads.Proofs.Program.Turns

/-!
# Steps and frames of programs

Every step of an ordinary program and every frame that it goes back to is a fair turn: threads do
what anybody may do, and a task does to the engine what the task of a carrier may do.
-/

namespace GreenThreads.World

variable {V : Type} {w w' : World V} {c : Nat} {t : TaskId} {s : Strand V} {h : Host}

/-! ## Answers -/

theorem passes_record (w : World V) (v : Voice) (x : Entry V) : Passes w (w.record v x) := by
  cases v with
  | silent => exact .refl w
  | main => exact passes_of_eq rfl rfl rfl rfl rfl
  | program key => exact passes_of_eq rfl rfl rfl rfl rfl

theorem fair_goBack (w : World V) (h : Host) (hs : s.Orderly) : w.Fair h (w.goBack s) :=
  (Passes.refl w).fair hs.back h

theorem fair_reply (w : World V) (h : Host) (hs : s.Orderly) (label : String) (a : Answer V) :
    w.Fair h (w.reply s label a) := (w.passes_record s.voice _).fair hs.back h

theorem fair_quietly (w : World V) (h : Host) (hs : s.Orderly) (label : String) (m : Missing)
    {o : Option (World V)} (ho : ∀ w', o = some w' → Passes w w') :
    w.Fair h (w.quietly s label m o) := by
  cases o with
  | none => exact w.fair_reply h hs label _
  | some w' => exact (ho w' rfl).fair hs.back h

/-! ## Submission -/

theorem passes_addBody (w : World V) {b : Body V}
    (hb : w.Ordinary → ∀ key l, b = .program key l → Step.AllOrdinary l) :
    Passes w (w.addBody b) := by
  refine ⟨fun _ hf he => he ▸ hf, fun ho => ⟨ho.scripts, ?_, ho.threads⟩, rfl⟩
  intro j key l hj
  dsimp only [addBody] at hj
  rw [Array.getElem?_push] at hj
  split at hj
  · exact hb ho key l (Option.some.inj hj)
  · exact ho.bodies j key l hj

/-- A script that does not exist does nothing. -/
theorem Ordinary.script (ho : w.Ordinary) (name : String) : Step.AllOrdinary (w.script name) := by
  unfold World.script
  cases hl : w.scripts.lookup name with
  | none => trivial
  | some l =>
      obtain ⟨before, after, heq, -⟩ := List.lookup_eq_some_iff.mp hl
      have hmem : (name, l) ∈ w.scripts := by
        rw [heq]
        exact List.mem_append_right before List.mem_cons_self
      exact ho.scripts _ hmem

theorem fair_submitted (w : World V) (h : Host) (hs : s.Orderly) (label key script : String)
    (r : Except EngineError JobId) : w.Fair h (w.submitted s label key script r) := by
  cases r with
  | error e => exact w.fair_reply h hs label _
  | ok job =>
      have hbody : Passes w (w.addBody (.program key (w.script script))) := by
        refine w.passes_addBody ?_
        intro ho key' l hl
        cases hl
        exact ho.script script
      have hkeep : Passes (w.addBody (.program key (w.script script)))
          ((w.addBody (.program key (w.script script))).keep key job) :=
        passes_of_eq rfl rfl rfl rfl rfl
      exact (hbody.trans hkeep).fair hs.back h

theorem fair_submit (w : World V) (h : Host) (hs : s.Orderly) (label key script name : String)
    (g : Option GroupId) : w.Fair h (w.submit h s label key script name g) :=
  (passes_of_frame (Engine.frame_submit w.engine h.task? name g)).then_fair
    (fair_submitted _ h hs label key script _)

theorem passes_addThread (w : World V) (job : JobId) : Passes w (w.addThread job) := by
  refine ⟨fun _ hf he => he ▸ hf, fun ho => ⟨ho.scripts, ho.bodies, ?_⟩, rfl⟩
  intro n x s hx hs
  dsimp only [addThread] at hx
  rw [Array.getElem?_push] at hx
  split at hx
  · cases hx
    cases hs
  · exact ho.threads n x s hx hs

theorem fair_spawnThread (w : World V) (h : Host) (hs : s.Orderly)
    (label key script name : String) : w.Fair h (w.spawnThread h s label key script name) := by
  have hsubmit := passes_of_frame (Engine.frame_submitThread w.engine h.task? name)
  unfold spawnThread
  refine hsubmit.then_fair ?_
  dsimp only
  split
  · exact (passes_addThread _ _).then_fair (fair_submitted _ h hs label key script _)
  · exact fair_submitted _ h hs label key script _
  · exact fair_submitted _ h hs label key script _

/-! ## Groups -/

theorem passes_outOfQuota (w : World V) (g : GroupId) : Passes w (w.outOfQuota g).1 := by
  unfold outOfQuota
  split
  · exact .refl w
  · exact passes_of_frame (Engine.frame_updateGroup _ _ _)

theorem isLocal_of_outOfQuota {g : GroupId} {y : Fault} (hq : w.outOfQuota g = (w', .error y)) :
    y.isLocal = true := by
  unfold outOfQuota at hq
  split at hq
  · cases hq
  · next group _ =>
      have hdelay := congrArg Prod.snd hq
      dsimp only at hdelay
      cases hcheck : (group.check w.now).2 with
      | ok d =>
          rw [hcheck] at hdelay
          cases hdelay
      | error z =>
          rw [hcheck] at hdelay
          cases hdelay
          exact Engine.isLocal_of_delay hcheck

theorem carried_runInGroup (w : World V) (hs : s.Orderly) (label : String) (g : GroupId)
    {body : List (Step V)} (hbody : Step.AllOrdinary body) :
    w.Carried t c (.working t) (w.runInGroup t c s label g body) := by
  have hattach := Engine.frame_attach w.engine w.now t g
  have hs' : ((s.push (.inGroup g)).push (.rest body)).Orderly :=
    (hs.push (f := .inGroup g) trivial).push hbody
  unfold runInGroup
  split
  · exact w.fair_reply (.task t c) hs label _
  · next engine hengine =>
      rw [hengine] at hattach
      have hquota := passes_outOfQuota { w with engine } g
      refine (passes_of_frame hattach).then_carried ?_
      dsimp only
      split
      · next w' y hw =>
          have hlocal := isLocal_of_outOfQuota hw
          rw [hw] at hquota
          have hblame : Passes w' (w'.onEngine (·.blame y)) :=
            passes_of_frame (Engine.frame_blame hlocal)
          exact (hquota.trans hblame).fair (hs'.unwind _) (.task t c)
      · next w' hw =>
          rw [hw] at hquota
          exact hquota.then_carried (w'.carried_yieldTask hs')
      · next w' hw =>
          rw [hw] at hquota
          exact hquota.fair hs'.back (.task t c)

theorem fair_destroyGroup (w : World V) (h : Host) (hs : s.Orderly) (label : String) (g : GroupId)
    (time : Nanos) : w.Fair h (w.destroyGroup h s label g time) := by
  unfold destroyGroup
  split
  · exact w.fair_reply h hs label _
  · split
    · exact w.fair_reply h hs label _
    · next group _ _ group' members _ =>
        have hclose : Floor.Anytime fun e : Engine (Option V) =>
            members.foldl (fun e m => (e.cancelTask w.now m.task m.generation).1)
              (e.updateGroup g fun _ => group') :=
          (Floor.anytime_of_frame fun e => Engine.frame_updateGroup e g _).comp
            (Floor.anytime_cancelMembers w.now members)
        exact (passes_of_anytime hclose).fair (hs.push (f := .destroying _ _ _) trivial).back h

/-! ## Waiting for work and for channels -/

theorem passes_giveUp (w : World V) (key : String) : Passes w (w.giveUp key) :=
  passes_of_eq rfl rfl rfl rfl rfl

theorem fair_beginJoin (w : World V) (h : Host) (hs : s.Orderly) (label key : String) :
    w.Fair h (w.beginJoin s label key) := by
  unfold beginJoin
  split
  · exact w.fair_reply h hs label _
  · split
    · exact (w.passes_giveUp key).then_fair (fair_reply _ h hs label _)
    · exact (w.passes_giveUp key).fair (hs.push (f := .joining _ _) trivial).back h

theorem fair_beginJoinTimeout (w : World V) (h : Host) (hs : s.Orderly) (label key : String)
    (time : Nanos) : w.Fair h (w.beginJoinTimeout s label key time) := by
  unfold beginJoinTimeout
  split
  · exact w.fair_reply h hs label _
  · next job _ =>
      have hused : Passes w { w with inUse := job :: w.inUse } := passes_of_eq rfl rfl rfl rfl rfl
      exact hused.fair (hs.push (f := .joining _ _) trivial).back h

theorem fair_waitReady (w : World V) (h : Host) (hs : s.Orderly) (label : String)
    (channel : Channel) (interest : Interest) (timeout : Option Nat) :
    w.Fair h (w.waitReady h s label channel interest timeout) := by
  unfold waitReady
  split
  · exact w.fair_reply _ hs label _
  · next t c =>
      have hdrop : Passes w (w.onEngine (·.updateTask t fun x => x.takeReady.1)) :=
        passes_of_frame (Engine.frame_updateTask (fun _ => rfl) fun _ => rfl)
      refine hdrop.then_fair ?_
      have hframe := Engine.frame_registerChannel
        (w.onEngine (·.updateTask t fun x => x.takeReady.1)).engine t channel interest
      dsimp only
      split
      · next engine y hr =>
          rw [hr] at hframe
          exact (passes_of_frame hframe).then_fair (fair_reply _ (.task t c) hs label _)
      · next engine hr =>
          rw [hr] at hframe
          exact (passes_of_frame hframe).then_carried
            (carried_parkTask _ .internal timeout true (hs.push (f := .waitingReady) trivial))

/-! ## All steps -/

theorem passes_unpark (w : World V) (u : Unparker) : Passes w (w.unpark u) := by
  cases u with
  | task waker => exact passes_of_anytime (Floor.anytime_useWaker w.now waker)
  | thread n => exact .outside w n _ fun _ => rfl

theorem passes_shutdown (w : World V) (h : Host) : Passes w (w.shutdown h) := by
  have hshutdown := passes_of_frame (Engine.frame_shutdown w.engine h.task?)
  unfold World.shutdown
  dsimp only
  split
  · exact hshutdown.trans (passes_addBody _ fun _ _ _ hb => by cases hb)
  · exact hshutdown

theorem fair_perform (w : World V) (h : Host) (hs : s.Orderly) {x : Step V} (hx : x.Ordinary) :
    w.Fair h (w.perform h s x) := by
  cases x with
  | log v => exact w.fair_reply h hs _ _
  | endWith v => exact (Passes.refl w).fair (hs.value _) h
  | fail u => exact (Passes.refl w).fair (hs.unwind u) h
  | again n body => exact w.fair_goBack h (hs.push (f := .again n body) hx)
  | attempt body => exact (Passes.refl w).fair ((hs.push (f := .attempt) trivial).steps hx) h
  | submit key script name => exact w.fair_submit h hs _ _ _ _ _
  | submitIn key script name group => exact w.fair_submit h hs _ _ _ _ _
  | spawnThread key script name => exact w.fair_spawnThread h hs _ _ _ _
  | join key => exact w.fair_beginJoin h hs _ _
  | joinTimeout key micros => exact w.fair_beginJoinTimeout h hs _ _ _
  | finished key =>
      dsimp only [perform]
      split
      · exact w.fair_reply h hs _ _
      · exact w.fair_reply h hs _ _
  | cancel key =>
      refine w.fair_quietly h hs _ _ ?_
      intro w' hw
      obtain ⟨job, -, rfl⟩ := Option.map_eq_some_iff.mp hw
      exact passes_of_anytime (Floor.anytime_cancelJob w.now job)
  | cancelId key =>
      dsimp only [perform]
      split
      · next task _ =>
          exact (passes_of_anytime (Floor.anytime_cancel w.now task.id)).then_fair
            (fair_reply _ h hs _ _)
      · exact w.fair_reply h hs _ _
  | unpark key =>
      refine w.fair_quietly h hs _ _ ?_
      intro w' hw
      obtain ⟨u, -, rfl⟩ := Option.map_eq_some_iff.mp hw
      exact w.passes_unpark u
  | peek key =>
      dsimp only [perform]
      split
      · exact w.fair_reply h hs _ _
      · exact w.fair_reply h hs _ _
  | sameTask a b =>
      dsimp only [perform]
      split
      · exact w.fair_reply h hs _ _
      · exact w.fair_reply h hs _ _
  | whereabouts =>
      cases h with
      | thread n => exact w.fair_reply _ hs _ _
      | task t c => exact w.fair_reply (.task t c) hs _ _
  | yieldNow =>
      cases h with
      | thread n => exact w.fair_goBack (.thread n) hs
      | task t c => exact w.carried_yieldTask hs
  | park =>
      cases h with
      | thread n => exact w.fair_parkThread n none hs
      | task t c => exact w.carried_parkTask .user none false hs
  | parkTimeout micros =>
      cases h with
      | thread n => exact w.fair_parkThread n _ hs
      | task t c => exact w.carried_parkTask .user _ false hs
  | sleep micros => exact w.fair_sleep h _ hs
  | spin micros => exact (Passes.refl w).fair hs.back h
  | critical body =>
      cases h with
      | thread n => exact (Passes.refl w).fair (hs.steps hx) (.thread n)
      | task t c =>
          have henter : Passes w (w.onEngine (·.updateCarrier c Carrier.enterCritical)) :=
            passes_of_frame (Engine.frame_updateCarrier (fun _ => rfl) fun _ => rfl)
          exact henter.fair ((hs.push (f := .critical c) trivial).steps hx) (.task t c)
  | waitReady channel interest micros => exact w.fair_waitReady h hs _ _ _ _
  | signal channel interest =>
      have hsignal : Passes w (w.onEngine fun e =>
          { e with pump := e.pump.signal channel interest }) :=
        passes_of_frame (Engine.frame_of_eq rfl rfl rfl rfl rfl (fun _ h => .inl h) rfl)
      exact hsignal.fair hs.back h
  | registered => exact w.fair_reply h hs _ _
  | groupRun group body =>
      cases h with
      | thread n => exact w.fair_reply (.thread n) hs _ _
      | task t c => exact w.carried_runInGroup hs _ _ hx
  | group group =>
      dsimp only [perform]
      split
      · exact w.fair_reply h hs _ _
      · exact w.fair_reply h hs _ _
  | attach group =>
      cases h with
      | thread n => exact w.fair_reply (.thread n) hs _ _
      | task t c =>
          exact (passes_of_frame (Engine.frame_attach w.engine w.now t group)).then_fair
            (fair_reply _ (.task t c) hs _ _)
  | detach group =>
      cases h with
      | thread n => exact w.fair_reply (.thread n) hs _ _
      | task t c =>
          have hdetach : Passes w (w.onEngine (·.detach w.now t group)) :=
            passes_of_frame (Engine.frame_detach w.engine w.now t group)
          exact hdetach.then_fair (fair_reply _ (.task t c) hs _ _)
  | groupDestroy group micros => exact w.fair_destroyGroup h hs _ _ _
  | wake key => exact hx.elim
  | arm key micros action => exact hx.elim
  | cancelTimeout key => exact hx.elim
  | shutdown => exact (w.passes_shutdown h).fair hs.back h
  | shutdownNow => exact w.fair_reply h hs _ _
  | engine => exact w.fair_reply h hs _ _
  | stats => exact w.fair_reply h hs _ _
  | unknown name => exact w.fair_reply h hs _ _

/-! ## Frames -/

theorem passes_updateJob (w : World V) (job : JobId) (g : Join (Option V) → Join (Option V)) :
    Passes w (w.onEngine (·.updateJob job g)) := passes_of_frame (Engine.frame_updateJob _ _ _)

theorem fair_joinOn (w : World V) (h : Host) (hs : s.Orderly) (job : JobId)
    (deadline : Option Nanos) : w.Fair h (w.joinOn h s job deadline) := by
  have hrelease : ∀ w' : World V, Passes w' { w' with inUse := w'.inUse.erase job } :=
    fun w' => passes_of_eq rfl rfl rfl rfl rfl
  have hpush : ∀ d, (s.push (.joining job d)).Orderly :=
    fun d => hs.push (f := .joining job d) trivial
  unfold joinOn
  split
  · exact w.fair_goBack h hs
  · next cell _ =>
      dsimp only
      split
      · split
        · exact (w.passes_updateJob job _).then_fair (fair_reply _ h hs _ _)
        · split
          · exact ⟨.refl w, (hpush none).back⟩
          · next t c =>
              exact (w.passes_updateJob job _).then_carried
                (carried_parkTask _ .internal _ false (hpush none))
      · next d =>
          split
          · exact ((w.passes_updateJob job _).trans (hrelease _)).then_fair (fair_reply _ h hs _ _)
          · split
            · split
              · exact (hrelease w).then_fair (fair_reply _ (.thread _) hs _ _)
              · exact ⟨.refl w, (hpush (some d)).back⟩
            · next t c =>
                split
                · exact ((w.passes_updateJob job _).trans (hrelease _)).then_fair
                    (fair_reply _ (.task t c) hs _ _)
                · exact (w.passes_updateJob job _).then_carried
                    (carried_parkTask _ .internal _ false (hpush (some d)))

theorem passes_detach (w : World V) (t : TaskId) (g : GroupId) :
    Passes w (w.onEngine (·.detach w.now t g)) := passes_of_frame (Engine.frame_detach _ _ _ _)

/-- What a task has seen of a channel is taken, and its registration is given back. -/
theorem passes_takeReady (w : World V) {x : Task} (hx : w.engine.task? t = some x) :
    Passes w (w.onEngine fun e => (e.updateTask t fun _ => x.takeReady.1).unregisterChannel t) :=
  passes_of_frame ((Engine.frame_put (y := x.takeReady.1) hx rfl rfl).trans
    (Engine.frame_unregisterChannel _ t))

theorem fair_draining (w : World V) (t : TaskId) (c : Nat) (hs : s.Orderly) :
    w.Fair (.task t c) (w.reenter (.task t c) s .draining) := by
  have hdraining : Passes w (w.onEngine fun e => { e with draining := true }) :=
    passes_of_frame (Engine.frame_of_eq rfl rfl rfl rfl rfl (fun _ h => .inl h) rfl)
  refine hdraining.then_fair ?_
  dsimp only [reenter]
  split
  · exact (passes_of_anytime (Floor.anytime_drainRound w.now t)).then_fair
      (fair_sleep _ (.task t c) _ (hs.push (f := .draining) trivial))
  · have hend : Passes (w.onEngine fun e => { e with draining := true })
        ((w.onEngine fun e => { e with draining := true }).onEngine
          fun e => { e with terminated := true }) :=
      passes_of_frame (Engine.frame_of_eq rfl rfl rfl rfl rfl (fun _ h => .inl h) rfl)
    exact hend.fair hs.back (.task t c)

theorem fair_settling (w : World V) (h : Host) (hs : s.Orderly) (leave : Bool) :
    w.Fair h (w.reenter h s (.settling leave)) := by
  have hquiet : Passes w { w with quiet := true } := passes_of_eq rfl rfl rfl rfl rfl
  have hsilent : Strand.Orderly { s with voice := .silent } := ⟨hs.control, hs.frames⟩
  dsimp only [reenter]
  split
  · exact (hquiet.trans (passes_shutdown _ h)).fair hsilent.back h
  · exact w.fair_sleep h _ (hs.push (f := .settling leave) trivial)

theorem fair_destroying (w : World V) (h : Host) (hs : s.Orderly) (g : GroupId) (n : Nat)
    (d : Nanos) : w.Fair h (w.reenter h s (.destroying g n d)) := by
  dsimp only [reenter]
  split
  · exact w.fair_goBack h hs
  · split
    · exact w.fair_reply h hs _ _
    · split
      · exact w.fair_reply h hs _ _
      · exact w.fair_sleep h _ (hs.push (f := .destroying g n d) trivial)

theorem fair_reenter (w : World V) (h : Host) (hs : s.Orderly) {f : Frame V} (hf : f.Orderly) :
    w.Fair h (w.reenter h s f) := by
  cases f with
  | rest steps => exact (Passes.refl w).fair (hs.steps hf) h
  | again n body =>
      cases n with
      | zero => exact w.fair_goBack h hs
      | succ n => exact (Passes.refl w).fair ((hs.push (f := .again n body) hf).steps hf) h
  | attempt => exact w.fair_reply h hs _ _
  | critical c => exact (w.passes_leaveCritical c).then_fair (fair_goBack _ h hs)
  | inGroup g =>
      cases h with
      | thread n => exact w.fair_goBack (.thread n) hs
      | task t c => exact (w.passes_detach t g).then_fair (fair_reply _ (.task t c) hs _ _)
  | resumed =>
      cases h with
      | thread n => exact w.fair_goBack (.thread n) hs
      | task t c => exact w.fair_goChecked (.task t c) t hs
  | parked a timed =>
      cases h with
      | thread n => exact w.fair_goBack (.thread n) hs
      | task t c =>
          have hend := w.moves_endPark (c := c) (t := t) a
          cases timed with
          | false => exact hend.then_carried (carried_goChecked _ c hs)
          | true =>
              exact (hend.trans (moves_disarm _ (.inr (.inl rfl)))).then_carried
                (carried_goChecked _ c hs)
  | blocked a armed => exact hf.elim
  | threadParked =>
      cases h with
      | thread n =>
          have hend := Passes.outside w n (fun x => { x with outside := x.outside.endPark })
            fun _ => rfl
          exact hend.then_fair (fair_goBack _ (.thread n) hs)
      | task t c => exact w.fair_goBack (.task t c) hs
  | sleeping d =>
      cases h with
      | thread n => exact w.fair_goBack (.thread n) hs
      | task t c =>
          dsimp only [reenter]
          split
          · exact w.fair_goBack (.task t c) hs
          · exact w.carried_parkTask .internal _ false (hs.push (f := .sleeping d) trivial)
  | joining job d => exact w.fair_joinOn h hs job d
  | waitingReady =>
      cases h with
      | thread n => exact w.fair_goBack (.thread n) hs
      | task t c =>
          dsimp only [reenter]
          split
          · exact w.fair_goBack (.task t c) hs
          · next x hx =>
              exact (w.passes_takeReady hx).then_fair (fair_reply _ (.task t c) hs _ _)
  | destroying g n d => exact w.fair_destroying h hs g n d
  | draining =>
      cases h with
      | thread n => exact w.fair_goBack (.thread n) hs
      | task t c => exact w.fair_draining t c hs
  | settling leave => exact w.fair_settling h hs leave

theorem fair_passValue (w : World V) (h : Host) (hs : s.Orderly) (v : Option V) (f : Frame V) :
    w.Fair h (w.passValue h s v f) := by
  unfold passValue
  split
  · exact w.fair_reply h hs _ _
  · next g t c => exact (w.passes_detach t g).then_fair (fair_reply _ (.task t c) hs _ _)
  · next c => exact (w.passes_leaveCritical c).fair (hs.value v) h
  · exact w.fair_goBack h (hs.push (f := .settling _) trivial)
  · exact (Passes.refl w).fair (hs.value v) h

theorem fair_passUnwind (w : World V) (h : Host) (hs : s.Orderly) (u : Unwind) (f : Frame V) :
    w.Fair h (w.passUnwind h s u f) := by
  unfold passUnwind
  split
  · exact w.fair_reply h hs _ _
  · next g t c => exact (w.passes_detach t g).fair (hs.unwind u) (.task t c)
  · next c => exact (w.passes_leaveCritical c).fair (hs.unwind u) h
  · next job _ =>
      have hreleased : Passes w { w with inUse := w.inUse.erase job } :=
        passes_of_eq rfl rfl rfl rfl rfl
      exact hreleased.fair (hs.unwind u) h
  · exact w.fair_goBack h (hs.push (f := .settling _) trivial)
  · exact (Passes.refl w).fair (hs.unwind u) h

/-! ## Turns -/

theorem moves_exit (w : World V) :
    Moves w (w.onEngine (·.exit w.now c t)) c (.working t) .looking := by
  refine moves_of_reached ?_
  intro f hf hdue he hp
  have hexit := hf.exit w.now hdue hp
  rw [he] at hexit
  exact hexit

theorem fair_conclude (w : World V) (h : Host) (hs : s.Orderly) (voice : Voice)
    (job : Option JobId) (outcome : Except Unwind (Option V)) :
    w.Fair h (w.conclude h voice job outcome, s, .over) := by
  have hlog := w.passes_record voice
  have hexit : ∀ w' : World V, Passes w w' → ∀ t c,
      w.Fair (.task t c) (w'.onEngine (·.exit w'.now c t), s, .over) := by
    intro w' hw t c
    exact ⟨.looking, hw.then_moves w'.moves_exit, .ends⟩
  unfold conclude
  cases job with
  | none =>
      cases h with
      | thread n => exact ⟨hlog _, hs⟩
      | task t c => exact hexit _ (hlog _) t c
  | some j =>
      have hfinish : ∀ w' : World V, Passes w' (w'.onEngine (·.finishJob w'.now j outcome)) :=
        fun w' => passes_of_anytime (Floor.anytime_finishJob w'.now j outcome)
      cases h with
      | thread n => exact ⟨(hlog _).trans (hfinish _), hs⟩
      | task t c => exact hexit _ ((hlog _).trans (hfinish _)) t c

theorem fair_advance (w : World V) (h : Host) (job : Option JobId) (hs : s.Orderly) :
    w.Fair h (w.advance h job s) := by
  unfold advance
  dsimp only
  split
  · exact w.fair_goBack h hs
  · next x rest hc =>
      obtain ⟨hx, hrest⟩ := hs.control _ hc
      exact w.fair_perform h (hs.push (f := .rest rest) hrest) hx
  · exact w.fair_conclude h hs _ job _
  · exact w.fair_conclude h hs _ job _
  · exact w.fair_conclude h hs _ job _
  · next f frames _ hf =>
      obtain ⟨hhead, htail⟩ := hs.pop hf
      exact w.fair_reenter h htail hhead
  · next v f frames _ hf =>
      obtain ⟨-, htail⟩ := hs.pop hf
      exact w.fair_passValue h htail v f
  · next u f frames _ hf =>
      obtain ⟨-, htail⟩ := hs.pop hf
      exact w.fair_passUnwind h htail u f

/-- A task that blocks its carrier ends its park with its next turn. -/
theorem carried_advance (w : World V) (job : Option JobId) {a : Axis} (hs : s.Blocking a) :
    w.Carried t c (.blocked t a) (w.advance (.task t c) job s) := by
  obtain ⟨hcontrol, armed, frames, hframes, hall⟩ := hs
  have hrest : Strand.Orderly { s with control := .back, frames } :=
    ⟨fun _ hc => (by cases hc), hall⟩
  simp only [advance, hcontrol, hframes, reenter]
  cases armed with
  | false => exact (w.moves_endPark_blocked a).then_carried (carried_goChecked _ c hrest)
  | true =>
      have hdisarm := w.moves_disarm (c := c) (t := t) (p := .blocked t a) (.inr (.inr ⟨a, rfl⟩))
      exact (hdisarm.trans (moves_endPark_blocked _ a)).then_carried (carried_goChecked _ c hrest)

end GreenThreads.World

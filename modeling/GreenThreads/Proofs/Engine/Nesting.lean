import GreenThreads.Proofs.Engine.Nudges

/-!
# How deep the carriers are nested

Each carrier counts the critical sections that its task is in. No operation of the engine touches
these counts, nor does one find a section that is left without having been entered: whatever is done
to tasks, groups, timers and run queues, the nesting stays as it is.
-/

namespace GreenThreads

/-- A fault that does not concern critical sections. -/
def Fault.IsOther (x : Fault) : Prop := x ≠ .unbalancedCritical

theorem Fault.isOther_of_delay {b : Bucket} {now : Nanos} {x : Fault}
    (h : b.delay now = .error x) : x.IsOther := by
  unfold Bucket.delay Bucket.extraPeriods at h
  split at h
  · cases h
  · split at h
    · cases h
      exact nofun
    · cases h

theorem Fault.isOther_of_checkMember {g : ControlGroup} {x : Task} {now : Nanos} {restart : Bool}
    {y : Fault} (h : (g.checkMember x now restart).2.2 = .error y) : y.IsOther := by
  unfold ControlGroup.checkMember at h
  split at h
  · split at h
    · cases h
    · cases h
  · next hcheck =>
      cases h
      exact isOther_of_delay (congrArg Prod.snd hcheck)

theorem Fault.isOther_of_begin {p : Parker} {native : Bool} {x : Fault}
    (h : p.begin native = .error x) : x.IsOther := by
  cases p <;> cases h <;> exact nofun

theorem Fault.isOther_of_clear {p q : Parker} {x : Fault} (h : p.clear = (q, some x)) :
    x.IsOther := by
  unfold Parker.clear at h
  split at h
  · cases h
    exact nofun
  · cases h

theorem Fault.isOther_of_reset {x y : Task} {name : String} {c : Nat} {z : Fault}
    (h : x.reset name c = (y, some z)) : z.IsOther := by
  unfold Task.reset at h
  split at h
  · cases h
    exact nofun
  · cases h
    exact nofun
  · dsimp only at h
    split at h
    · next hclear =>
        cases h
        exact isOther_of_clear hclear
    · split at h
      · next hclear =>
          cases h
          exact isOther_of_clear hclear
      · cases h

theorem Carrier.critical_dequeue? {x y : Carrier} {r : Runnable} (h : x.dequeue? = some (r, y)) :
    y.critical = x.critical := by
  unfold dequeue? at h
  split at h
  · cases h
  · cases h
    rfl

namespace Engine

variable {V : Type} {e e' : Engine V} {t : TaskId} {c : Nat} {now : Nanos}

/-- How deep each carrier is in critical sections, and how often one was left that had not been
entered. -/
def nesting (e : Engine V) : Array UInt64 × Nat :=
  (e.carriers.map (·.critical), e.faults.count .unbalancedCritical)

/-! ## Changes of one part -/

theorem nesting_congr (hc : e'.carriers = e.carriers) (hf : e'.faults = e.faults) :
    e'.nesting = e.nesting := by
  rw [nesting, hc, hf, nesting]

@[simp] theorem nesting_updateTask (e : Engine V) (t : TaskId) (f : Task → Task) :
    (e.updateTask t f).nesting = e.nesting := rfl

@[simp] theorem nesting_updateGroup (e : Engine V) (g : GroupId) (f : ControlGroup → ControlGroup) :
    (e.updateGroup g f).nesting = e.nesting := rfl

@[simp] theorem nesting_updateJob (e : Engine V) (j : JobId) (f : Join V → Join V) :
    (e.updateJob j f).nesting = e.nesting := rfl

@[simp] theorem nesting_count (e : Engine V) (n : Counter) : (e.count n).nesting = e.nesting := rfl

theorem nesting_updateCarrier {g : Carrier → Carrier}
    (h : ∀ x, e.carriers[c]? = some x → (g x).critical = x.critical) :
    (e.updateCarrier c g).nesting = e.nesting :=
  congrArg (·, _) (map_modify_of_eq h)

theorem nesting_blame {x : Fault} (h : x.IsOther) : (e.blame x).nesting = e.nesting :=
  congrArg (_, ·) (List.count_cons_of_ne h)

theorem nesting_blameIf {o : Option Fault} (h : ∀ x, o = some x → x.IsOther) :
    (e.blameIf o).nesting = e.nesting := by
  cases o with
  | none => rfl
  | some x => exact nesting_blame (h x rfl)

theorem nesting_foldl {α : Type} {k : Engine V → α → Engine V}
    (h : ∀ e x, (k e x).nesting = e.nesting) (e : Engine V) (l : List α) :
    (l.foldl k e).nesting = e.nesting := by
  induction l generalizing e with
  | nil => rfl
  | cons x l ih => exact (ih (k e x)).trans (h e x)

/-! ## Wakes -/

@[simp] theorem nesting_wake (e : Engine V) (now : Nanos) (t : TaskId) :
    (e.wake now t).nesting = e.nesting := by
  unfold wake
  split
  · rfl
  · split
    · rfl
    · split
      · exact nesting_updateCarrier fun _ _ => rfl
      · rfl

@[simp] theorem nesting_wakeReleased (e : Engine V) (now : Nanos) (t : TaskId) (r : Released) :
    (e.wakeReleased now t r).nesting = e.nesting := by
  cases r with
  | cooperative => exact nesting_wake e now t
  | native => rfl
  | permit => rfl

@[simp] theorem nesting_unpark (e : Engine V) (now : Nanos) (t : TaskId) (a : Axis) :
    (e.unpark now t a).nesting = e.nesting := by
  unfold unpark
  split
  · rfl
  · exact nesting_wakeReleased _ now t _

theorem nesting_wakeWaiting (e : Engine V) (now : Nanos) (t : TaskId) (a : Axis) :
    (e.wakeWaiting now t a).nesting = e.nesting := by
  unfold wakeWaiting
  split
  · rfl
  · split
    · exact nesting_wakeReleased _ now t _
    · rfl

@[simp] theorem nesting_useWaker (e : Engine V) (now : Nanos) (w : Waker) :
    (e.useWaker now w).nesting = e.nesting := by
  unfold useWaker
  split
  · rfl
  · split
    · exact nesting_unpark e now w.task w.axis
    · rfl

@[simp] theorem nesting_cancelTask (e : Engine V) (now : Nanos) (t : TaskId) (generation : Nat) :
    (e.cancelTask now t generation).1.nesting = e.nesting := by
  unfold cancelTask
  split
  · rfl
  · split
    · rfl
    · simp

@[simp] theorem nesting_cancel (e : Engine V) (now : Nanos) (t : TaskId) :
    (e.cancel now t).1.nesting = e.nesting := by
  unfold cancel
  split
  · rfl
  · split
    · exact nesting_cancelTask e now t _
    · rfl

@[simp] theorem nesting_cancelJob (e : Engine V) (now : Nanos) (j : JobId) :
    (e.cancelJob now j).nesting = e.nesting := by
  unfold cancelJob
  split
  · rfl
  · dsimp only
    split
    · rfl
    · exact nesting_cancelTask _ now _ _

theorem nesting_publish (e : Engine V) (now : Nanos) (j : JobId) (r : Join V × List Waker) :
    (e.publish now j r).nesting = e.nesting :=
  nesting_foldl (fun e w => nesting_useWaker e now w) _ _

@[simp] theorem nesting_finishJob (e : Engine V) (now : Nanos) (j : JobId)
    (outcome : Except Unwind V) : (e.finishJob now j outcome).nesting = e.nesting := by
  unfold finishJob
  split
  · rfl
  · exact nesting_publish e now j _

theorem nesting_abandonJob (e : Engine V) (now : Nanos) (j : JobId) :
    (e.abandonJob now j).nesting = e.nesting := by
  unfold abandonJob
  split
  · rfl
  · exact nesting_publish e now j _

theorem nesting_releaseWaiting (e : Engine V) (now : Nanos) (t : TaskId) (a : Axis) :
    (e.releaseWaiting now t a).nesting = e.nesting := by
  unfold releaseWaiting
  split
  · split
    · exact nesting_unpark e now t a
    · rfl
  · rfl

@[simp] theorem nesting_drainRound (e : Engine V) (now : Nanos) (me : TaskId) :
    (e.drainRound now me).nesting = e.nesting := by
  have hrelease : ∀ (e : Engine V) t,
      ((e.releaseWaiting now t .internal).releaseWaiting now t .user).nesting = e.nesting :=
    fun e t => (nesting_releaseWaiting _ now t .user).trans
      (nesting_releaseWaiting e now t .internal)
  exact nesting_foldl hrelease e (e.live.filter (· != me))

/-! ## Timers -/

theorem nesting_updateTimers (e : Engine V) (owner : Nat) (f : TimerQueue → TimerQueue) :
    (e.updateTimers owner f).nesting = e.nesting := by
  unfold updateTimers
  split
  · rfl
  · exact nesting_updateCarrier fun _ _ => rfl

@[simp] theorem nesting_disarm (e : Engine V) (t : TaskId) : (e.disarm t).nesting = e.nesting := by
  unfold disarm
  split
  · rfl
  · split
    · rfl
    · dsimp only
      split
      · exact nesting_updateTimers _ _ _
      · rfl

theorem nesting_register (e : Engine V) (r : TimeoutRef) : (e.register r).nesting = e.nesting :=
  nesting_updateTimers e r.owner _

@[simp] theorem nesting_arm (e : Engine V) (now : Nanos) (c : Nat) (t : TaskId) (deadline : Nanos)
    (action : TimeoutAction) (byTask : Bool) :
    (e.arm now c t deadline action byTask).nesting = e.nesting := by
  unfold arm
  generalize (if e.config.preciseTimer then preciseOwner else c) = owner
  dsimp only
  split
  · rfl
  · split
    · refine (nesting_updateCarrier ?_).trans (nesting_updateTimers _ owner _)
      exact fun _ _ => rfl
    · exact (nesting_register _ _).trans (nesting_updateTimers _ owner _)

theorem nesting_fire (e : Engine V) (now : Nanos) (r : TimeoutRef) :
    (e.fire now r).nesting = e.nesting := by
  unfold fire
  split
  · rfl
  · split
    · rfl
    · dsimp only
      split
      · exact nesting_wake _ now _
      · exact nesting_wakeWaiting _ now _ _
      · exact nesting_wakeWaiting _ now _ _

@[simp] theorem nesting_pollTimers (e : Engine V) (now : Nanos) (owner : Nat) :
    (e.pollTimers now owner).nesting = e.nesting := by
  unfold pollTimers
  split
  · rfl
  · exact (nesting_foldl (fun e k => nesting_fire e now _) _ _).trans (nesting_updateTimers e owner _)

/-! ## Channels -/

@[simp] theorem nesting_unregisterChannel (e : Engine V) (t : TaskId) :
    (e.unregisterChannel t).nesting = e.nesting := by
  unfold unregisterChannel
  split
  · rfl
  · split <;> rfl

@[simp] theorem nesting_registerChannel (e : Engine V) (t : TaskId) (ch : Channel) (i : Interest) :
    (e.registerChannel t ch i).1.nesting = e.nesting := by
  unfold registerChannel
  dsimp only
  split
  · exact nesting_unregisterChannel e t
  · exact nesting_unregisterChannel e t

theorem nesting_deliver (e : Engine V) (now : Nanos) (event : ReadyEvent) :
    (e.deliver now event).nesting = e.nesting := by
  unfold deliver
  split
  · rfl
  · split
    · exact nesting_unpark _ now _ _
    · rfl

@[simp] theorem nesting_pollEvents (e : Engine V) (now : Nanos) :
    (e.pollEvents now).nesting = e.nesting :=
  nesting_foldl (fun e event => nesting_deliver e now event) _ _

/-! ## Run times, quotas and groups -/

theorem nesting_accountRun (e : Engine V) (now : Nanos) (t : TaskId) :
    (e.accountRun now t).nesting = e.nesting := by
  unfold accountRun
  split
  · rfl
  · dsimp only
    split <;> rfl

theorem nesting_checkQuota (e : Engine V) (now : Nanos) (t : TaskId) :
    (e.checkQuota now t).1.nesting = e.nesting := by
  unfold checkQuota
  split
  · rfl
  · split
    · rfl
    · dsimp only
      split
      · rfl
      · next hdelay => exact nesting_blame (Fault.isOther_of_checkMember hdelay)

@[simp] theorem nesting_attach (e : Engine V) (now : Nanos) (t : TaskId) (g : GroupId) :
    (e.attach now t g).1.nesting = e.nesting := by
  unfold attach
  split
  · split <;> rfl
  · rfl

@[simp] theorem nesting_detach (e : Engine V) (now : Nanos) (t : TaskId) (g : GroupId) :
    (e.detach now t g).nesting = e.nesting := by
  unfold detach
  split <;> rfl

/-! ## Switches -/

theorem nesting_switchIn (e : Engine V) (now : Nanos) (c : Nat) (t : TaskId) :
    (e.switchIn now c t).nesting = e.nesting :=
  nesting_updateCarrier fun _ _ => rfl

theorem nesting_resumeOwned (e : Engine V) (now : Nanos) (c : Nat) (t : TaskId) :
    (e.resumeOwned now c t).nesting = e.nesting := by
  have hquota := nesting_checkQuota e now t
  unfold resumeOwned
  dsimp only
  split
  · simpa using hquota
  · split
    · exact hquota
    · split
      · simpa using hquota
      · exact (nesting_switchIn _ now c t).trans hquota

theorem nesting_resume (e : Engine V) (now : Nanos) (c : Nat) (t : TaskId) :
    (e.resume now c t).nesting = e.nesting := by
  unfold resume
  split
  · rfl
  · split
    · exact nesting_blame nofun
    · split
      · exact nesting_resumeOwned e now c t
      · split
        · next hs =>
            unfold steal? at hs
            split at hs
            · cases hs
            · cases hs
              exact nesting_resumeOwned _ now c t
        · exact nesting_wake _ now t

@[simp] theorem nesting_switchOut (e : Engine V) (now : Nanos) (c : Nat) :
    (e.switchOut now c).nesting = e.nesting := by
  unfold switchOut
  split
  · rfl
  · next x hx =>
      have hseat : (e.updateCarrier c ({ · with
          current := none, state := .idle, deferred := none, pendingPrecise := [] })).nesting =
          e.nesting := nesting_updateCarrier fun _ _ => rfl
      have hregister : ∀ e₁ : Engine V, (x.pendingPrecise.foldl
          (fun e number => e.register { owner := preciseOwner, number }) e₁).nesting = e₁.nesting :=
        fun e₁ => nesting_foldl (fun e number => nesting_register e _) e₁ _
      cases x.current <;> cases x.deferred <;>
        simp only [nesting_wake, hregister, nesting_updateTask, hseat]

@[simp] theorem nesting_giveAway (e : Engine V) (now : Nanos) (c : Nat) (t : TaskId) :
    (e.giveAway now c t).nesting = e.nesting :=
  (nesting_switchOut _ now c).trans (nesting_accountRun e now t)

/-! ## Submission -/

theorem nesting_place (e : Engine V) (caller : Option TaskId) (s : Submission) :
    (e.place caller s).nesting = e.nesting := by
  unfold place
  split
  · exact nesting_updateCarrier fun _ _ => rfl
  · split
    · exact nesting_updateCarrier fun _ _ => rfl
    · rfl

theorem nesting_accept (e : Engine V) (caller : Option TaskId) (name : String)
    (group : Option GroupId) : (e.accept caller name group).1.nesting = e.nesting :=
  nesting_place _ caller _

@[simp] theorem nesting_submit (e : Engine V) (caller : Option TaskId) (name : String)
    (group : Option GroupId) : (e.submit caller name group).1.nesting = e.nesting := by
  unfold submit
  split
  · rfl
  · exact nesting_accept e caller name group

@[simp] theorem nesting_submitThread (e : Engine V) (caller : Option TaskId) (name : String) :
    (e.submitThread caller name).1.nesting = e.nesting := by
  unfold submitThread
  split
  · exact nesting_submit e caller name none
  · split <;> rfl

@[simp] theorem nesting_shutdown (e : Engine V) (caller : Option TaskId) :
    (e.shutdown caller).1.nesting = e.nesting := by
  unfold shutdown
  split
  · exact nesting_accept _ caller _ _
  · rfl

/-! ## Beginning and ending work -/

theorem nesting_dequeue? {r : Runnable} (h : e.dequeue? c = some (r, e')) :
    e'.nesting = e.nesting := by
  unfold dequeue? at h
  split at h
  · next hd =>
      cases h
      obtain ⟨x, hx, hd⟩ := Option.bind_eq_some_iff.mp hd
      refine nesting_updateCarrier fun y hy => ?_
      rw [hx] at hy
      cases hy
      exact Carrier.critical_dequeue? hd
  · cases h

theorem nesting_next? {r : Runnable} (h : e.next? c = some (r, e')) : e'.nesting = e.nesting := by
  unfold next? at h
  split at h
  · next hown =>
      cases h
      exact nesting_dequeue? hown
  · cases h
  · split at h
    · next hshared =>
        cases h
        unfold dequeueShared? at hshared
        split at hshared
        · cases hshared
        · cases hshared
          rfl
    · split at h
      · cases h
      · obtain ⟨d, -, hd⟩ := List.exists_of_findSome?_eq_some h
        exact nesting_dequeue? hd

theorem nesting_popPooled? (h : e.popPooled? c = some (t, e')) : e'.nesting = e.nesting := by
  unfold popPooled? at h
  split at h
  · cases h
    exact nesting_updateCarrier fun _ _ => rfl
  · cases h

theorem nesting_obtain (e : Engine V) (c : Nat) : (e.obtain c).1.nesting = e.nesting := by
  unfold obtain
  split
  · next hown => exact (nesting_count _ _).trans (nesting_popPooled? hown)
  · split
    · rfl
    · split
      · next hpeer =>
          split at hpeer
          · cases hpeer
          · obtain ⟨d, -, hd⟩ := List.exists_of_findSome?_eq_some hpeer
            exact (nesting_count _ _).trans (nesting_popPooled? hd)
      · rfl

theorem nesting_ensureContext (e : Engine V) (t : TaskId) :
    (e.ensureContext t).nesting = e.nesting := by
  unfold ensureContext
  split
  · rfl
  · split <;> rfl

theorem nesting_assign (e : Engine V) (c : Nat) (t : TaskId) (s : Submission) :
    (e.assign c t s).nesting = e.nesting := by
  unfold assign
  split
  · rfl
  · next x hx =>
      refine (nesting_congr rfl rfl).trans (nesting_blameIf fun y hy => ?_)
      exact Fault.isOther_of_reset (Prod.ext rfl hy)

theorem nesting_begin (e : Engine V) (now : Nanos) (c : Nat) (s : Submission) :
    (e.begin now c s).nesting = e.nesting := by
  unfold begin
  dsimp only
  split
  · exact nesting_abandonJob e now s.job
  · refine (nesting_resume _ now c _).trans ?_
    have hassign := (nesting_assign ((e.obtain c).1.ensureContext (e.obtain c).2) c (e.obtain c).2
      s).trans ((nesting_ensureContext _ _).trans (nesting_obtain e c))
    split
    · exact (nesting_attach _ now _ _).trans hassign
    · exact hassign

@[simp] theorem nesting_dispatch (e : Engine V) (now : Nanos) (c : Nat) (r : Runnable) :
    (e.dispatch now c r).nesting = e.nesting := by
  cases r with
  | start s => exact nesting_begin e now c s
  | resume t => exact nesting_resume _ now c t

theorem nesting_recycle (e : Engine V) (c : Nat) (t : TaskId) :
    (e.recycle c t).nesting = e.nesting := by
  unfold recycle
  dsimp only
  split
  · exact nesting_updateCarrier fun _ _ => rfl
  · split <;> rfl

@[simp] theorem nesting_exit (e : Engine V) (now : Nanos) (c : Nat) (t : TaskId) :
    (e.exit now c t).nesting = e.nesting := by
  have hsettled : (((e.unregisterChannel t).disarm t).accountRun now t).nesting = e.nesting := by
    rw [nesting_accountRun, nesting_disarm, nesting_unregisterChannel]
  have hover : ∀ e₁ : Engine V,
      { e₁ with live := e₁.live.filter (· != t) }.finishOne.nesting = e₁.nesting :=
    fun e₁ => nesting_congr rfl rfl
  unfold exit
  rw [nesting_switchOut, nesting_recycle, hover]
  split
  · exact (nesting_detach _ now t _).trans hsettled
  · exact hsettled

theorem nesting_discardAll (e : Engine V) (ts : List TaskId) :
    (e.discardAll ts).nesting = e.nesting :=
  nesting_foldl (fun e t => nesting_updateTask e t Task.discard) e ts

@[simp] theorem nesting_endCarrier (e : Engine V) (c : Nat) :
    (e.endCarrier c).nesting = e.nesting := by
  unfold endCarrier
  split
  · rfl
  · next x hx =>
      have hend : ∀ pool, (((e.discardAll x.pool.drain.2).updateCarrier c
          ({ · with pool, state := .terminated })).nesting) = e.nesting := fun pool => by
        refine (nesting_updateCarrier ?_).trans (nesting_discardAll e _)
        exact fun _ _ => rfl
      dsimp only
      split
      · exact (nesting_discardAll _ _).trans (hend _)
      · exact hend _

end Engine

end GreenThreads

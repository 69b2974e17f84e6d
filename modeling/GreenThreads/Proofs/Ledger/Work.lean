import GreenThreads.Proofs.Engine.Records
import GreenThreads.Proofs.Floor.Errands

/-!
# Who has which work

A piece of work waits in a run queue until a task is given it. Here the operations of an engine are
described by what they do to the work that waits, to the tasks that have work, and to the pools.
Most of them leave all of this as it is.
-/

namespace GreenThreads

theorem flatMap_modify_perm {α β : Type} (k : α → List β) (h : α → α) {x : α} (l : List α) (i : Nat)
    (hi : l[i]? = some x) :
    ((l.modify i h).flatMap k ++ k x).Perm (l.flatMap k ++ k (h x)) := by
  induction l generalizing i with
  | nil => cases hi
  | cons y l ih =>
      cases i with
      | zero =>
          cases hi
          simp only [List.modify_zero_cons, List.flatMap_cons]
          exact (List.perm_append_comm.trans (List.perm_append_comm.append_left _)).trans
            (.of_eq (List.append_assoc _ _ _).symm)
      | succ i =>
          simp only [List.modify_succ_cons, List.flatMap_cons, List.append_assoc]
          exact (ih i hi).append_left _

/-- Which work a task has, if any. -/
def Task.duty (t : Task) : Task :=
  { id := t.id, status := t.status, generation := t.generation, job := t.job }

/-- The work that waits at a carrier. -/
def Carrier.starts (c : Carrier) : List Submission := c.queue.filterMap Runnable.work?

/-- `y` is `x` but for its run time and its group. -/
def Task.Metered (x y : Task) : Prop :=
  ∃ n r g, y = { x with enteredAt := n, runTime := r, group := g }

namespace Task.Metered

variable {x y : Task}

theorem refl (x : Task) : Metered x x := ⟨_, _, _, rfl⟩

theorem takeElapsed (x : Task) (now : Nanos) : Metered x (x.takeElapsed now).1 := by
  unfold Task.takeElapsed
  split <;> exact ⟨_, _, _, rfl⟩

theorem checkMember (G : ControlGroup) (x : Task) (now : Nanos) (restart : Bool) :
    Metered x (G.checkMember x now restart).2.1 := by
  unfold ControlGroup.checkMember
  split
  · split
    · split <;> exact ⟨_, _, _, rfl⟩
    · exact .refl x
  · exact .refl x

theorem attach {G G' : ControlGroup} {id : GroupId} {now : Nanos}
    (h : G.attach id x now = .ok (G', y)) : Metered x y := by
  unfold ControlGroup.attach at h
  split at h
  · cases h
  · split at h
    · split at h
      · cases h; exact .refl x
      · cases h
    · cases h
      obtain ⟨n, r, g, hx⟩ := takeElapsed x now
      exact ⟨n, r, some id, by rw [hx]⟩

theorem detach (G : ControlGroup) (id : GroupId) (x : Task) (now : Nanos) :
    Metered x (G.detach id x now).2 := by
  unfold ControlGroup.detach
  split
  · obtain ⟨n, r, g, hx⟩ := takeElapsed x now
    exact ⟨n, r, none, by simp only [ControlGroup.chargeElapsed, hx]⟩
  · exact .refl x

end Task.Metered

namespace Engine

variable {V : Type} {e e' e'' : Engine V} {t : TaskId} {c : Nat} {now : Nanos} {f : Task → Task}
  {g : Carrier → Carrier} {x y : Task} {s : Submission}

/-- All work that waits in run queues. -/
def starts (e : Engine V) : List Submission :=
  e.carriers.toList.flatMap Carrier.starts ++ e.shared.filterMap Runnable.work?

/-- Every task that belongs to a carrier belongs to one that exists. -/
def Housed (e : Engine V) : Prop :=
  ∀ t x c, e.task? t = some x → x.carrier = some c → c < e.carriers.size

/-- `e'` has the tasks of `e` with the work that they had; some may have gone from pools. -/
structure SameTasks (e e' : Engine V) : Prop where
  homes : e.Housed → e'.Housed
  tasks : e'.tasks.map Task.duty = e.tasks.map Task.duty
  size : e'.carriers.size = e.carriers.size
  pooled : ∀ t, e'.pooled t ≤ e.pooled t
  live : e'.live = e.live

/-- `e'` has the work of `e` where it was. -/
structure SameWork (e e' : Engine V) : Prop extends SameTasks e e' where
  calm : Calm e e'
  starts : e'.starts = e.starts
  jobs : e'.jobs.map Join.record = e.jobs.map Join.record
  outstanding : e'.outstanding = e.outstanding
  submitted : e'.stats.tasksSubmitted = e.stats.tasksSubmitted
  completed : e'.stats.tasksCompleted = e.stats.tasksCompleted

theorem SameTasks.trans (h : SameTasks e e') (h' : SameTasks e' e'') : SameTasks e e'' :=
  ⟨fun he => h'.homes (h.homes he), h'.tasks.trans h.tasks, h'.size.trans h.size,
    fun t => Nat.le_trans (h'.pooled t) (h.pooled t), h'.live.trans h.live⟩

theorem SameTasks.exists_task {x' : Task} (h : SameTasks e e') (hx : e'.task? t = some x') :
    ∃ x, e.task? t = some x ∧ x'.duty = x.duty := exists_of_map_eq h.tasks hx

/-- Only run queues, cells and counters change. -/
theorem sameTasks_of_eq (ht : e'.tasks = e.tasks) (hc : e'.carriers.size = e.carriers.size)
    (hp : ∀ t, e'.pooled t ≤ e.pooled t) (hl : e'.live = e.live) : SameTasks e e' := by
  refine ⟨?_, by rw [ht], hc, hp, hl⟩
  intro he t x c hx hcarrier
  rw [task?, ht] at hx
  rw [hc]
  exact he t x c hx hcarrier

/-- Only groups and other counters change. -/
theorem sameWork_of_eq (ht : e'.tasks = e.tasks) (hc : e'.carriers = e.carriers)
    (hs : e'.shared = e.shared) (hp : e'.pool = e.pool) (hl : e'.live = e.live)
    (hj : e'.jobs = e.jobs) (ho : e'.outstanding = e.outstanding)
    (hsub : e'.stats.tasksSubmitted = e.stats.tasksSubmitted)
    (hcom : e'.stats.tasksCompleted = e.stats.tasksCompleted) : SameWork e e' := by
  have hpooled : ∀ t, e'.pooled t ≤ e.pooled t := by
    intro t
    rw [pooled, hc, hp]
    exact Nat.le_refl _
  refine ⟨sameTasks_of_eq ht (by rw [hc]) hpooled hl, calm_of_tasks ht, ?_, by rw [hj], ho, hsub,
    hcom⟩
  rw [starts, hc, hs, starts]

theorem SameWork.refl (e : Engine V) : SameWork e e :=
  sameWork_of_eq rfl rfl rfl rfl rfl rfl rfl rfl rfl

theorem SameWork.trans (h : SameWork e e') (h' : SameWork e' e'') : SameWork e e'' :=
  ⟨h.toSameTasks.trans h'.toSameTasks, h.calm.trans h'.calm, h'.starts.trans h.starts,
    h'.jobs.trans h.jobs, h'.outstanding.trans h.outstanding, h'.submitted.trans h.submitted,
    h'.completed.trans h.completed⟩

theorem SameRecords.sameWork (h : SameRecords e e') : SameWork e e' := by
  have hsize : e'.carriers.size = e.carriers.size := by
    have hmap := congrArg Array.size h.carriers
    simpa using hmap
  have hduty := congrArg (Array.map Task.duty) h.tasks
  have hstarts := congrArg (·.toList.flatMap Prod.fst) h.carriers
  have hpooled : ∀ t, e'.pooled t = e.pooled t := by
    intro t
    have hcarriers : total (fun c : Carrier => c.pool.items.count t) e'.carriers =
        total (fun c : Carrier => c.pool.items.count t) e.carriers :=
      total_of_map_eq (fun x => x.2.items.count t) (fun _ => rfl) h.carriers
    unfold pooled
    rw [h.pool, hcarriers]
  simp only [Array.map_map] at hduty
  simp only [Array.toList_map, List.flatMap_map] at hstarts
  refine ⟨⟨?_, hduty, hsize, fun t => Nat.le_of_eq (hpooled t), h.live⟩, h.calm, ?_, h.jobs,
    h.outstanding, h.stats .tasksSubmitted rfl, h.stats .tasksCompleted rfl⟩
  · intro he t z d hz hd
    obtain ⟨x, hx, hrecord⟩ := exists_of_map_eq h.tasks hz
    rw [hsize]
    exact he t x d hx ((congrArg Task.carrier hrecord).symm.trans hd)
  · exact congrArg₂ (· ++ ·) hstarts h.shared

/-! ## Run times and groups -/

theorem sameWork_put (hx : e.task? t = some x) (hy : x.Metered y) :
    SameWork e (e.updateTask t fun _ => y) := by
  obtain ⟨n, r, group, rfl⟩ := hy
  refine ⟨⟨?_, map_put hx rfl, rfl, fun _ => Nat.le_refl _, rfl⟩, calm_updateTask fun z hz => ?_,
    rfl, rfl, rfl, rfl, rfl⟩
  · intro he u z d hz hd
    rw [task?_updateTask] at hz
    split at hz
    · next hu =>
        rw [hu, hx] at hz
        cases hz
        exact he t x d hx hd
    · exact he u z d hz hd
  · rw [hx] at hz
    cases hz
    exact fun _ => id

theorem sameWork_updateGroup (e : Engine V) (k : GroupId) (h : ControlGroup → ControlGroup) :
    SameWork e (e.updateGroup k h) := sameWork_of_eq rfl rfl rfl rfl rfl rfl rfl rfl rfl

theorem sameWork_accountRun (e : Engine V) (now : Nanos) (t : TaskId) :
    SameWork e (e.accountRun now t) := by
  unfold accountRun
  split
  · exact .refl e
  · next x hx =>
      have hput := sameWork_put hx (.takeElapsed x now)
      dsimp only
      split
      · exact hput.trans (sameWork_updateGroup _ _ _)
      · exact hput.trans (sameWork_of_eq rfl rfl rfl rfl rfl rfl rfl rfl rfl)

theorem sameWork_attach (e : Engine V) (now : Nanos) (t : TaskId) (k : GroupId) :
    SameWork e (e.attach now t k).1 := by
  unfold attach
  split
  · next x G hx _ =>
      split
      · next G' y hy =>
          exact (sameWork_updateGroup e k fun _ => G').trans (sameWork_put hx (.attach hy))
      · exact .refl e
  · exact .refl e

theorem sameWork_detach (e : Engine V) (now : Nanos) (t : TaskId) (k : GroupId) :
    SameWork e (e.detach now t k) := by
  unfold detach
  split
  · next x G hx _ =>
      exact (sameWork_updateGroup e k fun _ => (G.detach k x now).1).trans
        (sameWork_put hx (.detach G k x now))
  · exact .refl e

theorem sameWork_checkQuota (e : Engine V) (now : Nanos) (t : TaskId) :
    SameWork e (e.checkQuota now t).1 := by
  unfold checkQuota
  split
  · exact .refl e
  · next x hx =>
      split
      · exact .refl e
      · next k G _ =>
          have hput := (sameWork_updateGroup e k fun _ => (G.checkMember x now true).1).trans
            (sameWork_put hx (.checkMember G x now true))
          dsimp only
          split
          · exact hput
          · exact hput.trans (sameRecords_blame _ _).sameWork

/-! ## Switches -/

theorem sameWork_resumeOwned (e : Engine V) (now : Nanos) (c : Nat) (t : TaskId) :
    SameWork e (e.resumeOwned now c t) := by
  have hquota := sameWork_checkQuota e now t
  unfold resumeOwned
  dsimp only
  split
  · exact hquota.trans (((sameRecords_count _ rfl).trans (sameRecords_disarm _ t)).trans
      (sameRecords_arm _ now c t _ .resume false)).sameWork
  · split
    · exact hquota
    · split
      · exact hquota.trans ((sameRecords_count _ rfl).trans (sameRecords_wake _ now t)).sameWork
      · exact hquota.trans (sameRecords_switchIn _ now c t).sameWork

theorem sameWork_steal? (hc : c < e.carriers.size) (h : e.steal? c x = some e') :
    SameWork e e' := by
  unfold steal? at h
  split at h
  · cases h
  · cases h
    refine ⟨⟨?_, map_updateTask fun z => ?_, rfl, fun _ => Nat.le_refl _, rfl⟩,
      calm_updateTask fun z _ => ?_, rfl, rfl, rfl, rfl, rfl⟩
    · intro he u z d hz hd
      rw [task?_updateTask] at hz
      split at hz
      · obtain ⟨y, hy, rfl⟩ := Option.map_eq_some_iff.mp hz
        simp only [Task.moveCarrier] at hd
        split at hd
        · cases hd; exact hc
        · exact he u y d hy hd
      · exact he u z d hz hd
    · simp only [Task.moveCarrier]
      split <;> rfl
    · simp only [Task.moveCarrier]
      split <;> exact fun _ => id

theorem sameWork_resume (hc : c < e.carriers.size) (now : Nanos) (t : TaskId) :
    SameWork e (e.resume now c t) := by
  unfold resume
  split
  · exact .refl e
  · split
    · exact (sameRecords_blame e _).sameWork
    · split
      · exact sameWork_resumeOwned e now c t
      · split
        · next hs =>
            exact (sameWork_steal? hc hs).trans
              ((sameRecords_count _ rfl).sameWork.trans (sameWork_resumeOwned _ now c t))
        · exact ((sameRecords_count e rfl).trans (sameRecords_wake _ now t)).sameWork

/-! ## Run queues -/

/-- The work that waits in `e` is `s` and that which waits in `e'`; all else is as it was. -/
structure Left (s : Submission) (e e' : Engine V) : Prop where
  tasks : e'.tasks = e.tasks
  size : e'.carriers.size = e.carriers.size
  starts : e.starts.Perm (s :: e'.starts)
  pooled : ∀ t, e'.pooled t = e.pooled t
  live : e'.live = e.live
  jobs : e'.jobs = e.jobs
  outstanding : e'.outstanding = e.outstanding
  stats : e'.stats = e.stats

theorem Left.sameTasks (h : Left s e e') : SameTasks e e' :=
  sameTasks_of_eq h.tasks h.size (fun t => Nat.le_of_eq (h.pooled t)) h.live

theorem starts_updateCarrier {d : Carrier} (hd : e.carriers[c]? = some d) (g : Carrier → Carrier) :
    ((e.updateCarrier c g).starts ++ d.starts).Perm (e.starts ++ (g d).starts) := by
  have hmod := flatMap_modify_perm Carrier.starts g e.carriers.toList c
    (by rw [Array.getElem?_toList]; exact hd)
  have hswap : ∀ l₁ l₂ l₃ : List Submission, (l₁ ++ l₂ ++ l₃).Perm (l₁ ++ l₃ ++ l₂) := by
    intro l₁ l₂ l₃
    rw [List.append_assoc, List.append_assoc]
    exact List.perm_append_comm.append_left l₁
  unfold starts updateCarrier
  rw [Array.toList_modify]
  exact (hswap _ _ _).trans ((hmod.append_right _).trans (hswap _ _ _))

theorem starts_updateCarrier_of_eq (h : ∀ d, (g d).starts = d.starts) :
    (e.updateCarrier c g).starts = e.starts := by
  have hmap : (e.updateCarrier c g).carriers.map Carrier.starts = e.carriers.map Carrier.starts :=
    map_updateCarrier h
  have hflat := congrArg (·.toList.flatMap id) hmap
  simp only [Array.toList_map, List.flatMap_map] at hflat
  exact congrArg (· ++ _) hflat

theorem Taken.left (h : e.Taken c (.start s) e') : Left s e e' := by
  have hdequeue : ∀ {i : Nat} {e' : Engine V}, e.dequeue? i = some (.start s, e') →
      Left s e e' := by
    intro i e' hi
    obtain ⟨d, rest, hd, hqueue, rfl⟩ := dequeue?_spec hi
    refine ⟨rfl, Floor.size_updateCarrier _ _ _, ?_, fun u => pooled_updateCarrier fun _ => rfl, rfl,
      rfl, rfl, rfl⟩
    have hstarts : d.starts = s :: rest.filterMap Runnable.work? := by
      rw [Carrier.starts, hqueue]
      rfl
    have hmod := starts_updateCarrier hd ({ · with queue := rest })
    rw [hstarts] at hmod
    have hcons := List.perm_middle.symm.trans hmod
    exact ((List.perm_append_right_iff (rest.filterMap Runnable.work?)).mp hcons).symm
  cases h with
  | own hi => exact hdequeue hi
  | stolen _ _ hi => exact hdequeue hi
  | shared _ hi =>
      obtain ⟨rest, hshared, rfl⟩ := dequeueShared?_spec hi
      refine ⟨rfl, rfl, ?_, fun _ => rfl, rfl, rfl, rfl, rfl⟩
      have hstarts : e.shared.filterMap Runnable.work? = s :: rest.filterMap Runnable.work? := by
        rw [hshared]
        rfl
      simp only [starts, hstarts]
      exact List.perm_middle

theorem Taken.sameWork (h : e.Taken c (.resume t) e') : SameWork e e' := by
  have hdequeue : ∀ {i : Nat} {e' : Engine V}, e.dequeue? i = some (.resume t, e') →
      SameRecords e e' := by
    intro i e' hi
    obtain ⟨d, rest, hd, hqueue, rfl⟩ := dequeue?_spec hi
    refine sameRecords_updateCarrier fun d' hd' => ?_
    rw [hd] at hd'
    cases hd'
    simp only [Carrier.stock, hqueue]
    rfl
  cases h with
  | own hi => exact (hdequeue hi).sameWork
  | stolen _ _ hi => exact (hdequeue hi).sameWork
  | shared _ hi =>
      obtain ⟨rest, hshared, rfl⟩ := dequeueShared?_spec hi
      refine SameRecords.sameWork ⟨calm_of_tasks rfl, rfl, rfl, ?_, rfl, rfl, rfl, rfl, rfl,
        fun _ _ => rfl⟩
      rw [hshared]
      rfl

theorem leastLoaded_lt (h : 0 < e.carriers.size) : e.leastLoaded < e.carriers.size := by
  have hbest : ∀ (better : Nat → Nat → Prop) [∀ i j, Decidable (better i j)] (l : List Nat) best,
      (∀ i ∈ l, i < e.carriers.size) → best < e.carriers.size →
        l.foldl (fun best i => if better i best then i else best) best < e.carriers.size := by
    intro better _ l
    induction l with
    | nil => exact fun _ _ hbest => hbest
    | cons i l ih =>
        intro best hl hbest
        refine ih _ (fun j hj => hl j (List.mem_cons_of_mem _ hj)) ?_
        dsimp only
        split
        · exact hl i List.mem_cons_self
        · exact hbest
  refine hbest _ _ _ (fun i hi => ?_) (Nat.mod_lt _ h)
  obtain ⟨k, -, rfl⟩ := List.mem_map.mp hi
  exact Nat.mod_lt _ h

theorem left_enqueue (hc : c < e.carriers.size) (s : Submission) :
    Left s (e.updateCarrier c (·.enqueue (.start s))) e := by
  refine ⟨rfl, (Floor.size_updateCarrier _ _ _).symm, ?_, ?_, rfl, rfl, rfl, rfl⟩
  · have hmod := starts_updateCarrier (Array.getElem?_eq_getElem hc) (·.enqueue (.start s))
    have hstarts : (e.carriers[c].enqueue (.start s)).starts = e.carriers[c].starts ++ [s] := by
      simp [Carrier.starts, Carrier.enqueue, Runnable.work?]
    rw [hstarts] at hmod
    have hlast : (e.starts ++ (e.carriers[c].starts ++ [s])).Perm
        (s :: e.starts ++ e.carriers[c].starts) := by
      rw [← List.append_assoc]
      exact List.perm_append_comm
    exact (List.perm_append_right_iff _).mp (hmod.trans hlast)
  · intro u
    have hpooled : (e.updateCarrier c (·.enqueue (.start s))).pooled u = e.pooled u :=
      pooled_updateCarrier fun _ => rfl
    exact hpooled.symm

/-- Work is put into the run queue of a carrier that exists, or into the shared one. -/
theorem left_place (hmanned : 0 < e.carriers.size) (caller : Option TaskId)
    (hhome : ∀ t x c, caller = some t → e.task? t = some x → x.carrier = some c →
      c < e.carriers.size) (s : Submission) : Left s (e.place caller s) e := by
  unfold place
  split
  · exact left_enqueue (leastLoaded_lt hmanned) s
  · split
    · next d hd =>
        obtain ⟨x, hx, hcarrier⟩ := Option.bind_eq_some_iff.mp hd
        obtain ⟨t, hcaller, hx⟩ := Option.bind_eq_some_iff.mp hx
        exact left_enqueue (hhome t x d hcaller hx hcarrier) s
    · refine ⟨rfl, rfl, ?_, fun _ => rfl, rfl, rfl, rfl, rfl⟩
      simp only [starts, List.filterMap_append, ← List.append_assoc]
      exact List.perm_append_comm

/-! ## Obtaining a task -/

theorem Popped.sameWork (h : e.Popped t e') : SameWork e e' := by
  have hd := h.drawn
  have hpooled : ∀ u, e'.pooled u ≤ e.pooled u := by
    intro u
    have hu := hd.pooled u
    omega
  cases h with
  | own hi =>
      obtain ⟨d, rest, -, -, rfl⟩ := popPooled?_spec hi
      exact ⟨sameTasks_of_eq rfl hd.size hpooled rfl, calm_of_tasks rfl,
        starts_updateCarrier_of_eq fun _ => rfl, rfl, rfl, rfl, rfl⟩
  | shared hi =>
      exact ⟨sameTasks_of_eq rfl rfl hpooled rfl, calm_of_tasks rfl, rfl, rfl, rfl, rfl, rfl⟩

/-- A task for new work is taken out of a pool, or it is a new one. -/
theorem obtain_cases (e : Engine V) (c : Nat) :
    (∃ e₀, e.Popped (e.obtain c).2 e₀ ∧ SameRecords e₀ (e.obtain c).1) ∨
      e.obtain c = e.makeTask := by
  unfold obtain
  split
  · next t e₀ hi => exact .inl ⟨e₀, .own hi, sameRecords_count _ rfl⟩
  · split
    · next t pool hi => exact .inl ⟨{ e with pool }, .shared hi, sameRecords_count _ rfl⟩
    · split
      · next t e₀ hs =>
          split at hs
          · cases hs
          · obtain ⟨i, -, hi⟩ := List.exists_of_findSome?_eq_some hs
            exact .inl ⟨e₀, .own hi, sameRecords_count _ rfl⟩
      · exact .inr rfl

/-! ## The end of work -/

theorem sameRecords_foldl_useWaker (e : Engine V) (now : Nanos) (l : List Waker) :
    SameRecords e (l.foldl (useWaker · now ·) e) :=
  sameRecords_foldl (fun e w => sameRecords_useWaker e now w) e l

/-- A piece of work is marked as over, and those who waited for it are woken. -/
theorem sameRecords_publish {j : JobId} {cell : Join V} (hj : e.jobs[j]? = some cell) (now : Nanos)
    (r : Except JoinError V) : SameRecords (e.updateJob j ({ · with done := true }))
      (e.publish now j (cell.complete r)) := by
  have hjobs : (e.jobs.modify j fun _ => (cell.complete r).1).map Join.record =
      (e.jobs.modify j ({ · with done := true })).map Join.record := by
    refine map_modify_congr fun x hx => ?_
    rw [hj] at hx
    cases hx
    rfl
  have hput : SameRecords (e.updateJob j ({ · with done := true }))
      (e.updateJob j fun _ => (cell.complete r).1) :=
    ⟨calm_of_tasks rfl, rfl, rfl, rfl, rfl, rfl, hjobs, rfl, rfl, fun _ _ => rfl⟩
  exact hput.trans (sameRecords_foldl_useWaker _ now _)

theorem sameRecords_finishJob {j : JobId} {cell : Join V} (hj : e.jobs[j]? = some cell)
    (now : Nanos) (outcome : Except Unwind V) :
    SameRecords (e.updateJob j ({ · with done := true })) (e.finishJob now j outcome) := by
  simp only [finishJob, hj]
  exact sameRecords_publish hj now _

theorem sameRecords_abandonJob {j : JobId} {cell : Join V} (hj : e.jobs[j]? = some cell)
    (now : Nanos) :
    SameRecords (e.updateJob j ({ · with done := true })) (e.abandonJob now j) := by
  simp only [abandonJob, hj]
  exact sameRecords_publish hj now _

/-- A task that is kept or destroyed takes no work with it. -/
theorem sameWork_recycle (e : Engine V) (c : Nat) (t : TaskId) :
    (e.recycle c t).starts = e.starts ∧ (e.recycle c t).live = e.live ∧
      (e.recycle c t).jobs = e.jobs ∧ (e.recycle c t).outstanding = e.outstanding ∧
      (e.recycle c t).stats.tasksSubmitted = e.stats.tasksSubmitted ∧
      (e.recycle c t).stats.tasksCompleted = e.stats.tasksCompleted := by
  unfold recycle
  dsimp only
  split
  · refine ⟨?_, rfl, rfl, rfl, rfl, rfl⟩
    exact starts_updateCarrier_of_eq fun _ => rfl
  · split <;> exact ⟨rfl, rfl, rfl, rfl, rfl, rfl⟩

/-- What the end of its work does before the task is recycled, and after. -/
theorem exit_eq (e : Engine V) (now : Nanos) (c : Nat) (t : TaskId) :
    ∃ e₀, SameWork e e₀ ∧ e.exit now c t =
      (({ e₀ with live := e₀.live.filter (· != t) }.finishOne).recycle c t).switchOut now c := by
  have hsettled : SameWork e (((e.unregisterChannel t).disarm t).accountRun now t) :=
    ((sameRecords_unregisterChannel e t).trans (sameRecords_disarm _ t)).sameWork.trans
      (sameWork_accountRun _ now t)
  unfold exit
  dsimp only
  split
  · exact ⟨_, hsettled.trans (sameWork_detach _ now t _), rfl⟩
  · exact ⟨_, hsettled, rfl⟩

end Engine

end GreenThreads

import GreenThreads.Proofs.Lobby.Steps
import GreenThreads.Proofs.Total

/-!
# What holds while work is waited for

Each kind of step keeps what holds between any two steps.
-/

namespace GreenThreads.Lobby

open Engine

variable {V : Type} {l l' : Lobby V} {e : Engine V} {t u : TaskId} {n : Nat} {cell cell' : Join V}
  {x : Task} {w : Waker} {ws ws' : List Waker} {raised raised' : Bool} {p : Parker} {v : Visit}

theorem Fits.mono (h : Fits ws raised w p v) (hw : w ∈ ws → w ∈ ws')
    (hr : raised = true → raised' = true) : Fits ws' raised' w p v := by
  cases v with
  | rechecking => exact ⟨h.1, h.2.imp hw hr⟩
  | deciding => exact ⟨h.1, h.2.imp hw id⟩
  | parked => exact h.imp hw id
  | _ => exact h

theorem Fits.release (h : Fits ws raised w p v) : Fits ws raised w p.release.1 v := by
  have hwakes : p.release.1.isWaiting = false := by cases p <;> rfl
  cases v with
  | away | returned | ending => trivial
  | entering | testing | pushing | resumed | answering => exact hwakes
  | rechecking => exact ⟨hwakes, h.2⟩
  | deciding => exact ⟨hwakes, h.2.imp id fun hp => by rw [hp]; rfl⟩
  | parked => exact .inr hwakes

theorem Fits.free (h : Fits ws raised w p v) : Fits ws raised w p.wakeWaiting.1 v := by
  have hwakes : p.wakeWaiting.1.isWaiting = false := by cases p <;> rfl
  cases v with
  | away | returned | ending => trivial
  | entering | testing | pushing | resumed | answering => exact hwakes
  | rechecking => exact ⟨hwakes, h.2⟩
  | deciding => exact ⟨hwakes, h.2.imp id fun hp => by rw [hp]; rfl⟩
  | parked => exact .inr hwakes

theorem Fits.strike (h : Fits ws true w p v) : Fits ws' true w p.release.1 v := by
  have hwakes : p.release.1.isWaiting = false := by cases p <;> rfl
  cases v with
  | away | returned | ending => trivial
  | entering | testing | pushing | resumed | answering => exact hwakes
  | rechecking => exact ⟨hwakes, .inr rfl⟩
  | deciding =>
      refine ⟨hwakes, .inr ?_⟩
      cases p with
      | free | permitted => rfl
      | waiting | waitingNative => cases h.1
  | parked => exact .inr hwakes

theorem Housed.of_task (h : l.Housed cell t) (hv : l'.visits t = l.visits t)
    (htask : ∀ x, l.engine.task? t = some x → ∃ y, l'.engine.task? t = some y ∧
      y.generation = x.generation ∧
      (Fits (l.hand cell) l.finish.hasRaised ⟨t, x.generation, .internal⟩ x.internal (l.visits t) →
        Fits (l'.hand cell') l'.finish.hasRaised ⟨t, x.generation, .internal⟩ y.internal
          (l.visits t))) : l'.Housed cell' t := by
  intro hstays
  rw [hv] at hstays ⊢
  obtain ⟨x, hx, hfits⟩ := h hstays
  obtain ⟨y, hy, hgeneration, hkeeps⟩ := htask x hx
  exact ⟨y, hy, hgeneration ▸ hkeeps hfits⟩

theorem Housed.mono (h : l.Housed cell t) (hv : l'.visits = l.visits)
    (htasks : l'.engine.tasks = l.engine.tasks) (hw : ∀ w ∈ l.hand cell, w ∈ l'.hand cell')
    (hr : l.finish.hasRaised = true → l'.finish.hasRaised = true) : l'.Housed cell' t :=
  h.of_task (by rw [hv]) fun x hx => ⟨x, by rw [← hx, task?, task?, htasks], rfl,
    fun hfits => hfits.mono (hw _) hr⟩

/-- Those who are to be woken are known only once the work is marked as done. -/
theorem hasRaised_of_hand {f : Finish} (h : f.hand = some ws) : f.hasRaised = true := by
  cases f <;> first | rfl | cases h

theorem internal_wokenBy (x : Task) (now : Nanos) (r : Released) :
    (x.wokenBy now r).internal = x.internal := by
  cases r with
  | cooperative =>
      simp only [Task.wokenBy, Task.woken]
      split <;> rfl
  | native => rfl
  | permit => rfl

theorem jobs_wakeReleased (e : Engine V) (now : Nanos) (t : TaskId) (r : Released) :
    (e.wakeReleased now t r).jobs = e.jobs := by
  cases r with
  | cooperative =>
      simp only [wakeReleased, wake]
      split
      · rfl
      · split
        · rfl
        · split <;> rfl
  | native => rfl
  | permit => rfl

theorem Waits.of_finish {f f' : Finish} {v : Vigil} (h : Waits f v)
    (hraised : f'.hasRaised = f.hasRaised) (hnotified : f'.hasNotified = f.hasNotified) :
    Waits f' v := by
  cases v with
  | deciding => exact hraised.trans h
  | asleep timed notified =>
      cases notified with
      | true => trivial
      | false => exact hnotified.trans h
  | leaving answer | returned answer =>
      cases answer with
      | true => exact hraised.trans h
      | false => trivial
  | _ => trivial

theorem hasStored_of_hasRaised {f : Finish} (h : f.hasRaised = true) : f.hasStored = true := by
  cases f <;> first | rfl | cases h

/-- The work is marked as done while no thread is about to sleep: it would have the lock. -/
theorem Waits.raise {v : Vigil} (h : Waits .stored v) (hv : v.holds ≠ true) : Waits .raised v := by
  cases v with
  | deciding => exact absurd rfl hv
  | asleep timed notified => cases notified <;> exact h
  | leaving answer | returned answer =>
      cases answer with
      | true => cases h
      | false => trivial
  | _ => trivial

theorem Waits.notify {v : Vigil} (h : Waits .raised v) : Waits .notified v.notify := by
  cases v with
  | deciding => cases h
  | asleep => trivial
  | leaving answer | returned answer =>
      cases answer with
      | true => exact h
      | false => trivial
  | _ => trivial

theorem hasNotified_of_hasRaised {f : Finish} (h : f.hasRaised = false) : f.hasNotified = false := by
  cases f <;> first | rfl | cases h

theorem cell?_write (h : l.cell? = some cell) (f : Join V → Join V) :
    (l.write f).cell? = some (f cell) := by
  simp only [cell?] at h
  simp only [write, updateJob, cell?, Array.getElem?_modify, ↓reduceIte, h, Option.map_some]

theorem task?_touch (l : Lobby V) (t u : TaskId) (f : Parker → Parker) :
    (l.touch t f).engine.task? u =
      if u = t then (l.engine.task? u).map fun x => { x with internal := f x.internal }
      else l.engine.task? u := task?_updateTask _ t u _

namespace Sound

theorem start {e : Engine V} {job : JobId} {cell : Join V} (found : e.jobs[job]? = some cell)
    (open_ : cell.done = false) (empty : cell.result = none) :
    Sound { engine := e, job } cell where
  found := found
  done := open_
  stored := rfl
  result := by rw [empty]; rfl
  finisher := ⟨nofun, nofun⟩
  threads := fun _ => ⟨nofun, nofun⟩
  vigils := fun _ => trivial
  visits := fun _ => nofun
  answers := fun _ => nofun

/-! ## Others -/

theorem aside (h : Sound l cell) (ha : l.Aside e) : ∃ cell', Sound { l with engine := e } cell' := by
  obtain ⟨cell', hfound, hresult, hdone, hwaiters⟩ := ha.cell cell h.found
  have hhand : l.hand cell' = l.hand cell := by rw [hand, hand, hwaiters]
  refine ⟨cell', {
    found := hfound
    done := hdone.trans h.done
    stored := h.stored
    result := hresult ▸ h.result
    finisher := h.finisher
    threads := h.threads
    vigils := h.vigils
    visits := fun t hstays => ?_
    answers := h.answers }⟩
  obtain ⟨x, hx, hfits⟩ := h.visits t hstays
  obtain ⟨y, hy, hgeneration, hinternal⟩ := ha.tasks t x hstays hx
  refine ⟨y, hy, ?_⟩
  rw [hgeneration, hinternal]
  exact hhand ▸ hfits

/-- The axis of a task changes, but not what the task relies on. -/
theorem touch (h : Sound l cell) (t : TaskId) {f : Parker → Parker}
    (hf : ∀ w p, Fits (l.hand cell) l.finish.hasRaised w p (l.visits t) →
      Fits (l.hand cell) l.finish.hasRaised w (f p) (l.visits t)) : Sound (l.touch t f) cell where
  found := h.found
  done := h.done
  stored := h.stored
  result := h.result
  finisher := h.finisher
  threads := h.threads
  vigils := h.vigils
  visits := fun u => (h.visits u).of_task rfl fun x hx => by
    rw [task?_touch, hx]
    split
    · next hu => exact ⟨_, rfl, rfl, fun hfits => by subst hu; exact hf _ _ hfits⟩
    · exact ⟨x, rfl, rfl, id⟩
  answers := h.answers

/-! ## The wait of a task -/

theorem visit (h : Sound l cell)
    (hfits : v.stays = true → ∃ x, l.engine.task? t = some x ∧ Fits (l.hand cell)
      l.finish.hasRaised ⟨t, x.generation, .internal⟩ x.internal v)
    (hanswer : v = .returned true → l.finish.hasRaised = true) : Sound (l.visit t v) cell where
  found := h.found
  done := h.done
  stored := h.stored
  result := h.result
  finisher := h.finisher
  threads := h.threads
  vigils := h.vigils
  visits := fun u => by
    by_cases hu : u = t
    · subst hu
      intro hstays
      simp only [Lobby.visit, Function.update_self] at hstays ⊢
      exact hfits hstays
    · exact (h.visits u).of_task (Function.update_of_ne hu _ _) fun x hx => ⟨x, hx, rfl, id⟩
  answers := fun u hu => by
    simp only [Lobby.visit, Function.update_apply] at hu
    split at hu
    · exact hanswer hu
    · exact h.answers u hu

theorem turn (h : Sound l cell) {f : Parker → Parker}
    (hfits : v.stays = true → ∃ x, l.engine.task? t = some x ∧ Fits (l.hand cell)
      l.finish.hasRaised ⟨t, x.generation, .internal⟩ (f x.internal) v)
    (hanswer : v ≠ .returned true) : Sound ((l.touch t f).visit t v) cell := by
  -- While its axis changes the task relies on nothing.
  have hout : Sound (l.visit t .away) cell := h.visit nofun nofun
  have htouched : Sound ((l.touch t f).visit t .away) cell :=
    hout.touch t fun _ _ _ => by simp only [Lobby.visit, Function.update_self]; trivial
  have hback := htouched.visit (t := t) (v := v) (fun hstays => ?_) fun hv => absurd hv hanswer
  · rw [Lobby.visit, Lobby.visit, Function.update_idem] at hback
    exact hback
  · obtain ⟨x, hx, hfits⟩ := hfits hstays
    refine ⟨{ x with internal := f x.internal }, ?_, hfits⟩
    have := task?_touch l t t f
    rw [if_pos rfl, hx] at this
    exact this

/-- The cell changes, but neither its result nor its mark. -/
theorem write (h : Sound l cell) {f : Join V → Join V} (hdone : (f cell).done = cell.done)
    (hresult : (f cell).result = cell.result) (hhand : ∀ w ∈ l.hand cell, w ∈ l.hand (f cell)) :
    Sound (l.write f) (f cell) where
  found := cell?_write h.found f
  done := hdone.trans h.done
  stored := h.stored
  result := hresult ▸ h.result
  finisher := h.finisher
  threads := h.threads
  vigils := h.vigils
  visits := fun t => (h.visits t).mono rfl rfl hhand id
  answers := h.answers

theorem collect (h : Sound l cell) : Sound (l.collect cell) cell.take.1 where
  found := cell?_write h.found _
  done := h.done
  stored := h.stored
  result := by
    have hresult := h.result
    cases hr : cell.result with
    | none =>
        rw [hr] at hresult
        simpa [Lobby.collect, Lobby.write, hr] using hresult
    | some r =>
        -- What was stored is still there, so nobody has taken anything.
        rw [hr] at hresult
        cases hstored : l.stored with
        | none => rw [hstored] at hresult; cases hresult
        | some r' =>
            rw [hstored] at hresult
            have htaken : l.taken = [] := (List.cons.inj hresult).2
            obtain ⟨rfl, -⟩ := List.cons.inj hresult
            simp [Lobby.collect, Lobby.write, hr, htaken, hstored]
  finisher := h.finisher
  threads := h.threads
  vigils := h.vigils
  visits := fun t => (h.visits t).mono rfl rfl (fun _ hw => hw) id
  answers := h.answers

theorem look (h : Sound l cell) {v' : Visit} (hv : (l.visits t).unseen = some v')
    (hopen : l.finish.hasRaised = false) : Sound (l.visit t v') cell := by
  have hhoused := h.visits t
  have hnot : v' ≠ .returned true := by
    rintro rfl
    cases hat : l.visits t <;> rw [hat] at hv <;> cases hv
  refine h.visit (fun hstays => ?_) fun heq => absurd heq hnot
  cases hat : l.visits t with
  | entering | testing =>
      rw [hat] at hv
      cases hv
      obtain ⟨x, hx, hfits⟩ := hhoused (by rw [hat]; rfl)
      rw [hat] at hfits
      exact ⟨x, hx, hfits⟩
  | rechecking =>
      rw [hat] at hv
      cases hv
      obtain ⟨x, hx, hfits⟩ := hhoused (by rw [hat]; rfl)
      rw [hat, hopen] at hfits
      exact ⟨x, hx, hfits.1, .inl (hfits.2.resolve_right nofun)⟩
  | answering => rw [hat] at hv; cases hv; cases hstays
  | _ => rw [hat] at hv; cases hv

theorem visiting (h : Sound l cell) (hv : Visiting t l l') : ∃ cell', Sound l' cell' := by
  have hhoused := h.visits t
  cases hv with
  | arrive timed at_ found awake => exact ⟨cell, h.visit (fun _ => ⟨_, found, awake⟩) nofun⟩
  | see looks found told =>
      rw [h.found] at found
      cases found
      exact ⟨cell, h.visit nofun fun _ => h.done ▸ told⟩
  | miss looks found open_ =>
      rw [h.found] at found
      cases found
      exact ⟨cell, h.look looks (h.done ▸ open_)⟩
  | @push timed x at_ found =>
      obtain ⟨y, hy, hfits⟩ := hhoused (by rw [at_]; rfl)
      rw [found] at hy
      cases hy
      rw [at_] at hfits
      obtain ⟨w, hw⟩ : ∃ w : Waker, w = ⟨t, x.generation, .internal⟩ := ⟨_, rfl⟩
      rw [← hw]
      have hpushed : Sound (l.write (·.addWaiter w)) (cell.addWaiter w) := by
        refine h.write rfl rfl fun w' hw' => ?_
        cases hhand : l.finish.hand with
        | none =>
            rw [hand, hhand] at hw' ⊢
            exact List.mem_append_left _ hw'
        | some ws => rwa [hand, hhand] at hw' ⊢
      refine ⟨_, hpushed.visit (fun _ => ⟨x, found, hfits, ?_⟩) nofun⟩
      rw [← hw]
      cases hhand : l.finish.hand with
      | none =>
          refine .inl ?_
          simp only [hand, Lobby.write, hhand, Option.getD_none, Join.addWaiter]
          exact List.mem_append_right _ (.head _)
      | some ws => exact .inr (hasRaised_of_hand hhand)
  | lapse at_ =>
      obtain ⟨x, hx, hfits⟩ := hhoused (by rw [at_]; rfl)
      rw [at_] at hfits
      exact ⟨cell, h.visit (fun _ => ⟨x, hx, hfits.1⟩) nofun⟩
  | yield at_ =>
      obtain ⟨x, hx, hfits⟩ := hhoused (by rw [at_]; rfl)
      rw [at_] at hfits
      exact ⟨cell, h.visit (fun _ => ⟨x, hx, hfits.1⟩) nofun⟩
  | @begin timed x p blocks native at_ found allowed =>
      obtain ⟨y, hy, hfits⟩ := hhoused (by rw [at_]; rfl)
      rw [found] at hy
      cases hy
      rw [at_] at hfits
      refine ⟨cell, h.turn (fun _ => ⟨x, found, ?_⟩) (by cases blocks <;> exact nofun)⟩
      cases hx : x.internal with
      | free =>
          rw [hx] at allowed hfits
          cases allowed
          exact .inl (hfits.2.resolve_right nofun)
      | permitted => rw [hx] at allowed; cases allowed; rfl
      | waiting | waitingNative => rw [hx] at allowed; cases allowed
  | resume at_ =>
      obtain ⟨x, hx, -⟩ := hhoused (by rw [at_]; rfl)
      exact ⟨cell, h.visit (fun _ => ⟨x, hx, trivial⟩) nofun⟩
  | end_ at_ =>
      obtain ⟨x, hx, -⟩ := hhoused (by rw [at_]; rfl)
      exact ⟨cell, h.turn (fun _ => ⟨x, hx, by cases x.internal <;> rfl⟩) nofun⟩
  | again at_ =>
      obtain ⟨x, hx, hfits⟩ := hhoused (by rw [at_]; rfl)
      rw [at_] at hfits
      exact ⟨cell, h.visit (fun _ => ⟨x, hx, hfits⟩) nofun⟩
  | unwind at_ => exact ⟨cell, h.visit nofun nofun⟩
  | take at_ open_ found =>
      rw [h.found] at found
      cases found
      exact ⟨_, h.collect.visit nofun nofun⟩
  | leave at_ => exact ⟨cell, h.visit nofun nofun⟩

/-! ## The wait of a thread -/

theorem watch (h : Sound l cell) {v : Vigil} {k : Option Keeper} (hwaits : Waits l.finish v)
    (hlock : k = l.keeper ∧ v.holds = (l.vigils n).holds ∨
      l.keeper = none ∧ k = some (.thread n) ∧ v.holds = true ∨
      (l.vigils n).holds = true ∧ k = none ∧ v.holds = false) :
    Sound { l.watch n v with keeper := k } cell where
  found := h.found
  done := h.done
  stored := h.stored
  result := h.result
  finisher := by
    have hfinisher := h.finisher
    rcases hlock with ⟨rfl, -⟩ | ⟨hnone, rfl, -⟩ | ⟨hheld, rfl, -⟩
    · exact hfinisher
    · rw [hnone] at hfinisher
      exact ⟨nofun, fun hholds => absurd (hfinisher.mpr hholds) nofun⟩
    · rw [(h.threads n).mpr hheld] at hfinisher
      exact ⟨nofun, fun hholds => absurd (hfinisher.mpr hholds) nofun⟩
  threads := fun m => by
    have hthreads := h.threads m
    simp only [Lobby.watch, Function.update_apply]
    rcases hlock with ⟨rfl, hsame⟩ | ⟨hnone, rfl, hholds⟩ | ⟨hheld, rfl, hholds⟩
    · split
      · next hm => rw [hsame, ← hm]; exact hthreads
      · exact hthreads
    · split
      · next hm => exact ⟨fun _ => hholds, fun _ => by rw [hm]⟩
      · next hm =>
          rw [hnone] at hthreads
          exact ⟨fun heq => absurd (by cases heq; rfl) hm,
            fun hm' => absurd (hthreads.mpr hm') nofun⟩
    · split
      · rw [hholds]
        exact ⟨nofun, nofun⟩
      · next hm =>
          rw [(h.threads n).mpr hheld] at hthreads
          exact ⟨nofun, fun hm' => absurd (by cases hthreads.mpr hm'; rfl) hm⟩
  vigils := fun m => by
    simp only [Lobby.watch, Function.update_apply]
    split
    · exact hwaits
    · exact h.vigils m
  visits := h.visits
  answers := h.answers

theorem watching (h : Sound l cell) (hw : Watching n l l') : ∃ cell', Sound l' cell' := by
  have hwaits := h.vigils n
  cases hw with
  | arrive timed at_ => exact ⟨cell, h.watch trivial (.inl ⟨rfl, (congrArg Vigil.holds at_).symm⟩)⟩
  | see at_ found told =>
      rw [h.found] at found
      cases found
      exact ⟨cell, h.watch (h.done ▸ told :) (.inl ⟨rfl, (congrArg Vigil.holds at_).symm⟩)⟩
  | miss at_ => exact ⟨cell, h.watch trivial (.inl ⟨rfl, (congrArg Vigil.holds at_).symm⟩)⟩
  | lock at_ open_ => exact ⟨cell, h.watch trivial (.inr (.inl ⟨open_, rfl, rfl⟩))⟩
  | pass at_ => exact ⟨cell, h.watch trivial (.inl ⟨rfl, (congrArg Vigil.holds at_).symm⟩)⟩
  | stay at_ found open_ =>
      rw [h.found] at found
      cases found
      exact ⟨cell, h.watch (h.done ▸ open_ :) (.inl ⟨rfl, (congrArg Vigil.holds at_).symm⟩)⟩
  | lapse at_ => exact ⟨cell, h.watch trivial (.inl ⟨rfl, (congrArg Vigil.holds at_).symm⟩)⟩
  | sleep at_ =>
      rw [at_] at hwaits
      exact ⟨cell, h.watch (hasNotified_of_hasRaised hwaits)
        (.inr (.inr ⟨by rw [at_]; rfl, rfl, rfl⟩))⟩
  | stir at_ => exact ⟨cell, h.watch trivial (.inl ⟨rfl, (congrArg Vigil.holds at_).symm⟩)⟩
  | answer at_ found =>
      rw [h.found] at found
      cases found
      refine ⟨cell, h.watch ?_ (.inl ⟨rfl, (congrArg Vigil.holds at_).symm⟩)⟩
      cases hdone : cell.done with
      | true => exact (h.done.symm.trans hdone :)
      | false => trivial
  | unlock at_ =>
      rw [at_] at hwaits
      refine ⟨cell, h.watch ?_ (.inr (.inr ⟨by rw [at_]; rfl, rfl, rfl⟩))⟩
      rename_i answer
      cases answer with
      | true => exact hwaits
      | false => trivial
  | take at_ open_ found =>
      rw [h.found] at found
      cases found
      exact ⟨_, h.collect.watch trivial (.inl ⟨rfl, (congrArg Vigil.holds at_).symm⟩)⟩
  | leave at_ => exact ⟨cell, h.watch trivial (.inl ⟨rfl, (congrArg Vigil.holds at_).symm⟩)⟩

/-! ## The completion -/

/-- The completion gets on without a change of the cell, and may take the lock or give it back. -/
theorem progress (h : Sound l cell) {f : Finish} {k : Option Keeper}
    (hfound : e.jobs[l.job]? = some cell) (hmarks : f.marks = l.finish.marks)
    (hlock : k = l.keeper ∧ f.holds = l.finish.holds ∨
      l.keeper = none ∧ k = some .finish ∧ f.holds = true ∨
      l.finish.holds = true ∧ k = none ∧ f.holds = false)
    (hvisits : ∀ t, Housed { l with engine := e, finish := f, keeper := k } cell t) :
    Sound { l with engine := e, finish := f, keeper := k } cell where
  found := hfound
  done := h.done.trans (congrArg (·.2.1) hmarks).symm
  stored := h.stored.trans (congrArg (·.1) hmarks).symm
  result := h.result
  finisher := by
    rcases hlock with ⟨rfl, hsame⟩ | ⟨-, rfl, hholds⟩ | ⟨-, rfl, hholds⟩
    · rw [hsame]
      exact h.finisher
    · exact ⟨fun _ => hholds, fun _ => rfl⟩
    · rw [hholds]
      exact ⟨nofun, nofun⟩
  threads := fun n => by
    have hthreads := h.threads n
    rcases hlock with ⟨rfl, -⟩ | ⟨hnone, rfl, -⟩ | ⟨hheld, rfl, -⟩
    · exact hthreads
    · rw [hnone] at hthreads
      exact ⟨nofun, fun hn => absurd (hthreads.mpr hn) nofun⟩
    · rw [h.finisher.mpr hheld] at hthreads
      exact ⟨nofun, fun hn => absurd (hthreads.mpr hn) nofun⟩
  vigils := fun n =>
    (h.vigils n).of_finish (congrArg (·.2.1) hmarks) (congrArg (·.2.2) hmarks)
  visits := hvisits
  answers := fun t ht => (congrArg (·.2.1) hmarks).trans (h.answers t ht)

/-- A task whose waker was not the first of those to be used. -/
theorem drop {rest : List Waker} (hfits : Fits (w :: rest) raised ⟨t, x.generation, .internal⟩ p v)
    (hw : w ≠ ⟨t, x.generation, .internal⟩) :
    Fits rest raised ⟨t, x.generation, .internal⟩ p v :=
  hfits.mono (fun hmem => (List.mem_cons.mp hmem).resolve_left (Ne.symm hw)) id

theorem completing (h : Sound l cell) (hc : Completing l l') : ∃ cell', Sound l' cell' := by
  cases hc with
  | lock at_ open_ =>
      exact ⟨cell, h.progress h.found (by rw [at_]; rfl)
        (.inr (.inl ⟨open_, rfl, rfl⟩)) fun t => (h.visits t).mono rfl rfl
          (by rw [hand, at_]; exact fun _ hw => hw) (by rw [at_]; exact nofun)⟩
  | store r at_ =>
      have hstored := h.stored
      have hresult := h.result
      rw [at_] at hstored
      have hnone : l.stored = none := Option.not_isSome_iff_eq_none.mp (by rw [hstored]; exact nofun)
      rw [hnone] at hresult
      exact ⟨_, {
        found := cell?_write h.found _
        done := h.done.trans (by rw [at_]; rfl)
        stored := rfl
        result := congrArg ([r] ++ ·) (List.append_eq_nil_iff.mp hresult).2
        finisher := h.finisher.trans (by rw [at_]; exact Iff.rfl)
        threads := h.threads
        vigils := fun n => (h.vigils n).of_finish (by rw [at_]; rfl) (by rw [at_]; rfl)
        visits := fun t => (h.visits t).mono rfl rfl (by rw [hand, at_]; exact fun _ hw => hw)
          (by rw [at_]; exact id)
        answers := fun t ht => absurd (h.answers t ht) (by rw [at_]; exact nofun) }⟩
  | raise at_ =>
      have hheld := h.finisher.mpr (by rw [at_]; rfl)
      exact ⟨_, {
        found := cell?_write h.found _
        done := rfl
        stored := h.stored.trans (by rw [at_]; rfl)
        result := h.result
        finisher := h.finisher.trans (by rw [at_]; exact Iff.rfl)
        threads := h.threads
        vigils := fun n => by
          have hthread := h.threads n
          rw [hheld] at hthread
          exact (at_ ▸ h.vigils n : Waits .stored _).raise fun hholds =>
            absurd (hthread.mpr hholds) nofun
        visits := fun t => (h.visits t).mono rfl rfl (by rw [hand, at_]; exact fun _ hw => hw)
          fun _ => rfl
        answers := fun _ _ => rfl }⟩
  | notify at_ =>
      exact ⟨cell, {
        found := h.found
        done := h.done.trans (by rw [at_]; rfl)
        stored := h.stored.trans (by rw [at_]; rfl)
        result := h.result
        finisher := h.finisher.trans (by rw [at_]; exact Iff.rfl)
        threads := fun n => (h.threads n).trans (by rw [Vigil.holds_notify])
        vigils := fun n => (at_ ▸ h.vigils n : Waits .raised _).notify
        visits := fun t => (h.visits t).mono rfl rfl (by rw [hand, at_]; exact fun _ hw => hw)
          fun _ => rfl
        answers := fun _ _ => rfl }⟩
  | unlock at_ =>
      exact ⟨cell, h.progress h.found (by rw [at_]; rfl)
        (.inr (.inr ⟨by rw [at_]; rfl, rfl, rfl⟩)) fun t => (h.visits t).mono rfl rfl
          (by rw [hand, at_]; exact fun _ hw => hw) fun _ => rfl⟩
  | gather at_ found =>
      rw [h.found] at found
      cases found
      exact ⟨_, {
        found := cell?_write h.found _
        done := h.done.trans (by rw [at_]; rfl)
        stored := h.stored.trans (by rw [at_]; rfl)
        result := h.result
        finisher := h.finisher.trans (by rw [at_]; exact Iff.rfl)
        threads := h.threads
        vigils := fun n => (h.vigils n).of_finish (by rw [at_]; rfl) (by rw [at_]; rfl)
        visits := fun t => (h.visits t).mono rfl rfl (by rw [hand, at_]; exact fun _ hw => hw)
          fun _ => rfl
        answers := fun _ _ => rfl }⟩
  | call at_ found same =>
      exact ⟨cell, h.progress h.found (by rw [at_]; rfl)
        (.inl ⟨rfl, by rw [at_]; rfl⟩) fun t => (h.visits t).mono rfl rfl
          (by rw [hand, at_]; exact fun _ hw => hw) fun _ => rfl⟩
  | @skip w rest at_ other =>
      refine ⟨cell, h.progress h.found (by rw [at_]; rfl)
        (.inl ⟨rfl, by rw [at_]; rfl⟩) fun t => (h.visits t).of_task rfl fun x hx => ?_⟩
      refine ⟨x, hx, rfl, fun hfits => ?_⟩
      rw [hand, at_] at hfits
      exact drop hfits fun hw => other x (by rw [hw]; exact hx) (by rw [hw])
  | @strike w rest x at_ found =>
      refine ⟨cell, h.progress h.found (by rw [at_]; rfl)
        (.inl ⟨rfl, by rw [at_]; rfl⟩) fun t => (h.visits t).of_task rfl fun y hy => ?_⟩
      rw [hand, at_]
      rw [task?_updateTask]
      split
      · next ht =>
          subst ht
          rw [found] at hy
          cases hy
          refine ⟨_, by rw [found]; rfl, by cases w.axis <;> rfl, fun hfits => ?_⟩
          by_cases hw : w = ⟨w.task, x.generation, .internal⟩
          · rw [hw] at hfits ⊢
            exact hfits.strike
          · have hrest := drop hfits hw
            cases ha : w.axis with
            | user => exact hrest
            | internal => exact hrest.release
      · next ht =>
          exact ⟨y, hy, rfl, fun hfits => drop hfits fun hw => ht (by rw [hw])⟩
  | @rouse t found rest now at_ =>
      refine ⟨cell, h.progress ?_ (by rw [at_]; rfl)
        (.inl ⟨rfl, by rw [at_]; rfl⟩) fun u => (h.visits u).of_task rfl fun y hy => ?_⟩
      · rw [jobs_wakeReleased]
        exact h.found
      · rw [hand, at_]
        rw [task?_wakeReleased, hy]
        split
        · exact ⟨_, rfl, Task.generation_wokenBy found, fun hfits => by
            rw [internal_wokenBy]; exact hfits⟩
        · exact ⟨y, rfl, rfl, id⟩
  | return_ at_ =>
      exact ⟨cell, h.progress h.found (by rw [at_]; rfl)
        (.inl ⟨rfl, by rw [at_]; rfl⟩) fun t => (h.visits t).mono rfl rfl
          (by rw [hand, at_]; exact fun _ hw => hw) fun _ => rfl⟩

theorem step (h : Sound l cell) (hs : Step l l') : ∃ cell', Sound l' cell' := by
  cases hs with
  | complete hc => exact h.completing hc
  | visit t hv => exact h.visiting hv
  | watch n hw => exact h.watching hw
  | aside ha => exact h.aside ha
  | release t => exact ⟨cell, h.touch t fun _ _ hfits => hfits.release⟩
  | free t => exact ⟨cell, h.touch t fun _ _ hfits => hfits.free⟩

end Sound

theorem Reached.sound (h : Reached l) : ∃ cell, Sound l cell := by
  induction h with
  | start found open_ empty => exact ⟨_, .start found open_ empty⟩
  | step _ hs ih =>
      obtain ⟨cell, hsound⟩ := ih
      exact hsound.step hs

end GreenThreads.Lobby

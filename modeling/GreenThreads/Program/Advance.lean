import GreenThreads.Program.Perform

/-!
# Running strands

One action of a strand: it takes its next step, goes back to a frame, or ends on the way out of
its frames with a value or by being unwound.
-/

namespace GreenThreads.World

variable {V : Type}

/-- Takes the result of a piece of work, or waits on for it. With a deadline the handle is still
kept by others, and nothing is the answer once it is reached. -/
def joinOn (w : World V) (h : Host) (s : Strand V) (job : JobId) (deadline : Option Nanos) :
    Turn V :=
  match w.engine.jobs[job]? with
  | none => w.goBack s
  | some cell =>
    let release (w : World V) : World V := { w with inUse := w.inUse.erase job }
    match deadline with
    | none =>
      if cell.done then
        let (cell, r) := cell.takeFinal
        (w.onEngine (·.updateJob job fun _ => cell)).reply s "join" (.result r)
      else
        match h with
        | .thread _ =>
          (w, { s.push (.joining job none) with control := .back }, .wait (.done job) none)
        | .task t c =>
          (w.onEngine (·.updateJob job (·.addWaiter (w.waker t .internal)))).parkUntil t c
            (s.push (.joining job none)) none
    | some d =>
      let expired := decide (d - w.now ≤ 0)
      if cell.done then
        let (cell, r) := cell.takeIfDone
        (release (w.onEngine (·.updateJob job fun _ => cell))).reply s "join_timeout"
          (match r with
            | some r => .result r
            | none => .nothing)
      else
        match h with
        | .thread _ =>
          if expired then (release w).reply s "join_timeout" .nothing
          else
            (w, { s.push (.joining job (some d)) with control := .back },
              .wait (.done job) (some d))
        | .task t c =>
          let w := w.onEngine (·.updateJob job (·.addWaiter (w.waker t .internal)))
          if expired then (release w).reply s "join_timeout" .nothing
          else w.parkUntil t c (s.push (.joining job (some d))) (some d)

/-- Goes back to a frame. -/
def reenter (w : World V) (h : Host) (s : Strand V) (f : Frame V) : Turn V :=
  match f, h with
  | .rest steps, _ => w.go s (.steps steps)
  | .again 0 _, _ => w.goBack s
  | .again (n + 1) body, _ => w.go (s.push (.again n body)) (.steps body)
  | .attempt, _ => w.reply s "catch" (.result (.ok none))
  | .critical c, _ => (w.leaveCritical c).goBack s
  | .inGroup g, .task t _ =>
    (w.onEngine (·.detach w.now t g)).reply s "group_run" (.result (.ok none))
  | .resumed, .task t _ => w.goChecked t s
  | .parked a timed, .task t _ =>
    let w := w.endPark t a
    (if timed then w.onEngine (·.disarm t) else w).goChecked t s
  | .blocked a armed, .task t _ =>
    ((if armed then w.onEngine (·.disarm t) else w).endPark t a).goChecked t s
  | .threadParked, .thread n =>
    let threads := w.threads.modify n fun x => { x with outside := x.outside.endPark }
    { w with threads }.goBack s
  | .sleeping d, .task t c =>
    if d - w.now ≤ 0 then w.goBack s else w.parkUntil t c (s.push (.sleeping d)) (some d)
  | .joining job d, _ => w.joinOn h s job d
  | .waitingReady, .task t _ =>
    match w.engine.task? t with
    | none => w.goBack s
    | some task =>
      let (task, mask) := task.takeReady
      (w.onEngine fun e => (e.updateTask t fun _ => task).unregisterChannel t).reply s "wait_io"
        (.number mask.toNat)
  | .destroying g n d, _ =>
    match w.engine.groups[g]? with
    | none => w.goBack s
    | some group =>
      if (group.others h.task?).isEmpty then w.reply s "group_destroy" (.number n)
      else if d - w.now ≤ 0 then w.reply s "group_destroy" (.error .timedOut)
      else w.sleep h (s.push (.destroying g n d)) pollInterval
  | .draining, .task t _ =>
    let w := w.onEngine fun e => { e with draining := true }
    if 1 < w.engine.outstanding then
      (w.onEngine (·.drainRound w.now t)).sleep h (s.push .draining) pollInterval
    else (w.onEngine fun e => { e with terminated := true }).goBack s
  | .settling leave, _ =>
    if leave ∨ w.engine.outstanding = 0 then
      ({ w with quiet := true }.shutdown h).goBack { s with voice := .silent }
    else w.sleep h (s.push (.settling leave)) pollInterval
  | _, _ => w.goBack s

/-- Leaves a frame with a value. -/
def passValue (w : World V) (h : Host) (s : Strand V) (v : Option V) (f : Frame V) : Turn V :=
  match f, h with
  | .attempt, _ => w.reply s "catch" (.result (.ok v))
  | .inGroup g, .task t _ =>
    (w.onEngine (·.detach w.now t g)).reply s "group_run" (.result (.ok v))
  | .critical c, _ => (w.leaveCritical c).go s (.value v)
  | .settling leave, _ => w.goBack (s.push (.settling leave))
  | _, _ => w.go s (.value v)

/-- Leaves a frame while being unwound. -/
def passUnwind (w : World V) (h : Host) (s : Strand V) (u : Unwind) (f : Frame V) : Turn V :=
  match f, h with
  | .attempt, _ => w.reply s "catch" (.result (.error u.toJoinError))
  | .inGroup g, .task t _ => (w.onEngine (·.detach w.now t g)).go s (.unwind u)
  | .critical c, _ => (w.leaveCritical c).go s (.unwind u)
  | .joining job (some _), _ => { w with inUse := w.inUse.erase job }.go s (.unwind u)
  | .settling leave, _ => w.goBack (s.push (.settling leave))
  | _, _ => w.go s (.unwind u)

/-- One action of a strand that carries a piece of work. -/
def advance (w : World V) (h : Host) (job : Option JobId) (s : Strand V) : Turn V :=
  let conclude (outcome : Except Unwind (Option V)) : Turn V :=
    (w.conclude h s.voice job outcome, s, .over)
  match s.control, s.frames with
  | .steps [], _ => w.goBack s
  | .steps (x :: rest), _ => w.perform h (s.push (.rest rest)) x
  | .back, [] => conclude (.ok none)
  | .value v, [] => conclude (.ok v)
  | .unwind u, [] => conclude (.error u)
  | .back, f :: frames => w.reenter h { s with frames } f
  | .value v, f :: frames => w.passValue h { s with frames } v f
  | .unwind u, f :: frames => w.passUnwind h { s with frames } u f

end GreenThreads.World

import GreenThreads.Program.World

/-!
# Parking

The ways in which a running program waits. A task gives its carrier away while it waits, except in
a critical section, where it blocks the carrier; a thread always blocks. Whenever a task goes on it
first checks whether it may.
-/

namespace GreenThreads.World

variable {V : Type}

/-- The world, the strand and its pace after an action. -/
abbrev Turn (V : Type) := World V × Strand V × Pace

/-- The strand goes on with `c`. -/
def go (w : World V) (s : Strand V) (c : Control V) : Turn V :=
  (w, { s with control := c }, .busy tick)

/-- The strand goes back to its topmost frame. -/
def goBack (w : World V) (s : Strand V) : Turn V := w.go s .back

/-- Finds out whether a task may go on. -/
def checkpoint (w : World V) (t : TaskId) : World V × Option Unwind :=
  match w.engine.task? t with
  | none => (w, none)
  | some task =>
    let (task, u) := task.checkpoint
    (w.onEngine (·.updateTask t fun _ => task), u)

/-- Goes back if the task may go on, and is unwound if not. -/
def goChecked (w : World V) (t : TaskId) (s : Strand V) : Turn V :=
  match w.checkpoint t with
  | (w, none) => w.goBack s
  | (w, some u) => w.go s (.unwind u)

/-- The task gives its carrier away; `f` says how it goes on. -/
def giveAway (w : World V) (t : TaskId) (c : Nat) (s : Strand V) (f : Frame V) : Turn V :=
  (w.onEngine (·.giveAway w.now c t), { s.push f with control := .back }, .away)

/-- Lets the other tasks of the carrier go first, outside of critical sections. -/
def yieldTask (w : World V) (t : TaskId) (c : Nat) (s : Strand V) : Turn V :=
  match w.checkpoint t with
  | (w, some u) => w.go s (.unwind u)
  | (w, none) =>
    if w.engine.inCritical c then w.goBack s
    else (w.onEngine (·.updateCarrier c (·.deferWake t))).giveAway t c s .resumed

/-- Leaves a critical section of a carrier. -/
def leaveCritical (w : World V) (c : Nat) : World V :=
  match w.engine.carriers[c]? with
  | none => w
  | some carrier =>
    let (carrier, fault) := carrier.exitCritical
    w.onEngine fun e => (e.updateCarrier c fun _ => carrier).blameIf fault

/-- Begins a park of a task: the answer says whether it has to block. -/
def beginPark (w : World V) (t : TaskId) (a : Axis) (native : Bool) :
    World V × Except Fault Bool :=
  match w.engine.task? t with
  | none => (w, .ok false)
  | some task =>
    match (task.parker a).begin native with
    | .error f => (w.onEngine (·.blame f), .error f)
    | .ok (p, blocks) => (w.onEngine (·.updateTask t (·.setParker a p)), .ok blocks)

/-- Ends a park of a task. -/
def endPark (w : World V) (t : TaskId) (a : Axis) : World V :=
  w.onEngine (·.updateTask t fun task => task.setParker a (task.parker a).finish)

/-- Parks a task in a critical section: it blocks its carrier. -/
def parkBlocking (w : World V) (t : TaskId) (c : Nat) (s : Strand V) (a : Axis)
    (deadline : Option Nanos) : Turn V :=
  match w.beginPark t a true with
  | (w, .error f) => w.go s (.unwind (.failed f.message))
  | (w, .ok false) => w.goChecked t s
  | (w, .ok true) =>
    let wait (w : World V) (armed : Bool) (deadline : Option Nanos) : Turn V :=
      (w, { s.push (.blocked a armed) with control := .back }, .wait (.released a) deadline)
    match deadline with
    | none => wait w false none
    | some d =>
      if w.engine.config.preciseTimer then
        wait (w.onEngine (·.arm w.now c t d (.wakeNative a) true)) true none
      else wait w false (some d)

/-- Parks a task outside of critical sections: it gives its carrier away. -/
def parkGiving (w : World V) (t : TaskId) (c : Nat) (s : Strand V) (a : Axis)
    (deadline : Option Nanos) : Turn V :=
  match w.beginPark t a false with
  | (w, .error f) => w.go s (.unwind (.failed f.message))
  | (w, .ok false) => w.goChecked t s
  | (w, .ok true) =>
    let w := match deadline with
      | none => w
      | some d => w.onEngine (·.arm w.now c t d (.wakeCooperative a) true)
    w.giveAway t c s (.parked a deadline.isSome)

/-- Parks a task, for `timeout` nanoseconds at most. A park that is too short only yields. A task
that parks for anything but a channel gives its registration back. -/
def parkTask (w : World V) (t : TaskId) (c : Nat) (s : Strand V) (a : Axis)
    (timeout : Option Nat) (forChannel : Bool) : Turn V :=
  match w.checkpoint t with
  | (w, some u) => w.go s (.unwind u)
  | (w, none) =>
    if timeout.any (· < w.engine.config.minPark) then w.yieldTask t c s
    else
      let w := if forChannel then w else w.onEngine (·.unregisterChannel t)
      let deadline := timeout.map fun n => w.now.deadlineAfter (Nanos.clamp n)
      if w.engine.inCritical c then w.parkBlocking t c s a deadline
      else w.parkGiving t c s a deadline

/-- Parks a task on the axis of the engine until a deadline. -/
def parkUntil (w : World V) (t : TaskId) (c : Nat) (s : Strand V) (deadline : Option Nanos) :
    Turn V :=
  w.parkTask t c s .internal (deadline.map fun d => (d - w.now).toInt.toNat) false

/-- Parks a thread. -/
def parkThread (w : World V) (n : Nat) (s : Strand V) (timeout : Option Nat) : Turn V :=
  match w.threads[n]? with
  | none => w.goBack s
  | some thread =>
    match thread.outside.beginPark with
    | .error f => w.go s (.unwind (.failed f.message))
    | .ok (outside, blocks) =>
      let w := { w with threads := w.threads.modify n ({ · with outside }) }
      if blocks then
        (w, { s.push .threadParked with control := .back },
          .wait (.released .user) (timeout.map fun k => w.now.deadlineAfter (Nanos.clamp k)))
      else w.goBack s

/-- Waits for some time. -/
def sleep (w : World V) (h : Host) (s : Strand V) (time : Nanos) : Turn V :=
  match h with
  | .thread _ => (w, { s with control := .back }, .busy (time.satAdd latency))
  | .task _ _ => w.goBack (s.push (.sleeping (w.now.deadlineAfter time)))

end GreenThreads.World

import GreenThreads.Program.Advance

/-!
# Running worlds

Whoever is ready first acts next: a thread, a carrier, or the precise timer. A carrier acts by
letting its task act, or by looking for something to do. After each action those who wait for
something that has come about become ready.
-/

namespace GreenThreads.World

variable {V : Type}

/-! ## Waiting -/

/-- Whether a carrier would find an entry in some run queue. -/
def findsWork (w : World V) (c : Nat) : Bool := w.engine.terminated || (w.engine.next? c).isSome

/-- Whether what carrier `c` waits for has come about. -/
def carrierMayGo (w : World V) (c : Nat) : Wait → Bool
  | .released a =>
    match (w.engine.current? c).bind w.engine.task? with
    | some task => task.parker a != .waitingNative
    | none => true
  | .done job => (w.engine.jobs[job]?.map (·.done)).getD true
  | .work => w.findsWork c
  | .events => w.engine.pump.isSignalled

/-- Whether what a thread waits for has come about. -/
def threadMayGo (w : World V) (thread : Thread V) : Wait → Bool
  | .released _ => thread.outside.parker != .waitingNative
  | .done job => (w.engine.jobs[job]?.map (·.done)).getD true
  | .work | .events => true

/-- The earlier of two times, where `none` is never. -/
def earlier : Option Nanos → Option Nanos → Option Nanos
  | some a, some b => some (min a b)
  | a, none => a
  | none, b => b

/-- Makes a lane ready if what it waits for has come about. -/
def rouseLane (now : Nanos) (mayGo : Wait → Bool) (lane : Lane) : Lane :=
  match lane.wait with
  | none => lane
  | some what =>
    if mayGo what then { lane with readyAt := earlier lane.readyAt (some (now.satAdd latency)) }
    else lane

/-- Makes everybody ready who waits for something that has come about. -/
def rouse (w : World V) : World V :=
  { w with
    lanes := w.lanes.mapIdx fun c lane => rouseLane w.now (w.carrierMayGo c) lane
    threads := w.threads.map fun x => { x with lane := rouseLane w.now (w.threadMayGo x) x.lane } }

/-- The lane of somebody who blocks. -/
def waitLane (what : Wait) (deadline : Option Nanos) : Lane :=
  { readyAt := deadline.map (·.satAdd latency), wait := some what }

/-- The lane of a strand that has acted at `now`. -/
def laneAfter (now : Nanos) : Pace → Lane
  | .busy cost => { readyAt := some (now.satAdd cost) }
  | .wait what deadline => waitLane what deadline
  | .away | .over => { readyAt := some (now.satAdd switchCost) }

/-! ## Actions -/

/-- An action of a thread. -/
def actThread (w : World V) (n : Nat) : World V :=
  match w.threads[n]? with
  | none => w
  | some thread =>
    let h : Host := .thread n
    let (w, s) := match thread.strand, thread.job with
      | some s, _ => (w, s)
      | none, some job => w.begin h job
      | none, none => (w, { voice := .silent, control := .back })
    let (w, s, pace) := w.advance h thread.job s
    let lane := match pace with
      | .over => { readyAt := none }
      | _ => laneAfter w.now pace
    { w with threads := w.threads.modify n ({ · with strand := some s, lane }) }

/-- Stores the strand of a task. -/
def setStrand (w : World V) (t : TaskId) (s : Option (Strand V)) : World V :=
  { w with strands :=
      (w.strands ++ Array.replicate (t.index + 1 - w.strands.size) none).setIfInBounds t.index s }

/-- An action of the task that carrier `c` runs. -/
def actTask (w : World V) (c : Nat) (t : TaskId) : World V :=
  let h : Host := .task t c
  let job := (w.engine.task? t).bind (·.job)
  let (w, s) := match w.strands.getD t.index none, job with
    | some s, _ => (w, s)
    | none, some job => w.begin h job
    | none, none => (w, { voice := .silent, control := .back })
  let (w, s, pace) := w.advance h job s
  let w := w.setStrand t (match pace with
    | .over => none
    | _ => some s)
  { w with lanes := w.lanes.setIfInBounds c (laneAfter w.now pace) }

/-- Carrier `c` has found nothing to do: it ends, or it waits for events or for work. -/
def rest (w : World V) (c : Nat) : World V :=
  if w.engine.terminated then
    let w := w.onEngine (·.endCarrier c)
    { w with lanes := w.lanes.setIfInBounds c { readyAt := none } }
  else
    let next := (w.engine.carriers[c]?).bind (·.timers.next?)
    let lane :=
      if w.engine.ioWaiters = 0 then waitLane .work next
      else waitLane .events (earlier next (some (w.now.satAdd pollInterval)))
    { w with lanes := w.lanes.setIfInBounds c lane }

/-- A look of carrier `c` for something to do: due timeouts first, then the run queues. -/
def look (w : World V) (c : Nat) : World V :=
  let w := w.onEngine (·.pollTimers w.now c)
  match w.engine.next? c with
  | some (r, engine) =>
    let w := { w with engine := engine.dispatch w.now c r }
    { w with lanes := w.lanes.setIfInBounds c { readyAt := some (w.now.satAdd switchCost) } }
  | none => w.rest c

/-- An action of carrier `c`. -/
def actCarrier (w : World V) (c : Nat) : World V :=
  match w.engine.current? c with
  | some t => w.actTask c t
  | none =>
    match (w.lanes[c]?).bind (·.wait) with
    | some .events => (w.onEngine (·.pollEvents w.now)).look c
    | _ => w.look c

/-! ## The run -/

/-- Those who act. -/
inductive Actor where
  | thread (number : Nat)
  | carrier (number : Nat)
  | preciseTimer
deriving DecidableEq, Repr

/-- When each of them is ready. -/
def agenda (w : World V) : List (Actor × Option Nanos) :=
  (w.threads.toList.mapIdx fun n x => (Actor.thread n, x.lane.readyAt))
    ++ (w.lanes.toList.mapIdx fun c lane => (Actor.carrier c, lane.readyAt))
    ++ [(Actor.preciseTimer,
        if w.engine.running = 0 then none else w.engine.precise.next?.map (·.satAdd latency))]

/-- The first of those who are ready earliest. -/
def earliest : List (Actor × Option Nanos) → Option (Actor × Nanos)
  | [] => none
  | (_, none) :: l => earliest l
  | (a, some t) :: l =>
    match earliest l with
    | some (b, u) => if u < t then some (b, u) else some (a, t)
    | none => some (a, t)

/-- An action. -/
def act (w : World V) : Actor → World V
  | .thread n => w.actThread n
  | .carrier c => w.actCarrier c
  | .preciseTimer => w.onEngine (·.pollTimers w.now Engine.preciseOwner)

/-- The next action; `none` if nobody will ever act again. -/
def step? (w : World V) : Option (World V) :=
  (earliest w.agenda).map fun (a, t) => ({ w with now := max w.now t }.act a).rouse

/-- At most `n` actions. -/
def runFor : Nat → World V → World V
  | 0, w => w
  | n + 1, w =>
    match w.step? with
    | some w => runFor n w
    | none => w

/-- The time at which a world begins. -/
def epoch : Nanos := 1000000000

/-- A world with a main program. Once that is over it waits until all is quiet, unless it is to
leave at once, and shuts the engine down. -/
def create (engine : Engine (Option V)) (scripts : List (String × List (Step V)))
    (main : List (Step V)) (leave : Bool) : World V :=
  let strand : Strand V :=
    { voice := .main, control := .steps main, frames := [.settling leave] }
  { engine
    now := epoch
    scripts
    threads := #[{ job := none, strand := some strand, lane := { readyAt := some epoch } }]
    lanes := engine.carriers.map fun _ => { readyAt := some (epoch.satAdd latency) } }

/-- After how many actions a run is given up. A program can go on for ever, and then so would its
run. -/
def patience : Nat := 100000000

/-- What a run has shown. -/
structure Report (V : Type) where
  workers : Nat
  quiet : Bool
  terminated : Bool
  /-- The log, in order. -/
  log : List (Voice × Entry V)
  /-- How many handles are kept of work that is not over. -/
  unfinished : Nat
  snapshot : Snapshot
  /-- The time of the last action. -/
  ended : Nanos

/-- What a world shows. -/
def report (w : World V) : Report V :=
  { workers := w.engine.carriers.size
    quiet := w.quiet
    terminated := w.engine.isTerminated
    log := w.log.reverse
    unfinished := w.handles.countP fun (_, j) => !(w.engine.jobs[j]?.map (·.done)).getD true
    snapshot := w.engine.snapshot
    ended := w.now }

/-- Runs a world until nobody acts any more. -/
def run (w : World V) : Report V := (runFor patience w).report

end GreenThreads.World

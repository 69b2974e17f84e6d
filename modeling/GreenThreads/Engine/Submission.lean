import GreenThreads.Engine.Wake

/-!
# Submitting work

Accepted work is counted as outstanding until it is over. A shutdown stops the acceptance once, and
then submits a piece of work of its own that drains the engine.
-/

namespace GreenThreads.Engine

variable {V : Type}

/-- Of some carriers that are drawn by lot the one with the shortest run queue, the first of
several. -/
def leastLoaded (e : Engine V) : Nat :=
  let load (c : Nat) : Nat := (e.carriers[c]?.map (·.queue.length)).getD 0
  let drawn (i : Nat) : Nat := e.draws.targets i % e.carriers.size
  ((List.range (e.config.pushRetry - 1)).map fun i => drawn (i + 1)).foldl
    (fun best c => if load c < load best then c else best) (drawn 0)

/-- Puts work into a run queue: where work is pushed, that of the least loaded carrier, else that
of the carrier of the submitting task, or the shared one if no task submits it. -/
def place (e : Engine V) (caller : Option TaskId) (s : Submission) : Engine V :=
  match e.config.placement with
  | .push => e.updateCarrier e.leastLoaded (·.enqueue (.start s))
  | .pull =>
    match (caller.bind e.task?).bind (·.carrier) with
    | some c => e.updateCarrier c (·.enqueue (.start s))
    | none => { e with shared := e.shared ++ [.start s] }

/-- Whether a group takes no more work. -/
def isGone (e : Engine V) (g : Option GroupId) : Bool :=
  match g.bind (e.groups[·]?) with
  | some g => g.destroyed
  | none => false

/-- Accepts work and puts it into a run queue. -/
def accept (e : Engine V) (caller : Option TaskId) (name : String) (group : Option GroupId) :
    Engine V × JobId :=
  let (e, job) := e.makeJob
  let e := { e with outstanding := e.outstanding + 1 }.count .tasksSubmitted
  (e.place caller { job, name, group }, job)

/-- Submits work: it is rejected once a shutdown has begun, and for a destroyed group. -/
def submit (e : Engine V) (caller : Option TaskId) (name : String) (group : Option GroupId) :
    Engine V × Except EngineError JobId :=
  if e.accepting = false ∨ e.isGone group = true then (e.count .tasksRejected, .error .rejected)
  else
    let (e, job) := e.accept caller name group
    (e, .ok job)

/-- Where named blocking work runs. -/
inductive Hosting where
  /-- As a task. -/
  | task
  /-- On a thread outside of the engine. -/
  | thread
deriving DecidableEq, Repr

/-- Submits named blocking work: the thread policy says whether it becomes a task. Work that gets a
thread is not counted. -/
def submitThread (e : Engine V) (caller : Option TaskId) (name : String) :
    Engine V × Except EngineError (JobId × Hosting) :=
  if e.config.threadPolicy.decides name then
    let (e, r) := e.submit caller name none
    (e, r.map (·, .task))
  else if e.accepting then
    let (e, job) := e.makeJob
    (e, .ok (job, .thread))
  else (e.count .tasksRejected, .error .rejected)

/-- The name of the work that drains the engine. -/
def drainName : String := "skein-drain"

/-- Begins a shutdown: no more work is accepted, except for the work that drains the engine, whose
number is the answer. A second shutdown changes nothing. -/
def shutdown (e : Engine V) (caller : Option TaskId) : Engine V × Option JobId :=
  if e.accepting then
    let (e, job) := { e with accepting := false }.accept caller drainName none
    (e, some job)
  else (e, none)

/-- What a hard shutdown answers: running tasks cannot be destroyed. -/
def hardShutdown : EngineError :=
  .unsupported "shutdown_now: running tasks cannot be destroyed mid-flight"

/-- One round of draining: every task other than `me` that waits is released. -/
def drainRound (e : Engine V) (now : Nanos) (me : TaskId) : Engine V :=
  let release (e : Engine V) (t : TaskId) (a : Axis) : Engine V :=
    match e.task? t with
    | some task => if (task.parker a).isWaiting then e.unpark now t a else e
    | none => e
  (e.live.filter (· != me)).foldl (fun e t => release (release e t .internal) t .user) e

end GreenThreads.Engine

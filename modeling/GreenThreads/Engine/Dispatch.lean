import GreenThreads.Engine.Channels
import GreenThreads.Engine.Submission
import GreenThreads.Engine.Timeouts

/-!
# Running tasks on carriers

A carrier takes an entry out of a run queue and switches to a task: for new work to a pooled or
fresh one, else to the one that the entry names. The task runs until it switches back, which it
does to wait, to let others run, or because its work is over.
-/

namespace GreenThreads.Engine

variable {V : Type}

/-! ## Finding work -/

/-- The carrier that comes so many after the next one of carrier `c`. -/
def successor (e : Engine V) (c k : Nat) : Nat := (c + 1 + k) % e.carriers.size

/-- Takes an entry out of the run queue of carrier `c`. -/
def dequeue? (e : Engine V) (c : Nat) : Option (Runnable × Engine V) :=
  match e.carriers[c]?.bind (·.dequeue?) with
  | some (r, carrier) => some (r, e.updateCarrier c fun _ => carrier)
  | none => none

/-- Takes an entry out of the shared run queue. -/
def dequeueShared? (e : Engine V) : Option (Runnable × Engine V) :=
  match e.shared with
  | [] => none
  | r :: shared => some (r, { e with shared })

/-- The carriers, drawn by lot, whose run queues carrier `c` looks at. -/
def victims (e : Engine V) (c : Nat) : List Nat :=
  ((List.range e.config.stealRetry).map fun i => e.successor c (e.draws.queues i)).filter (· != c)

/-- The next entry for carrier `c`: its own first; where work is pulled, then a shared one, and,
unless the engine is being drained, one of another carrier. -/
def next? (e : Engine V) (c : Nat) : Option (Runnable × Engine V) :=
  match e.dequeue? c, e.config.placement with
  | some r, _ => some r
  | none, .push => none
  | none, .pull =>
    match e.dequeueShared? with
    | some r => some r
    | none =>
      if e.draining ∨ e.carriers.size < 2 then none else (e.victims c).findSome? e.dequeue?

/-! ## Obtaining tasks -/

/-- Takes a task out of the pool of carrier `c`. -/
def popPooled? (e : Engine V) (c : Nat) : Option (TaskId × Engine V) :=
  match e.carriers[c]?.bind (·.pool.pop?) with
  | some (t, pool) => some (t, e.updateCarrier c ({ · with pool }))
  | none => none

/-- The other carriers, in the order in which carrier `c` looks into their pools: from one that is
drawn by lot on. -/
def peers (e : Engine V) (c : Nat) : List Nat :=
  ((List.range e.carriers.size).map fun i => e.successor c (e.draws.pools + i)).filter (· != c)

/-- A task for new work on carrier `c`: from its pool, the shared pool or, unless the engine is
being drained, the pool of another carrier; else a fresh one. -/
def obtain (e : Engine V) (c : Nat) : Engine V × TaskId :=
  match e.popPooled? c with
  | some (t, e) => (e.count .localCacheHits, t)
  | none =>
    match e.pool.pop? with
    | some (t, pool) => ({ e with pool }.count .globalCacheHits, t)
    | none =>
      match if e.draining then none else (e.peers c).findSome? e.popPooled? with
      | some (t, e) => (e.count .stolenCacheHits, t)
      | none => e.makeTask

/-- Makes sure that a task has a context, and counts the ones made. -/
def ensureContext (e : Engine V) (t : TaskId) : Engine V :=
  match e.task? t with
  | none => e
  | some task =>
    if task.context = .absent then (e.updateTask t Task.ensureContext).count .contextsCreated
    else e

/-! ## Switching -/

/-- Moves a task to carrier `c`. It is refused while the engine is being drained and while another
carrier holds the task. -/
def steal? (e : Engine V) (c : Nat) (task : Task) : Option (Engine V) :=
  if e.draining ∨ task.locked then none
  else
    some (e.updateTask task.id fun task =>
      (task.moveCarrier task.carrier (some c)).1.recordStolen)

/-- Takes the run time of a task since it was switched to, and charges its group or counts it as
free. -/
def accountRun (e : Engine V) (now : Nanos) (t : TaskId) : Engine V :=
  match e.task? t with
  | none => e
  | some task =>
    let (task, elapsed) := task.takeElapsed now
    let e := e.updateTask t fun _ => task
    match task.group with
    | some g => e.updateGroup g (·.charge elapsed)
    | none => { e with stats := e.stats.add .freeRunning elapsed.toInt.toNat.toUInt64 }

/-- Checks the quota of the group of a task: how long the task has to be held back. -/
def checkQuota (e : Engine V) (now : Nanos) (t : TaskId) : Engine V × Nanos :=
  match e.task? t with
  | none => (e, 0)
  | some task =>
    match task.group.bind fun g => (e.groups[g]?).map (g, ·) with
    | none => (e, 0)
    | some (g, group) =>
      let (group, task, delay) := group.checkMember task now true
      let e := (e.updateGroup g fun _ => group).updateTask t fun _ => task
      match delay with
      | .ok delay => (e, delay)
      | .error f => (e.blame f, 0)

/-- Switches carrier `c` to a task that belongs to it. -/
def switchIn (e : Engine V) (now : Nanos) (c : Nat) (t : TaskId) : Engine V :=
  (e.updateTask t ({ · with locked := true, enteredAt := now })).updateCarrier c
    ({ · with current := some t, state := .running })

/-- Lets a task of carrier `c` go on, unless its group is out of quota: then it is held back until
enough has accrued. A task that another carrier holds is woken again. -/
def resumeOwned (e : Engine V) (now : Nanos) (c : Nat) (t : TaskId) : Engine V :=
  let (e, delay) := e.checkQuota now t
  if 0 < delay then
    ((e.count .quotaThrottles).disarm t).arm now c t (now.satAdd delay) .resume false
  else
    match e.task? t with
    | none => e
    | some task =>
      if task.locked then (e.count .switchFailures).wake now t else e.switchIn now c t

/-- Lets a task go on, on carrier `c`. A task of another carrier is moved first. -/
def resume (e : Engine V) (now : Nanos) (c : Nat) (t : TaskId) : Engine V :=
  match e.task? t with
  | none => e
  | some task =>
    if task.status ≠ .alive then e.blame (.resumeNotAlive t)
    else if task.carrier = some c then e.resumeOwned now c t
    else
      match e.steal? c task with
      | some e => (e.count .stealSuccesses).resumeOwned now c t
      | none => (e.count .stealFailures).wake now t

/-- What happens on carrier `c` after its task has switched out: precise timeouts become pending, a
task that yielded is woken, and a destroyed task loses its context. -/
def switchOut (e : Engine V) (now : Nanos) (c : Nat) : Engine V :=
  match e.carriers[c]? with
  | none => e
  | some carrier =>
    let e := e.updateCarrier c
      ({ · with current := none, state := .idle, deferred := none, pendingPrecise := [] })
    let e := match carrier.current with
      | none => e
      | some t => e.updateTask t fun task =>
          { task with
            locked := false
            context := if task.status = .dead then .absent else task.context }
    let e := carrier.pendingPrecise.foldl
      (fun e number => e.register { owner := preciseOwner, number }) e
    match carrier.deferred with
    | some t => e.wake now t
    | none => e

/-- The running task of carrier `c` gives its carrier away. -/
def giveAway (e : Engine V) (now : Nanos) (c : Nat) (t : TaskId) : Engine V :=
  (e.accountRun now t).switchOut now c

/-! ## Beginning and ending work -/

/-- A piece of work is over, or is given up. -/
def finishOne (e : Engine V) : Engine V :=
  { e with outstanding := e.outstanding - 1 }.count .tasksCompleted

/-- Makes a task a member of a group. -/
def attach (e : Engine V) (now : Nanos) (t : TaskId) (g : GroupId) :
    Engine V × Except EngineError Unit :=
  match e.task? t, e.groups[g]? with
  | some task, some group =>
    match group.attach g task now with
    | .ok (group, task) => ((e.updateGroup g fun _ => group).updateTask t fun _ => task, .ok ())
    | .error err => (e, .error err)
  | _, _ => (e, .error .notInTask)

/-- Takes a task out of a group. -/
def detach (e : Engine V) (now : Nanos) (t : TaskId) (g : GroupId) : Engine V :=
  match e.task? t, e.groups[g]? with
  | some task, some group =>
    let (group, task) := group.detach g task now
    (e.updateGroup g fun _ => group).updateTask t fun _ => task
  | _, _ => e

/-- Gives new work to a task and tells the handle of the work. -/
def assign (e : Engine V) (c : Nat) (t : TaskId) (s : Submission) : Engine V :=
  match e.task? t with
  | none => e
  | some task =>
    let (task, fault) := task.reset s.name c
    let e := (e.updateTask t fun _ => { task with job := some s.job }).blameIf fault
    let e := e.updateJob s.job (·.bind { task := t, generation := task.generation })
    { e with live := e.live ++ [t] }

/-- Begins a piece of work on carrier `c`. It is given up if it was cancelled before, or if its
group is gone. -/
def begin (e : Engine V) (now : Nanos) (c : Nat) (s : Submission) : Engine V :=
  let cancelled := (e.jobs[s.job]?.map (·.cancelRequested)).getD false
  if cancelled || e.isGone s.group then (e.abandonJob now s.job).finishOne
  else
    let (e, t) := e.obtain c
    let e := (e.ensureContext t).assign c t s
    let e := match s.group with
      | some g => (e.attach now t g).1
      | none => e
    e.resume now c t

/-- Works off an entry of a run queue on carrier `c`. -/
def dispatch (e : Engine V) (now : Nanos) (c : Nat) : Runnable → Engine V
  | .start s => e.begin now c s
  | .resume t => (e.updateTask t ({ · with enqueued := false })).resume now c t

/-- Keeps a task for reuse in the pool of carrier `c` or in the shared one, or destroys it. -/
def recycle (e : Engine V) (c : Nat) (t : TaskId) : Engine V :=
  let e := e.updateTask t ({ · with status := .cached })
  match e.carriers[c]?.bind (·.pool.push? t) with
  | some pool => e.updateCarrier c ({ · with pool })
  | none =>
    match e.pool.push? t with
    | some pool => { e with pool }
    | none => (e.updateTask t ({ · with status := .dead })).count .cacheDiscards

/-- The running task of carrier `c` has finished its work: it drops its registration and its
timeout, leaves its group, and is kept for reuse or destroyed. -/
def exit (e : Engine V) (now : Nanos) (c : Nat) (t : TaskId) : Engine V :=
  let e := ((e.unregisterChannel t).disarm t).accountRun now t
  let e := match (e.task? t).bind (·.group) with
    | some g => e.detach now t g
    | none => e
  let e := { e with live := e.live.filter (· != t) }.finishOne
  (e.recycle c t).switchOut now c

/-! ## The end of carriers -/

/-- Destroys pooled tasks. -/
def discardAll (e : Engine V) (ts : List TaskId) : Engine V :=
  ts.foldl (fun e t => e.updateTask t Task.discard) e

/-- Carrier `c` ends. The last one takes the shared pool with it. -/
def endCarrier (e : Engine V) (c : Nat) : Engine V :=
  match e.carriers[c]? with
  | none => e
  | some carrier =>
    let (pool, ts) := carrier.pool.drain
    let e := (e.discardAll ts).updateCarrier c ({ · with pool, state := .terminated })
    let e := { e with running := e.running - 1 }
    if e.running = 0 then
      let (pool, ts) := e.pool.drain
      { e.discardAll ts with pool }
    else e

end GreenThreads.Engine

import GreenThreads.Program.Park

/-!
# Taking steps

What each step of a program does. The world is at the time of the action, and the strand goes on
with its frames unless the step says otherwise.
-/

namespace GreenThreads.World

variable {V : Type}

/-- Logs an answer and goes back. -/
def reply (w : World V) (s : Strand V) (label : String) (a : Answer V) : Turn V :=
  (w.answer s label a).goBack s

/-- Goes back if something was there; logs what is missing if not. -/
def quietly (w : World V) (s : Strand V) (label : String) (m : Missing) : Option (World V) → Turn V
  | some w => w.goBack s
  | none => w.reply s label (.missing m)

/-! ## Submission -/

/-- Keeps the handle of accepted work; a rejection is logged. -/
def submitted (w : World V) (s : Strand V) (label key script : String)
    (r : Except EngineError JobId) : Turn V :=
  match r with
  | .error e => w.reply s label (.error e)
  | .ok job => ((w.addBody (.program key (w.script script))).keep key job).goBack s

/-- Submits a program. -/
def submit (w : World V) (h : Host) (s : Strand V) (label key script name : String)
    (group : Option GroupId) : Turn V :=
  let (engine, r) := w.engine.submit h.task? name group
  { w with engine }.submitted s label key script r

/-- A thread that begins to run a piece of work. -/
def addThread (w : World V) (job : JobId) : World V :=
  let lane : Lane := { readyAt := some (w.now.satAdd latency) }
  { w with threads := w.threads.push { job := some job, strand := none, lane } }

/-- Submits a program as blocking work. -/
def spawnThread (w : World V) (h : Host) (s : Strand V) (label key script name : String) :
    Turn V :=
  let (engine, r) := w.engine.submitThread h.task? name
  let w := { w with engine }
  let w := match r with
    | .ok (job, .thread) => w.addThread job
    | .ok (_, .task) | .error _ => w
  w.submitted s label key script (r.map (·.1))

/-! ## Control groups -/

/-- Whether a group is out of quota now. -/
def outOfQuota (w : World V) (g : GroupId) : World V × Except Fault Bool :=
  match w.engine.groups[g]? with
  | none => (w, .ok false)
  | some group =>
    let (group, delay) := group.check w.now
    (w.onEngine (·.updateGroup g fun _ => group), delay.map (0 < ·))

/-- Runs the body of a task in a group. If the group is out of quota the task first gives its
carrier away, and is then held back. -/
def runInGroup (w : World V) (t : TaskId) (c : Nat) (s : Strand V) (label : String) (g : GroupId)
    (body : List (Step V)) : Turn V :=
  match w.engine.attach w.now t g with
  | (_, .error e) => w.reply s label (.error e)
  | (engine, .ok ()) =>
    let s := (s.push (.inGroup g)).push (.rest body)
    match { w with engine }.outOfQuota g with
    | (w, .error f) => (w.onEngine (·.blame f)).go s (.unwind (.failed f.message))
    | (w, .ok true) => w.yieldTask t c s
    | (w, .ok false) => w.goBack s

/-- Closes a group, cancels its members and begins to wait for them. -/
def destroyGroup (w : World V) (h : Host) (s : Strand V) (label : String) (g : GroupId)
    (time : Nanos) : Turn V :=
  match w.engine.groups[g]? with
  | none => w.reply s label (.number 0)
  | some group =>
    match group.close h.task? with
    | (_, none) => w.reply s label (.number 0)
    | (group, some members) =>
      let w := w.onEngine fun e =>
        members.foldl (fun e m => (e.cancelTask w.now m.task m.generation).1)
          (e.updateGroup g fun _ => group)
      w.goBack (s.push (.destroying g members.length (w.now.deadlineAfter time)))

/-! ## All steps -/

/-- Begins to wait for a piece of work with the handle under a key, if nobody uses it. -/
def beginJoin (w : World V) (s : Strand V) (label key : String) : Turn V :=
  match w.handle? key with
  | none => w.reply s label (.missing .handle)
  | some job =>
    if w.inUse.contains job then (w.giveUp key).reply s label (.missing .handle)
    else (w.giveUp key).goBack (s.push (.joining job none))

/-- Begins to wait for a piece of work for some time. The handle stays where it is. -/
def beginJoinTimeout (w : World V) (s : Strand V) (label key : String) (time : Nanos) : Turn V :=
  match w.handle? key with
  | none => w.reply s label (.missing .handle)
  | some job =>
    { w with inUse := job :: w.inUse }.goBack
      (s.push (.joining job (some (w.now.deadlineAfter time))))

/-- Begins to wait for a channel. Earlier readiness is dropped. -/
def waitReady (w : World V) (h : Host) (s : Strand V) (label : String) (channel : Channel)
    (interest : Interest) (timeout : Option Nat) : Turn V :=
  match h with
  | .thread _ => w.reply s label (.error Bystander.refusal)
  | .task t c =>
    let w := w.onEngine (·.updateTask t fun task => task.takeReady.1)
    match w.engine.registerChannel t channel interest with
    | (engine, some e) => { w with engine }.reply s label (.error e)
    | (engine, none) =>
      { w with engine }.parkTask t c (s.push .waitingReady) .internal timeout true

/-- Takes a step. -/
def perform (w : World V) (h : Host) (s : Strand V) (x : Step V) : Turn V :=
  let answer := w.reply s x.label
  let onTask (key : String) (f : Task → Engine (Option V) → Engine (Option V)) : Turn V :=
    w.quietly s x.label .task ((w.taskOf? key).map fun task => w.onEngine (f task))
  match x with
  | .log v => answer (.value v)
  | .endWith v => w.go s (.value (some v))
  | .fail u => w.go s (.unwind u)
  | .again n body => w.goBack (s.push (.again n body))
  | .attempt body => w.go (s.push .attempt) (.steps body)
  | .submit key script name => w.submit h s x.label key script name none
  | .submitIn key script name group => w.submit h s x.label key script name (some group)
  | .spawnThread key script name => w.spawnThread h s x.label key script name
  | .join key => w.beginJoin s x.label key
  | .joinTimeout key micros => w.beginJoinTimeout s x.label key (Nanos.ofMicros micros)
  | .finished key =>
    match (w.handle? key).bind (w.engine.jobs[·]?) with
    | some cell => answer (.flags [cell.done, cell.binding.isSome])
    | none => answer (.missing .handle)
  | .cancel key =>
    w.quietly s x.label .handle
      ((w.handle? key).map fun job => w.onEngine (·.cancelJob w.now job))
  | .cancelId key =>
    match w.taskOf? key with
    | some task =>
      let (engine, found) := w.engine.cancel w.now task.id
      { w with engine }.reply s x.label (.flag found)
    | none => answer (.missing .task)
  | .unpark key => w.quietly s x.label .unparker ((w.starts.lookup key).map w.unpark)
  | .peek key =>
    match w.taskOf? key with
    | some task => answer (.task task (w.engine.hasTimeout task))
    | none => answer (.missing .task)
  | .sameTask a b =>
    match w.taskOf? a, w.taskOf? b with
    | some t, some u => answer (.flag (t.id == u.id))
    | _, _ => answer .nothing
  | .whereabouts =>
    match h with
    | .thread n => answer (.flags ((w.threads[n]?.map Thread.outside).getD {}).whereabouts)
    | .task _ _ => answer (.flags [true, true, true])
  | .yieldNow =>
    match h with
    | .thread _ => w.goBack s
    | .task t c => w.yieldTask t c s
  | .park =>
    match h with
    | .thread n => w.parkThread n s none
    | .task t c => w.parkTask t c s .user none false
  | .parkTimeout micros =>
    match h with
    | .thread n => w.parkThread n s (some (micros * 1000))
    | .task t c => w.parkTask t c s .user (some (micros * 1000)) false
  | .sleep micros => w.sleep h s (Nanos.ofMicros micros)
  | .spin micros => (w, { s with control := .back }, .busy (Nanos.ofMicros micros))
  | .critical body =>
    match h with
    | .thread _ => w.go s (.steps body)
    | .task _ c =>
      (w.onEngine (·.updateCarrier c Carrier.enterCritical)).go (s.push (.critical c))
        (.steps body)
  | .waitReady channel interest micros =>
    w.waitReady h s x.label channel interest (micros.map (· * 1000))
  | .signal channel interest =>
    (w.onEngine fun e => { e with pump := e.pump.signal channel interest }).goBack s
  | .registered => answer (.number w.engine.pump.registered)
  | .groupRun group body =>
    match h with
    | .thread _ => answer (.error Bystander.refusal)
    | .task t c => w.runInGroup t c s x.label group body
  | .group group =>
    match w.engine.groups[group]? with
    | some g => answer (.group g)
    | none => answer .nothing
  | .attach group =>
    match h with
    | .thread _ => answer (.error Bystander.refusal)
    | .task t _ =>
      let (engine, r) := w.engine.attach w.now t group
      { w with engine }.reply s x.label (match r with
        | .ok () => .flag true
        | .error e => .error e)
  | .detach group =>
    match h with
    | .thread _ => answer (.error Bystander.refusal)
    | .task t _ => (w.onEngine (·.detach w.now t group)).reply s x.label .nothing
  | .groupDestroy group micros => w.destroyGroup h s x.label group (Nanos.ofMicros micros)
  | .wake key => onTask key fun task e => e.wake w.now task.id
  | .arm key micros action =>
    onTask key fun task e =>
      let carrier := match h with
        | .task _ c => c
        | .thread _ => 0
      e.arm w.now carrier task.id (w.now.deadlineAfter (Nanos.ofMicros micros)) action false
  | .cancelTimeout key => onTask key fun task e => e.disarm task.id
  | .shutdown => (w.shutdown h).goBack s
  | .shutdownNow => answer (.error Engine.hardShutdown)
  | .engine => answer (.text w.engine.describe)
  | .stats => answer (.snapshot w.engine.snapshot)
  | .unknown name => answer (.unknown name)

end GreenThreads.World

import GreenThreads.Command.Request
import GreenThreads.Program.Run

/-!
# Workloads

A workload submits many equal tasks, which are busy for a while, yield, and sleep, and waits for
all of them.
-/

namespace GreenThreads.Command

/-- The size of a workload. -/
structure Workload where
  tasks : Nat
  /-- How long each task sleeps. -/
  sleepMillis : Nat
  /-- How long each task is busy before each yield and after the last. -/
  spinMicros : Nat
  yields : Nat
  /-- All tasks are in one control group with this share of a processor. -/
  quotaPercent : Option Float

/-- The workload that is asked for. -/
def RunOptions.workload (o : RunOptions) : Workload :=
  { tasks := o.tasks.getD 1000
    sleepMillis := o.sleepMillis.getD 1
    spinMicros := o.spinMicros.getD 100
    yields := o.yields.getD 4
    quotaPercent := o.quotaPercent }

/-- The configuration that is asked for, given the one to start from. -/
def RunOptions.adjust (o : RunOptions) (c : Config) : Config :=
  { c with
    workers := o.workers.getD c.workers
    placement := o.placement.getD c.placement
    preciseTimer := o.precise || c.preciseTimer }

/-- How the tasks of a workload ended. -/
structure Tally where
  completed : Nat := 0
  cancelled : Nat := 0
  panicked : Nat := 0
deriving DecidableEq, Repr

namespace Tally

/-- Counts one more task. -/
def add (t : Tally) : Except JoinError (Option Unit) → Tally
  | .ok _ => { t with completed := t.completed + 1 }
  | .error .cancelled => { t with cancelled := t.cancelled + 1 }
  | .error (.panicked _) => { t with panicked := t.panicked + 1 }

/-- Counts the results in a log. -/
def ofLog (log : List (Voice × Entry Unit)) : Tally :=
  log.foldl (fun t (v, x) =>
    match v, x with
    | .main, .answered _ (.result r) => t.add r
    | _, _ => t) {}

end Tally

namespace Workload

/-- The program of each task. -/
def script (l : Workload) : List (Step Unit) :=
  [.again l.yields [.spin l.spinMicros, .yieldNow], .spin l.spinMicros]
    ++ if l.sleepMillis = 0 then [] else [.sleep (l.sleepMillis * 1000)]

/-- The name of a task. -/
def nameOf (i : Nat) : String := "load-" ++ toString i

/-- The program that submits all tasks and waits for them. -/
def main (l : Workload) : List (Step Unit) :=
  let submitOne (i : Nat) : Step Unit :=
    match l.quotaPercent with
    | some _ => .submitIn (nameOf i) "load" (nameOf i) 0
    | none => .submit (nameOf i) "load" (nameOf i)
  (List.range l.tasks).map submitOne ++ (List.range l.tasks).map fun i => .join (nameOf i)

/-- The control groups of a workload. -/
def groups (l : Workload) : Except EngineError (List ControlGroup) :=
  match l.quotaPercent with
  | none => .ok []
  | some percent => (ControlGroup.ofCpuPercent percent World.epoch).map ([·])

/-- Runs a workload on an engine that has its groups. -/
def run (l : Workload) (e : Engine (Option Unit)) : World.Report Unit :=
  (World.create e [("load", l.script)] l.main false).run

end Workload

end GreenThreads.Command

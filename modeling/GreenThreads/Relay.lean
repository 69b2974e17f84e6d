import GreenThreads.Gate

/-!
# Relays

A relay is a group of runners that pass one baton around, each by a script of its own. Runner 0
has the baton first. A runner that hands it over waits behind its gate until it comes back; one
that is discarded there abandons its script.
-/

namespace GreenThreads

/-- One move of a runner; `N` is the type of the notes that it can leave. -/
inductive Move (N : Type) where
  /-- Hand the baton over and wait for it. -/
  | pass (target : Nat)
  /-- Hand the baton over for good. -/
  | finish (target : Nat)
  /-- Hand the baton over for good, and fail. -/
  | fail (target : Nat)
  /-- Leave a note. -/
  | note (n : N)
  /-- Discard a waiting runner. -/
  | discard (who : Nat)
  /-- Ask whether a runner is through. -/
  | ask (who : Nat)
  /-- Wait until a runner is through. -/
  | await (who : Nat)
deriving Repr

/-- What the log of a relay says about a runner. -/
inductive Happening (N : Type) where
  /-- The baton came back, or the runner was discarded instead. -/
  | returned (p : Passage)
  | finished (target : Nat)
  | noted (n : N)
  | discarded (who : Nat)
  | asked (isOver : Bool)
  | awaited
deriving Repr

/-- How far a runner is. -/
inductive RunnerPhase where
  /-- It has not had the baton yet. -/
  | unstarted
  /-- It handed the baton over and waits for it. -/
  | waiting
  /-- It runs its script. -/
  | running
  /-- It is through. -/
  | over
deriving DecidableEq, Repr

/-- A runner of a relay. -/
structure Runner (N : Type) where
  /-- The moves that are still to come. -/
  script : List (Move N)
  gate : Gate := .closed
  phase : RunnerPhase := .unstarted
deriving Repr

/-- Runners with one baton, and what has happened so far, last first. -/
structure Relay (N : Type) where
  runners : List (Runner N)
  log : List (Nat × Happening N) := []
deriving Repr

namespace Runner

variable {N : Type}

/-- The runner goes no further. -/
def stop (r : Runner N) : Runner N := { r with script := [], phase := .over }

/-- A runner that waits and may pass its gate now, with what it learns there. -/
def enter? (r : Runner N) : Option (Runner N × Passage) :=
  match r.phase with
  | .unstarted | .waiting =>
    r.gate.pass?.map fun (gate, p) =>
      match p with
      | .proceed => ({ r with gate, phase := .running }, p)
      | .discarded => ({ r.stop with gate }, p)
  | .running | .over => none

end Runner

namespace Relay

variable {N : Type}

/-- The relay of some scripts, the first of which has the baton. -/
def start (first : List (Move N)) (others : List (List (Move N))) : Relay N :=
  { runners := { script := first, phase := .running } :: others.map ({ script := · }) }

/-- Changes one runner. -/
def modify (r : Relay N) (who : Nat) (f : Runner N → Runner N) : Relay N :=
  { r with runners := r.runners.modify who f }

/-- Adds to the log. -/
def record (r : Relay N) (who : Nat) (h : Happening N) : Relay N :=
  { r with log := (who, h) :: r.log }

/-- Opens the gate of a runner. -/
def grant (r : Relay N) (who : Nat) : Relay N :=
  r.modify who fun x => { x with gate := x.gate.grant }

/-- Whether a runner is through. -/
def isOver (r : Relay N) (who : Nat) : Bool :=
  match r.runners[who]? with
  | some x => x.phase == .over
  | none => false

/-- Lets runner `who` through its gate, if it waits there and may pass. -/
def enter? (r : Relay N) (who : Nat) : Option (Relay N) :=
  match r.runners[who]? with
  | none => none
  | some x =>
    x.enter?.map fun (x', p) =>
      let r := r.modify who fun _ => x'
      if x.phase = .waiting then r.record who (.returned p) else r

/-- Makes the next move of the running runner `who`; `none` if it cannot move. -/
def move? (r : Relay N) (who : Nat) : Option (Relay N) :=
  match r.runners[who]? with
  | none => none
  | some x =>
    if x.phase = .running then
      match x.script with
      | [] => some (r.modify who Runner.stop)
      | m :: script =>
        let next := r.modify who ({ · with script })
        match m with
        | .pass target => some ((next.modify who ({ · with phase := .waiting })).grant target)
        | .finish target =>
          some (((next.modify who Runner.stop).record who (.finished target)).grant target)
        | .fail target => some ((next.modify who Runner.stop).grant target)
        | .note n => some (next.record who (.noted n))
        | .discard k =>
          some ((next.modify k fun x => { x with gate := x.gate.discard }).record who
            (.discarded k))
        | .ask k => some (next.record who (.asked (r.isOver k)))
        | .await k => if r.isOver k then some (next.record who .awaited) else none
    else none

/-- The first runner for which something can be done. -/
def firstAble (r : Relay N) (act : Relay N → Nat → Option (Relay N)) : Option (Relay N) :=
  (List.range r.runners.length).findSome? (act r)

/-- The next thing that happens: a runner passes its gate, or else a running one moves. In this way
a discarded runner is through before the one that discarded it goes on. -/
def step? (r : Relay N) : Option (Relay N) :=
  match r.firstAble enter? with
  | some r => some r
  | none => r.firstAble move?

/-- At most `n` steps. -/
def runFor : Nat → Relay N → Relay N
  | 0, r => r
  | n + 1, r =>
    match r.step? with
    | some r => runFor n r
    | none => r

/-- More steps than a relay can make: each move is made once, followed by one passage at most, and
each runner starts and stops once. -/
def stepBound (r : Relay N) : Nat :=
  2 * r.runners.foldr (fun x n => x.script.length + 2 + n) 0

/-- What happens in a relay, in order. -/
def run (r : Relay N) : List (Nat × Happening N) := (runFor r.stepBound r).log.reverse

end Relay

end GreenThreads

import GreenThreads.Command.Value

/-!
# Requests

What the arguments of the command line ask for. Options may be given in any order and each at most
once; a value stands in the next argument or, after an equals sign, in the same one. A value that
begins with a hyphen has to be in the same one.
-/

namespace GreenThreads.Command

/-- The options of a workload. Those that are absent are left to the configuration file or to their
defaults. -/
structure RunOptions where
  /-- The configuration file. -/
  config : Option String := none
  workers : Option Nat := none
  placement : Option Placement := none
  precise : Bool := false
  tasks : Option Nat := none
  sleepMillis : Option Nat := none
  spinMicros : Option Nat := none
  yields : Option Nat := none
  quotaPercent : Option Float := none

/-- What is asked for. -/
inductive Request where
  /-- Run a workload. -/
  | run (options : RunOptions)
  /-- Show the default configuration. -/
  | showConfig
  /-- Check a configuration file. -/
  | checkConfig (file : String)
  | version
  | help

/-- The options that have a value. -/
inductive ValueOption where
  | config | workers | policy | tasks | sleepMillis | spinMicros | yields | quotaPercent
deriving DecidableEq, Repr

namespace ValueOption

/-- The option with a long name. -/
def ofLong? : String → Option ValueOption
  | "config" => some config
  | "workers" => some workers
  | "policy" => some policy
  | "tasks" => some tasks
  | "sleep-ms" => some sleepMillis
  | "spin-us" => some spinMicros
  | "yields" => some yields
  | "quota-percent" => some quotaPercent
  | _ => none

/-- The option with a short name. -/
def ofShort? : Char → Option ValueOption
  | 'c' => some config
  | 'w' => some workers
  | 'p' => some policy
  | 't' => some tasks
  | _ => none

end ValueOption

namespace RunOptions

/-- Sets an option that has not been set. -/
def setOnce {α : Type} (old new : Option α) : Option (Option α) :=
  match old, new with
  | none, some x => some (some x)
  | _, _ => none

/-- Reads the name of a file, which is not empty. -/
def file? (s : String) : Option String := if s.isEmpty then none else some s

/-- Gives an option its value; `none` if it has one, or if the value cannot be read. -/
def set? (o : RunOptions) (name : ValueOption) (value : String) : Option RunOptions :=
  match name with
  | .config => (setOnce o.config (file? value)).map ({ o with config := · })
  | .workers => (setOnce o.workers (natural? value)).map ({ o with workers := · })
  | .policy =>
    (setOnce o.placement (Placement.ofText value).toOption).map ({ o with placement := · })
  | .tasks => (setOnce o.tasks (natural? value)).map ({ o with tasks := · })
  | .sleepMillis => (setOnce o.sleepMillis (natural? value)).map ({ o with sleepMillis := · })
  | .spinMicros => (setOnce o.spinMicros (natural? value)).map ({ o with spinMicros := · })
  | .yields => (setOnce o.yields (natural? value)).map ({ o with yields := · })
  | .quotaPercent => (setOnce o.quotaPercent (decimal? value)).map ({ o with quotaPercent := · })

end RunOptions

/-! ## Arguments -/

/-- One argument, by its form. -/
inductive Argument where
  /-- Two hyphens: what follows are no options. -/
  | escape
  /-- A long option, with the value attached to it. -/
  | long (name : String) (value : Option String)
  /-- A short option, with what is attached to it. -/
  | short (name : Char) (rest : List Char)
  | plain (text : String)
deriving DecidableEq, Repr

namespace Argument

/-- Splits at the first equals sign. -/
def splitEquals (cs : List Char) : String × Option String :=
  match cs.dropWhile (· != '=') with
  | [] => (String.ofList cs, none)
  | _ :: value => (String.ofList (cs.takeWhile (· != '=')), some (String.ofList value))

/-- The form of an argument. One hyphen alone is no option. -/
def ofText (s : String) : Argument :=
  match s.toList with
  | ['-', '-'] => escape
  | '-' :: '-' :: cs => let (name, value) := splitEquals cs; long name value
  | '-' :: c :: rest => short c rest
  | _ => plain s

end Argument

/-- Goes on with the value of an option: the attached one, or the next argument. -/
def withValue {α : Type} (attached : Option String) (rest : List String)
    (next : String → (rest' : List String) → rest'.length ≤ rest.length → Option α) : Option α :=
  match attached, rest with
  | some v, rest => next v rest (Nat.le_refl _)
  | none, a :: rest =>
    match Argument.ofText a with
    | .plain v => next v rest (Nat.le_succ _)
    | _ => none
  | none, [] => none

/-- What is attached to a short option: the rest of the argument, after an optional equals sign. -/
def attachedToShort : List Char → Option String
  | [] => none
  | '=' :: cs => some (String.ofList cs)
  | cs => some (String.ofList cs)

/-- Reads the arguments of a workload. -/
def readRun (o : RunOptions) (args : List String) : Option Request :=
  match args with
  | [] => some (.run o)
  | a :: rest =>
    match Argument.ofText a with
    | .escape => if rest.isEmpty then some (.run o) else none
    | .plain _ => none
    | .short c more =>
      if c = 'h' then some .help
      else
        match ValueOption.ofShort? c with
        | none => none
        | some name =>
          withValue (attachedToShort more) rest fun v rest' _ =>
            match o.set? name v with
            | some o => readRun o rest'
            | none => none
    | .long "help" none => some .help
    | .long "precise" none => if o.precise then none else readRun { o with precise := true } rest
    | .long name value =>
      match ValueOption.ofLong? name with
      | none => none
      | some name =>
        withValue value rest fun v rest' _ =>
          match o.set? name v with
          | some o => readRun o rest'
          | none => none
termination_by args.length
decreasing_by
  all_goals simp only [List.length_cons]; omega

/-- Reads the arguments of a check: one file. -/
def readCheck (file : Option String) : List String → Option Request
  | [] => file.map .checkConfig
  | a :: rest =>
    let plain (s : String) : Option String :=
      if file.isSome then none else RunOptions.file? s
    match Argument.ofText a with
    | .escape =>
      match rest, file with
      | [], some f => some (.checkConfig f)
      | [f], none => (RunOptions.file? f).map .checkConfig
      | _, _ => none
    | .plain s =>
      match plain s with
      | some f => readCheck (some f) rest
      | none => none
    | .long "help" none => some .help
    | .short 'h' _ => some .help
    | .long _ _ | .short _ _ => none

/-- Reads the arguments of a command that has none. -/
def readNothing (r : Request) : List String → Option Request
  | [] => some r
  | a :: rest =>
    match Argument.ofText a with
    | .escape => if rest.isEmpty then some r else none
    | .long "help" none => some .help
    | .short 'h' _ => some .help
    | .long _ _ | .short _ _ | .plain _ => none

/-- Reads the arguments of the configuration commands. -/
def readConfig : List String → Option Request
  | "show" :: rest => readNothing .showConfig rest
  | "check" :: rest => readCheck none rest
  | "help" :: _ | "--help" :: _ => some .help
  | a :: _ =>
    match Argument.ofText a with
    | .short 'h' _ => some .help
    | _ => none
  | [] => none

/-- What the arguments ask for; `none` if they are wrong. -/
def Request.ofArguments : List String → Option Request
  | "run" :: rest => readRun {} rest
  | "config" :: rest => readConfig rest
  | "help" :: _ => some .help
  | a :: _ =>
    match Argument.ofText a with
    | .long "version" none => some .version
    | .long "help" none => some .help
    | .short 'V' _ => some .version
    | .short 'h' _ => some .help
    | _ => none
  | [] => none

/-- The configuration file that a request needs. -/
def Request.file? : Request → Option String
  | .run o => o.config
  | .checkConfig file => some file
  | .showConfig | .version | .help => none

end GreenThreads.Command

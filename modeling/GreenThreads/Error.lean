import GreenThreads.Clock

/-!
# Errors

The errors that a caller of the engine is expected to handle, and the ways in which a piece of
work can end without a value.
-/

namespace GreenThreads

/-- What the engine refuses or fails to do. -/
inductive EngineError where
  /-- Work came after the shutdown began, or for a destroyed group. -/
  | rejected
  /-- The operation is deliberately left out. -/
  | unsupported (operation : String)
  /-- A control group needs a positive quota and a positive period. -/
  | invalidQuota (quota period : Nanos)
  /-- The configuration breaks a rule. -/
  | invalidConfig (reason : String)
  /-- The configuration file cannot be read. -/
  | configRead (cause : String)
  /-- The configuration text is malformed, or it does not say what a configuration needs; then the
  reason is given. -/
  | configParse (reason : Option String)
  /-- A thread cannot be created. -/
  | spawn (cause : String)
  /-- The source of readiness events failed. -/
  | eventPump (cause : String)
  /-- The caller is no task. -/
  | notInTask
  /-- A task belongs to one control group at most. -/
  | alreadyAttached
  /-- A bounded wait is over. -/
  | timedOut
deriving DecidableEq, Repr

namespace EngineError

/-- The report on a text that cannot be read at all. -/
def malformedText : String := "malformed text"

/-- The text of an error. -/
def message : EngineError → String
  | rejected => "Submission rejected: engine is shutting down"
  | unsupported operation => "Unsupported operation: " ++ operation
  | invalidQuota quota period =>
    "Invalid quota: quota=" ++ toString quota.toInt ++ "ns period=" ++ toString period.toInt ++ "ns"
  | invalidConfig reason => "Invalid configuration: " ++ reason
  | configRead cause => "Failed to read configuration: " ++ cause
  | configParse reason => "Failed to parse configuration: " ++ reason.getD malformedText
  | spawn cause => "Failed to spawn thread: " ++ cause
  | eventPump cause => "Event pump error: " ++ cause
  | notInTask => "Operation requires a task context"
  | alreadyAttached => "Task is already attached to a control group"
  | timedOut => "Timed out"

/-- The text of the failure outside the engine that lies behind an error. -/
def cause? : EngineError → Option String
  | configRead cause | spawn cause | eventPump cause => some cause
  | configParse reason => some (reason.getD malformedText)
  | _ => none

end EngineError

/-- What makes a running piece of work end early. -/
inductive Unwind where
  /-- It was cancelled. -/
  | cancelled
  /-- Its suspended context was discarded. -/
  | discarded
  /-- It failed with a message. -/
  | failed (message : String)
  /-- It failed with something that is no text. -/
  | opaqueFailure
deriving DecidableEq, Repr

/-- Why a piece of work has no value. -/
inductive JoinError where
  | cancelled
  | panicked (message : String)
deriving DecidableEq, Repr

/-- The text of a join error. -/
def JoinError.message : JoinError → String
  | cancelled => "task was cancelled"
  | panicked text => "task panicked: " ++ text

/-- How the handle of a piece of work reports an early end. -/
def Unwind.toJoinError : Unwind → JoinError
  | cancelled | discarded => .cancelled
  | failed text => .panicked text
  | opaqueFailure => .panicked "non-string panic payload"

end GreenThreads

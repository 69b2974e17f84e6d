import GreenThreads.Fault

/-!
# Statistics

The engine counts what it does in words of 64 bits. The counters only inform: nothing is decided
by them.
-/

namespace GreenThreads

/-- The counters of an engine. -/
structure Stats where
  tasksSubmitted : UInt64 := 0
  tasksCompleted : UInt64 := 0
  tasksRejected : UInt64 := 0
  contextsCreated : UInt64 := 0
  localCacheHits : UInt64 := 0
  globalCacheHits : UInt64 := 0
  stolenCacheHits : UInt64 := 0
  cacheDiscards : UInt64 := 0
  stealSuccesses : UInt64 := 0
  stealFailures : UInt64 := 0
  switchFailures : UInt64 := 0
  timersArmed : UInt64 := 0
  timersFired : UInt64 := 0
  timersCancelled : UInt64 := 0
  quotaThrottles : UInt64 := 0
  /-- Run time that no control group is charged with. -/
  freeRunning : UInt64 := 0
deriving DecidableEq, Repr, Inhabited

/-- One counter of an engine. -/
inductive Counter where
  | tasksSubmitted | tasksCompleted | tasksRejected | contextsCreated
  | localCacheHits | globalCacheHits | stolenCacheHits | cacheDiscards
  | stealSuccesses | stealFailures | switchFailures
  | timersArmed | timersFired | timersCancelled
  | quotaThrottles | freeRunning
deriving DecidableEq, Repr

namespace Counter

/-- All counters, in the order of their report. -/
def all : List Counter :=
  [tasksSubmitted, tasksCompleted, tasksRejected, contextsCreated, localCacheHits,
    globalCacheHits, stolenCacheHits, cacheDiscards, stealSuccesses, stealFailures, switchFailures,
    timersArmed, timersFired, timersCancelled, quotaThrottles, freeRunning]

/-- The name of a counter in reports. -/
def label : Counter → String
  | tasksSubmitted => "tasks_submitted"
  | tasksCompleted => "tasks_completed"
  | tasksRejected => "tasks_rejected"
  | contextsCreated => "contexts_created"
  | localCacheHits => "local_cache_hits"
  | globalCacheHits => "global_cache_hits"
  | stolenCacheHits => "stolen_cache_hits"
  | cacheDiscards => "cache_discards"
  | stealSuccesses => "steal_successes"
  | stealFailures => "steal_failures"
  | switchFailures => "switch_failures"
  | timersArmed => "timers_armed"
  | timersFired => "timers_fired"
  | timersCancelled => "timers_cancelled"
  | quotaThrottles => "quota_throttles"
  | freeRunning => "free_running_nanos"

/-- The counter with a given name. -/
def ofLabel? (s : String) : Option Counter := all.find? (·.label == s)

end Counter

namespace Stats

/-- The value of a counter. -/
def get (s : Stats) : Counter → UInt64
  | .tasksSubmitted => s.tasksSubmitted
  | .tasksCompleted => s.tasksCompleted
  | .tasksRejected => s.tasksRejected
  | .contextsCreated => s.contextsCreated
  | .localCacheHits => s.localCacheHits
  | .globalCacheHits => s.globalCacheHits
  | .stolenCacheHits => s.stolenCacheHits
  | .cacheDiscards => s.cacheDiscards
  | .stealSuccesses => s.stealSuccesses
  | .stealFailures => s.stealFailures
  | .switchFailures => s.switchFailures
  | .timersArmed => s.timersArmed
  | .timersFired => s.timersFired
  | .timersCancelled => s.timersCancelled
  | .quotaThrottles => s.quotaThrottles
  | .freeRunning => s.freeRunning

/-- Raises a counter; counters wrap around. -/
def add (s : Stats) (c : Counter) (n : UInt64) : Stats :=
  match c with
  | .tasksSubmitted => { s with tasksSubmitted := s.tasksSubmitted + n }
  | .tasksCompleted => { s with tasksCompleted := s.tasksCompleted + n }
  | .tasksRejected => { s with tasksRejected := s.tasksRejected + n }
  | .contextsCreated => { s with contextsCreated := s.contextsCreated + n }
  | .localCacheHits => { s with localCacheHits := s.localCacheHits + n }
  | .globalCacheHits => { s with globalCacheHits := s.globalCacheHits + n }
  | .stolenCacheHits => { s with stolenCacheHits := s.stolenCacheHits + n }
  | .cacheDiscards => { s with cacheDiscards := s.cacheDiscards + n }
  | .stealSuccesses => { s with stealSuccesses := s.stealSuccesses + n }
  | .stealFailures => { s with stealFailures := s.stealFailures + n }
  | .switchFailures => { s with switchFailures := s.switchFailures + n }
  | .timersArmed => { s with timersArmed := s.timersArmed + n }
  | .timersFired => { s with timersFired := s.timersFired + n }
  | .timersCancelled => { s with timersCancelled := s.timersCancelled + n }
  | .quotaThrottles => { s with quotaThrottles := s.quotaThrottles + n }
  | .freeRunning => { s with freeRunning := s.freeRunning + n }

/-- Counts one event. -/
def bump (s : Stats) (c : Counter) : Stats := s.add c 1

/-- Raising one counter changes that one only. -/
theorem get_add (s : Stats) (c d : Counter) (n : UInt64) :
    (s.add c n).get d = if c = d then s.get d + n else s.get d := by
  cases c <;> cases d <;> rfl

/-- A sum of counters that has to stay within 64 bits. -/
def checkedAdd (a b : UInt64) : Except Fault UInt64 :=
  if a.toNat + b.toNat < 18446744073709551616 then .ok (a + b) else .error .addOverflow

/-- How many tasks came out of a cache. -/
def cacheHits (s : Stats) : Except Fault UInt64 :=
  checkedAdd s.localCacheHits s.globalCacheHits >>= (checkedAdd · s.stolenCacheHits)

end Stats

end GreenThreads

import Recital.Command.Failure

/-!
# Statistics of command types

How often commands of each type were executed and how that went, and which types look unhealthy.
-/

namespace Recital

/-- The statistics of one command type (`CommandStats`). -/
structure Stats where
  executions : Nat := 0
  successes : Nat := 0
  /-- Failures, those included whose time was up. -/
  failures : Nat := 0
  timeouts : Nat := 0
  cancellations : Nat := 0
  totalElapsed : Span := .zero
  maxElapsed : Span := .zero
deriving DecidableEq, Inhabited

namespace Stats

/-- The average time of an execution in whole nanoseconds, at most a 64-bit word of them. -/
def average (s : Stats) : Span :=
  if s.executions = 0 then .zero else ⟨min (s.totalElapsed.nanos / s.executions) Text.wordMax⟩

/-- The share of executions that failed. -/
def failureRate (s : Stats) : Binary64 :=
  if s.executions = 0 then .zero
  else Binary64.divPositive (Binary64.ofNat s.failures) (Binary64.ofNat s.executions)

/-- Takes an execution into account. -/
def record {α : Type} (s : Stats) (elapsed : Span) (result : Except Failure α) : Stats :=
  let s := { s with
    executions := s.executions + 1
    totalElapsed := ⟨s.totalElapsed.nanos + elapsed.nanos⟩
    maxElapsed := ⟨max s.maxElapsed.nanos elapsed.nanos⟩ }
  match result with
  | .ok _ => { s with successes := s.successes + 1 }
  | .error .cancelled => { s with cancellations := s.cancellations + 1 }
  | .error (.timedOut _) => { s with timeouts := s.timeouts + 1, failures := s.failures + 1 }
  | .error _ => { s with failures := s.failures + 1 }

end Stats

/-- The statistics by command type, which `TimeoutManager` keeps. -/
structure Ledger where
  /-- The statistics of the types that were executed. -/
  types : Table Stats := ∅

namespace Ledger

/-- The statistics of a type, empty when it was never executed. -/
def stats (l : Ledger) (type : String) : Stats := (l.types.get? type).getD {}

/-- Takes an execution into account. -/
def record {α : Type} (l : Ledger) (type : String) (elapsed : Span) (result : Except Failure α) :
    Ledger :=
  ⟨l.types.insert type ((l.stats type).record elapsed result)⟩

/-- The types that take longer than `limit` on average, with that average. -/
def slow (l : Ledger) (limit : Span) : List (String × Span) :=
  (l.types.entries.filter fun e => limit.nanos < e.2.average.nanos).map fun e =>
    (e.1, e.2.average)

/-- The types that fail more often than not, with their failure rate. -/
def failing (l : Ledger) : List (String × Binary64) :=
  (l.types.entries.filter fun e =>
    (Binary64.ofRatio false 1 2).magnitudeBits < e.2.failureRate.magnitudeBits).map fun e =>
      (e.1, e.2.failureRate)

end Ledger

/-- One attempt raced against its time limit and against cancellation. -/
structure Race where
  /-- How long the attempt may take. -/
  limit : Span
  /-- How long the attempt takes. -/
  duration : Span
  /-- When it is cancelled from outside. -/
  cancelAt : Option Span := none

/-- How a race ends. -/
inductive Race.End
  | finished
  | cancelled
  | timedOut
deriving DecidableEq

namespace Race

/-- Instants of a clock that ticks in milliseconds. -/
def tick (d : Span) : Nat := d.millisUp

/-- How a race ends and after how many milliseconds.  Of events at one instant, cancellation comes
before the end of the attempt, and that before the time limit; but an attempt that takes no time
is over before anything that happens later. -/
def outcome (r : Race) : Race.End × Nat :=
  let done := tick r.duration
  let limit := tick r.limit
  match r.cancelAt.map tick with
  | some c =>
    if c = 0 then (.cancelled, 0)
    else if c ≤ min done limit then (.cancelled, c)
    else if done ≤ limit then (.finished, done)
    else (.timedOut, limit)
  | none => if done ≤ limit then (.finished, done) else (.timedOut, limit)

end Race

end Recital

import Recital.Playback.Flow
import Recital.Playback.Snapshot
import Recital.Policy.Basic

/-!
# Recovery from faults

What is done about a line whose command failed on every attempt.  The remedy of the command type
comes before the one of the fault, and a fatal fault has none.  Repeating a line and returning to
the checkpoint are limited for each line.
-/

namespace Recital

/-- What the playback does about a failed line (`RecoveryOutcome`). -/
inductive Plan
  /-- Treat the line as done and continue as the action says. -/
  | proceed (flow : Flow)
  /-- Execute the line again. -/
  | again
  /-- Return to a snapshot. -/
  | rollback (snapshot : Snapshot)
  /-- End the playback. -/
  | halt
  /-- Nothing can be done. -/
  | giveUp

/-- The checkpoint to return to, and how often recovery was tried and worked (`RecoveryManager`). -/
structure Recovery where
  /-- The snapshot that a rollback returns to. -/
  checkpoint : Option Snapshot := none
  /-- How many recoveries were planned. -/
  attempts : Nat := 0
  /-- How many of them were carried out. -/
  successes : Nat := 0

namespace Recovery

/-- The remedy of a fault under the policy of its command type. -/
def remedyFor (fault : Fault) (policy : Policy) : Option Remedy :=
  if fault.isFatal then none else policy.onError.or fault.remedy

/-- The plan for a remedy, when `spent` of `limit` repetitions and rollbacks are used up. -/
def planFor (r : Recovery) (remedy : Remedy) (spent limit : Nat) : Plan :=
  match remedy with
  | .skip => .proceed .next
  | .jump target => .proceed (.ofTarget target)
  | .stop => .halt
  | .rollback =>
    match r.checkpoint with
    | some snapshot => if spent < limit then .rollback snapshot else .giveUp
    | none => .giveUp
  | .retry => if spent < limit then .again else .giveUp

/-- Plans the recovery of a failed line.  Every fault that has a remedy counts as an attempt. -/
def plan (r : Recovery) (fault : Fault) (policy : Policy) (spent limit : Nat) :
    Plan × Recovery :=
  match remedyFor fault policy with
  | none => (.giveUp, r)
  | some remedy => (r.planFor remedy spent limit, { r with attempts := r.attempts + 1 })

/-- Counts a plan that was carried out. -/
def recordSuccess (r : Recovery) : Recovery := { r with successes := r.successes + 1 }

/-- Sets the checkpoint. -/
def setCheckpoint (r : Recovery) (s : Snapshot) : Recovery := { r with checkpoint := some s }

/-- Removes the checkpoint. -/
def clearCheckpoint (r : Recovery) : Recovery := { r with checkpoint := none }

/-- The share of plans that were carried out; there is none before the first plan. -/
def successRate (r : Recovery) : Option Binary64 :=
  if r.attempts = 0 then none else some (Binary64.ofRatio false r.successes r.attempts)

end Recovery

end Recital

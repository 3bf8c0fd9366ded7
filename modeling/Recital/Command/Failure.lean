import Recital.Policy.Basic

/-!
# Failures of commands

What a command can fail with, and how a failure becomes a fault: its kind decides category and
severity, and the policy of the command type decides whether another attempt is made.
-/

namespace Recital

/-- The ways in which a command fails (`CommandError`). -/
inductive Failure
  | cancelled
  /-- The attempt took longer than allowed. -/
  | timedOut (elapsed : Span)
  | invalidArgument (detail : String)
  | invalidState (detail : String)
  | notFound (detail : String)
  | unimplemented (detail : String)
  | outOfResources (detail : String)
  | network (detail : String)
  | security (detail : String)
  | configuration (detail : String)
  /-- A fault that the command classified itself. -/
  | reported (fault : Fault)
  /-- Anything else. -/
  | other (detail : String)

namespace Failure

/-- A failure in words. -/
def message : Failure → String
  | cancelled => "command was cancelled"
  | timedOut elapsed => "command timed out after " ++ elapsed.text
  | invalidArgument detail => "invalid argument: " ++ detail
  | invalidState detail => "invalid state: " ++ detail
  | notFound detail => "not found: " ++ detail
  | unimplemented detail => "not implemented: " ++ detail
  | outOfResources detail => "out of resources: " ++ detail
  | network detail => "network error: " ++ detail
  | security detail => "access denied: " ++ detail
  | configuration detail => "configuration error: " ++ detail
  | reported fault => fault.text
  | other detail => detail

/-- The fault that a failure is by its kind alone; `hint` is the category of unclear ones. -/
def bareFault (hint : Fault.Category) (f : Failure) : Fault :=
  let plain (category : Fault.Category) (severity : Fault.Severity) : Fault :=
    { message := f.message, severity, category }
  match f with
  | cancelled | timedOut _ => plain .timeout .recoverable
  | invalidArgument _ => plain .validation .critical
  | invalidState _ => plain .stateManagement .critical
  | notFound _ => plain .resourceLoading .critical
  | unimplemented _ => plain .configuration .fatal
  | outOfResources _ => plain .unknown .fatal
  | network _ => plain .network .recoverable
  | security _ => plain .security .fatal
  | configuration _ => plain .configuration .critical
  | reported fault =>
    if fault.category = .unknown then { fault with category := hint } else fault
  | other _ => plain hint .critical

end Failure

namespace Fault

/-- What is done about a fault where nothing else is said. -/
def defaultRemedy (category : Category) (severity : Severity) : Option Remedy :=
  if severity = .fatal then none
  else match category with
    | .timeout | .resourceLoading => some .skip
    | _ => none

/-- A hint for each category. -/
def Category.suggestion : Category → String
  | timeout => "raise the timeout for this command type or check what it waits on"
  | validation => "check the arguments on this line"
  | stateManagement => "check that the command runs in the state it expects"
  | security => "check the permissions the command needs"
  | resourceLoading => "check that the referenced resource exists"
  | network => "check connectivity; the command can be retried"
  | configuration => "check the engine configuration for this command type"
  | unknown => "see the log for details"

end Fault

/-- The fault that a failure of a command is under the policy of its type. -/
def Failure.classify (f : Failure) (type : String) (policy : Policy) : Fault :=
  let fault := f.bareFault (policy.categoryHint.getD .unknown)
  { fault with
    commandType := fault.commandType.or (some type)
    retryable := policy.isRetryable fault.severity fault.category
    remedy := fault.remedy.or (Fault.defaultRemedy fault.category fault.severity)
    suggestion :=
      if fault.suggestion.isEmpty then fault.category.suggestion else fault.suggestion }

end Recital

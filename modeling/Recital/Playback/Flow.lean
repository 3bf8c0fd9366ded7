import Recital.Playback.Fault

/-!
# Flow actions

What a line tells the playback to do next, and the result of a command that carries such an action.
-/

namespace Recital

/-- What the playback does after a line (`FlowAction`). -/
inductive Flow
  /-- Go on with the next line. -/
  | next
  /-- Continue at a line. -/
  | toLine (index : Nat)
  /-- Continue at the line that carries a label. -/
  | toLabel (label : String)
  /-- End the playback, for a reason. -/
  | stop (reason : String)
  /-- Return to the last caller, or complete the playback when there is none. -/
  | back
  /-- Continue in another script. -/
  | call (script : String)
deriving DecidableEq, Inhabited

namespace Flow

/-- The action that leads to a target. -/
def ofTarget : Target → Flow
  | .line n => toLine n
  | .label name => toLabel name

/-- The playback may go elsewhere than to the next line. -/
def redirects : Flow → Bool
  | next => false
  | _ => true

/-- An action in words. -/
def text : Flow → String
  | next => "continue"
  | toLine n => "jump to line " ++ Text.ofNat n
  | toLabel label => "jump to #" ++ label
  | stop reason => "stop (" ++ reason ++ ")"
  | back => "return"
  | call script => "call script " ++ script

/-- A choice of action. -/
def toJson : Flow → Json
  | next => .str "continue"
  | toLine n => .obj [("jump_to_line", .nat n)]
  | toLabel label => .obj [("jump_to_label", .str label)]
  | stop reason => .obj [("stop", .str reason)]
  | back => .str "return"
  | call script => .obj [("call_script", .str script)]

/-- Reads a choice of action. -/
def ofJson? (j : Json) : Option Flow :=
  match Json.choice? j with
  | some ("jump_to_line", some v) => v.word?.map toLine
  | some ("jump_to_label", some v) => v.str?.map toLabel
  | some ("stop", some v) => v.str?.map stop
  | some ("call_script", some v) => v.str?.map call
  | some ("continue", payload) => if Json.isBare .free payload then some next else none
  | some ("return", payload) => if Json.isBare .free payload then some back else none
  | _ => none

end Flow

/-- What a command that can fail or redirect reports (`CommandResult`). -/
structure CommandResult where
  /-- The command did its work. -/
  success : Bool
  /-- What went wrong, if it says so. -/
  fault : Option Fault
  /-- What the playback does next. -/
  flow : Flow

namespace CommandResult

/-- Success, with an action. -/
def ofFlow (flow : Flow) : CommandResult := ⟨true, none, flow⟩

/-- Failure, with or without a fault. -/
def failed (fault : Option Fault) : CommandResult := ⟨false, fault, .next⟩

end CommandResult

end Recital

import Recital.Command.Basic
import Recital.Json.Reader
import Recital.Text.Blank

/-!
# Arguments of the built-in commands

The text after the keyword of a command line, read as the arguments of a built-in command.
-/

namespace Recital

/-- Why the arguments of a command are refused. -/
inductive ArgumentError
  | noAssignment (args : String)
  | badName (name : String)
  | emptyLabel
  | badTarget (args : String)
  | needsLabel
  | badMillis (args : String)
  | badScript (script : String)
  /-- A refusal by a command of the host. -/
  | custom (message : String)
deriving DecidableEq

namespace ArgumentError

/-- A refusal in words. -/
def message : ArgumentError → String
  | noAssignment args => "expected 'name = value', got '" ++ args ++ "'"
  | badName name => "invalid variable name '" ++ name ++ "'"
  | emptyLabel => "label name is empty"
  | badTarget args => "expected '#label' or a line number, got '" ++ args ++ "'"
  | needsLabel => "gosub needs a '#label' target"
  | badMillis args => "expected milliseconds, got '" ++ args ++ "'"
  | badScript script => "expected a script name, got '" ++ script ++ "'"
  | custom message => message

end ArgumentError

/-- What reads the arguments of a command. -/
abbrev Factory := String → Except ArgumentError Command

namespace Command

/-- A value: the JSON value of the text, or the text itself when it is none. -/
def readValue (s : String) : Json := (Json.parse? s).getD (.str s)

/-- `name = value` -/
def readAssign : Factory := fun args =>
  match Text.cutAt (· == '=') args.toList with
  | none => .error (.noAssignment args)
  | some (left, right) =>
    let name := Text.trim (String.ofList left)
    if name.isEmpty || Text.hasBlank name then .error (.badName name)
    else .ok (.assign name (readValue (Text.trim (String.ofList right))))

/-- `#label` or a line number -/
def readTarget (args : String) : Except ArgumentError Target :=
  let args := Text.trim args
  match args.toList with
  | '#' :: rest =>
    let label := Text.trim (String.ofList rest)
    if label.isEmpty then .error .emptyLabel else .ok (.label label)
  | _ => match Text.readWord args with
    | some n => .ok (.line n)
    | none => .error (.badTarget args)

/-- The target of a jump. -/
def readJump : Factory := fun args => (readTarget args).map .jump

/-- The label of a subroutine. -/
def readGosub : Factory := fun args =>
  match readTarget args with
  | .ok (.label label) => .ok (.gosub label)
  | .ok (.line _) => .error .needsLabel
  | .error e => .error e

/-- The reason for an end of the playback; there is a general one. -/
def readStop : Factory := fun args =>
  let reason := Text.trim args
  .ok (.stop (if reason.isEmpty then "stopped by script" else reason))

/-- A number of milliseconds. -/
def readWait : Factory := fun args =>
  let args := Text.trim args
  match Text.readWord args with
  | some ms => .ok (.wait ms)
  | none => .error (.badMillis args)

/-- The name of a script, without blanks. -/
def readCall : Factory := fun args =>
  let script := Text.trim args
  if script.isEmpty || Text.hasBlank script then .error (.badScript script)
  else .ok (.call script)

/-- The keywords of the built-in commands. -/
def builtins : List (String × Factory) :=
  [("set", readAssign), ("clear", fun _ => .ok .clear), ("jump", readJump),
    ("gosub", readGosub), ("return", fun _ => .ok .back), ("stop", readStop),
    ("wait", readWait), ("log", fun args => .ok (.log args)), ("call", readCall)]

end Command

end Recital

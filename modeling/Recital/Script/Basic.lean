import Recital.Command.Basic
import Recital.Text.Blank

/-!
# Scripts

A script is a named list of lines.  A line is a command line, which may not have found its command,
or a text line, which is a label, a comment, blank or narrative.
-/

namespace Recital

/-- What a text line means (`TextKind`). -/
inductive TextKind
  /-- Marks a place by name. -/
  | label (name : String)
  /-- Is passed over. -/
  | comment
  /-- Is passed over. -/
  | blank
  /-- Is shown. -/
  | narrative (text : String)
deriving DecidableEq

/-- The meaning of a text line. -/
def TextKind.ofText (s : String) : TextKind :=
  let text := Text.trim s
  match text.toList with
  | [] => .blank
  | '/' :: '/' :: _ => .comment
  | '#' :: rest => .label (Text.trim (String.ofList rest))
  | _ => .narrative text

/-- A line of a script (`Line`). -/
inductive Line
  /-- A line without a command. -/
  | text (source : String)
  /-- A command line; it has no command when its keyword is not known. -/
  | command (source : String) (command : Option Command)

namespace Line

/-- The text of a line. -/
def source : Line → String
  | text s => s
  | command s _ => s

/-- The label that a line carries. -/
def label? : Line → Option String
  | text s => match TextKind.ofText s with
    | .label name => some name
    | _ => none
  | command .. => none

end Line

/-- A script (`Script`). -/
structure Script where
  /-- The name of the script. -/
  name : String
  /-- Its lines. -/
  lines : List Line

namespace Script

/-- The number of lines. -/
def size (s : Script) : Nat := s.lines.length

/-- The line with the given index. -/
def line? (s : Script) (index : Nat) : Option Line := s.lines[index]?

end Script

end Recital

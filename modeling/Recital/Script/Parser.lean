import Recital.Script.Basic
import Recital.Command.Argument

/-!
# Reading scripts

Each line of a source text becomes one line of the script.  A line whose first character that is not
blank is `@` is a command line: the word after it is the keyword, and the rest its arguments.
-/

namespace Recital

/-- Why a script cannot be loaded (`LoaderError`). -/
inductive LoadError
  | notFound (name : String)
  /-- A line of the script is not well formed. -/
  | malformed (name : String) (line : Nat) (message : String)
  /-- The text of the script cannot be read. -/
  | unreadable (name : String) (detail : String)
deriving DecidableEq

namespace LoadError

/-- An error in words. -/
def message : LoadError → String
  | notFound name => "script not found: " ++ name
  | malformed name line message =>
    "failed to parse script " ++ name ++ " at line " ++ Text.ofNat line ++ ": " ++ message
  | unreadable name detail => "IO error loading script " ++ name ++ ": " ++ detail

end LoadError

/-- What a parser knows: the command keywords (`ScriptParser`). -/
structure Parser where
  /-- The commands by keyword. -/
  factories : Table Factory

namespace Parser

/-- A parser without keywords. -/
def bare : Parser := ⟨∅⟩

/-- Adds a keyword, or replaces its command. -/
def register (p : Parser) (keyword : String) (factory : Factory) : Parser :=
  ⟨p.factories.insert keyword factory⟩

/-- The parser that knows the built-in commands. -/
def standard : Parser :=
  Command.builtins.foldl (fun p e => p.register e.1 e.2) bare

/-- The keywords in increasing order. -/
def keywords (p : Parser) : List String := p.factories.keys

/-- The keyword and the arguments of a command line, its marker already removed. -/
def splitCommand (body : List Char) : String × String :=
  match Text.cutAt Text.isBlank body with
  | some (keyword, args) => (String.ofList keyword, Text.trim (String.ofList args))
  | none => (String.ofList body, "")

/-- Reads one line of a source text. -/
def parseLine (p : Parser) (raw : String) : Except String Line :=
  let text := Text.trimEnd raw
  match Text.dropBlanks text.toList with
  | '@' :: body =>
    let (keyword, args) := splitCommand body
    match p.factories.get? keyword with
    | none => .ok (.command text none)
    | some factory => match factory args with
      | .ok command => .ok (.command text (some command))
      | .error e => .error ("@" ++ keyword ++ ": " ++ e.message)
  | _ => .ok (.text text)

/-- Reads the lines of a source text, the first of which has the given index. -/
def parseLines (p : Parser) (name : String) : Nat → List String → Except LoadError (List Line)
  | _, [] => .ok []
  | index, raw :: rest =>
    match p.parseLine raw with
    | .error message => .error (.malformed name index message)
    | .ok line => (parseLines p name (index + 1) rest).map (line :: ·)

/-- Reads a script; the first line that is not well formed is reported. -/
def parse (p : Parser) (name source : String) : Except LoadError Script :=
  (p.parseLines name 0 (Text.lines source)).map fun lines => ⟨name, lines⟩

end Parser

end Recital

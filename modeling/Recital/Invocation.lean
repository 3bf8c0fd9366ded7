import Recital.Decimal.Reader
import Recital.Files.Path
import Recital.Text.Blank

/-!
# Command lines

What the program is asked to do by its arguments: the word `run`, the name of a script, and options
anywhere among what follows.  The value of an option stands behind an equals sign or in the next
argument, which then must not look like an option.  After `--` there are only names.  In place of
all this, an explanation or the version of the program can be asked for.
-/

namespace Recital

/-- A request to play a script from a directory. -/
structure Invocation where
  /-- The script. -/
  name : String
  /-- The directory of scripts. -/
  root : Path := ⟨"."⟩
  /-- The settings file. -/
  settings : Option Path := none
  /-- A playback speed in place of the configured one. -/
  speed : Option Binary64 := none
  /-- Faults that are not remedied are passed over, whatever is configured. -/
  continueOnError : Bool := false
  /-- The key of a saved snapshot to continue from, in place of the beginning of the script. -/
  resume : Option String := none

namespace Invocation

/-- What can be explained. -/
inductive Topic
  /-- The program as a whole. -/
  | program
  /-- The arguments after `run`. -/
  | run
  /-- The arguments after `help`. -/
  | help

/-- What arguments ask for. -/
inductive Wish
  | play (i : Invocation)
  | help (topic : Topic)
  /-- The name and the version of the program. -/
  | version

/-- The arguments read so far. -/
structure Draft where
  name : Option String := none
  root : Option Path := none
  settings : Option Path := none
  speed : Option Binary64 := none
  continueOnError : Bool := false
  resume : Option String := none

/-- A path as the value of an option; it must not be empty. -/
def path? (s : String) : Option Path := if s.isEmpty then none else some ⟨s⟩

/-- The options that have a value. -/
def valued : List String := ["root", "config", "speed", "resume"]

namespace Draft

/-- Gives an option its value; each can be given once. -/
def setOption? (d : Draft) (option value : String) : Option Draft :=
  match option with
  | "root" => if d.root.isSome then none else (path? value).map fun p => { d with root := p }
  | "config" =>
    if d.settings.isSome then none else (path? value).map fun p => { d with settings := p }
  | "speed" =>
    if d.speed.isSome then none
    else (Decimal.read? value.toList).map fun x => { d with speed := x }
  | "resume" => if d.resume.isSome then none else some { d with resume := value }
  | _ => none

/-- Sets an option that has no value; it can be set once. -/
def setFlag? (d : Draft) (option : String) : Option Draft :=
  if option = "continue-on-error" && !d.continueOnError then some { d with continueOnError := true }
  else none

/-- Gives the name of the script; there is only one. -/
def setName? (d : Draft) (name : String) : Option Draft :=
  if d.name.isSome then none else some { d with name }

/-- The request that the arguments make, if the script is named. -/
def toInvocation? (d : Draft) : Option Invocation := do
  return {
    name := ← d.name
    root := d.root.getD ⟨"."⟩
    settings := d.settings
    speed := d.speed
    continueOnError := d.continueOnError
    resume := d.resume }

end Draft

/-- The name of an option, and the value behind an equals sign if there is one. -/
def option? (arg : String) : Option (String × Option String) :=
  match arg.toList with
  | '-' :: '-' :: body => match Text.cutAt (· == '=') body with
    | some (name, value) => some (String.ofList name, some (String.ofList value))
    | none => some (String.ofList body, none)
  | _ => none

/-- The argument looks like an option. -/
def isDashed (arg : String) : Bool :=
  match arg.toList with
  | '-' :: _ :: _ => true
  | _ => false

/-- The argument asks for an explanation. -/
def asksHelp (arg : String) : Bool := arg == "--help" || "-h".toList.isPrefixOf arg.toList

/-- The argument asks for the version. -/
def asksVersion (arg : String) : Bool := arg == "--version" || "-V".toList.isPrefixOf arg.toList

/-- Reads the arguments after `run`; gives nothing where they make no sense. -/
def readRun? (d : Draft) : List String → Option Wish
  | [] => d.toInvocation?.map .play
  | arg :: rest =>
    if arg = "--" then
      (rest.foldlM Draft.setName? d).bind fun d => d.toInvocation?.map .play
    else if asksHelp arg then some (.help .run)
    else match option? arg with
      | some (option, some value) => (d.setOption? option value).bind (readRun? · rest)
      | some (option, none) =>
        if valued.contains option then
          match rest with
          | value :: rest =>
            if isDashed value then none else (d.setOption? option value).bind (readRun? · rest)
          | [] => none
        else (d.setFlag? option).bind (readRun? · rest)
      | none => if isDashed arg then none else (d.setName? arg).bind (readRun? · rest)

/-- Reads the arguments; gives nothing where they make no sense. -/
def read? : List String → Option Wish
  | "run" :: rest => readRun? {} rest
  | ["help"] => some (.help .program)
  | ["help", "run"] => some (.help .run)
  | ["help", "help"] => some (.help .help)
  | arg :: _ =>
    if asksHelp arg then some (.help .program)
    else if asksVersion arg then some .version
    else none
  | [] => none

/-- The name of the program. -/
def programName : String := "scriptplay"

/-- The name and the version of the program. -/
def version : String := programName ++ " 0.1.0\n"

/-- How the program is called. -/
def Topic.usage : Topic → String
  | .program => "Usage: " ++ programName ++ " <COMMAND>\n"
  | .run => "Usage: " ++ programName ++ " run [OPTIONS] <NAME>\n"
  | .help => "Usage: " ++ programName ++ " help [COMMAND]...\n"

/-- What a topic is about. -/
def Topic.title : Topic → String
  | .program => "Play line-based scripts"
  | .run => "Play a script by name"
  | .help => "Print this message or the help of the given subcommand(s)"

/-- What the arguments mean. -/
def Topic.details : Topic → String
  | .program =>
    "Commands:\n" ++
    "  run   " ++ Topic.run.title ++ "\n" ++
    "  help  " ++ Topic.help.title ++ "\n\n" ++
    "Options:\n" ++
    "  -h, --help     Print help\n" ++
    "  -V, --version  Print version\n"
  | .run =>
    "Arguments:\n" ++
    "  <NAME>  Script name, without the extension\n\n" ++
    "Options:\n" ++
    "      --root <ROOT>        Directory holding the scripts [default: .]\n" ++
    "      --config <CONFIG>    Engine configuration file (YAML)\n" ++
    "      --speed <SPEED>      Playback speed multiplier\n" ++
    "      --continue-on-error  Keep going past lines that fail\n" ++
    "      --resume <RESUME>    Resume from a saved snapshot key\n" ++
    "  -h, --help               Print help\n"
  | .help =>
    "Arguments:\n" ++
    "  [COMMAND]...  Print help for the subcommand(s)\n"

/-- An explanation. -/
def Topic.text (t : Topic) : String := t.title ++ "\n\n" ++ t.usage ++ "\n" ++ t.details

end Invocation

end Recital

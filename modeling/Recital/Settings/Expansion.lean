import Recital.Files.Tree
import Recital.Table
import Recital.Text.Blank
import Recital.Yaml.Document
import Recital.Yaml.Outline

/-!
# Expansion of settings

Settings are written in YAML files in which two tags have a meaning.  `!include` stands for the
content of another file, named relative to the file in which the tag stands.  `!env_var` stands for
the value of an environment variable, or for a fallback that may follow its name.  Expansion
replaces both everywhere in a value and leaves all else as it is.  While a file is being expanded
it may not be included again.
-/

namespace Recital.Settings

/-- Why settings cannot be read (`ConfigError`). -/
inductive Error
  /-- A file cannot be read. -/
  | unreadable (path : Path) (cause : FileError)
  /-- A file is not YAML, or does not have the shape of settings. -/
  | malformed (path : Path)
  /-- What should be included is not named by a text. -/
  | badInclude (value : Yaml)
  /-- A file includes itself, directly or through others. -/
  | circular (path : Path)
  /-- An environment variable is not set and has no fallback. -/
  | unset (name : String)
  /-- A value makes no sense. -/
  | invalid (key reason : String)

namespace Error

/-- What is wrong with the name of a file that should be included. -/
def includeReason : String := "path must be a string"

/-- An error in words. -/
def message : Error → String
  | unreadable path cause => "failed to read file " ++ path.text ++ ": " ++ cause.message
  | malformed path => "failed to parse YAML in " ++ path.text
  | badInclude y => "invalid include path '" ++ y.outline ++ "': " ++ includeReason
  | circular path => "circular include detected: " ++ path.text
  | unset name => "environment variable '" ++ name ++ "' not set"
  | invalid key reason => "invalid configuration value for '" ++ key ++ "': " ++ reason

/-- What lies behind an error, in words. -/
def causes : Error → List String
  | unreadable _ cause => [cause.message]
  | _ => []

end Error

/-- What settings are read from. -/
structure Source where
  /-- The files. -/
  tree : FileTree
  /-- Where relative paths start. -/
  cwd : Location := []
  /-- The environment variables. -/
  env : Table String := ∅
  /-- What relative paths are joined to before a file is read. -/
  base : Path

/-- The files that are being expanded, the innermost first, each by the components of its path. -/
abbrev Active := List (List Path.Component)

/-- A step of reading settings.  It knows the files that are being expanded, also after it has
failed. -/
abbrev Loading := ExceptT Error (StateM Active)

/-- A step that gives the result of another, whether it fails or not. -/
def observe {α : Type} (step : Loading α) : Loading (Except Error α) :=
  ExceptT.lift (ExceptT.run step)

/-- The name of a file that is included. -/
def includeName : Yaml → Loading Path
  | .str s => return ⟨s⟩
  | y => throw (.badInclude y)

/-- The path of a file that is included in another one. -/
def includePath (base file name : Path) : Path := ((file.parent?).getD base).join name

/-- The name of a variable and the fallback that may follow it after a blank. -/
def reference (s : String) : String × Option String :=
  match Text.cutAt Text.isBlank s.toList with
  | some (name, rest) => (String.ofList name, some (Text.trim (String.ofList rest)))
  | none => (s, none)

/-- The value of a variable.  An environment is a list of texts `name=value`, of which the one is
meant that starts with the given name and an equals sign.  So a name that has an equals sign itself
reaches into the value of the variable that is named before the sign. -/
def lookup (env : Table String) (name : String) : Option String :=
  match Text.cutAt (· == '=') name.toList with
  | none => env.get? name
  | some (front, back) =>
    let start := back ++ ['=']
    (((env.get? (String.ofList front)).map String.toList).filter (start.isPrefixOf ·)).map
      fun value => String.ofList (value.drop start.length)

/-- The value of the variable that a text refers to.  It is read as YAML, and is a text where that
fails. -/
def variableValue (env : Table String) : Yaml → Loading Yaml
  | .str s =>
    let (name, fallback) := reference s
    match (lookup env name).or fallback with
    | some text => return (Yaml.parse? text).getD (.str text)
    | none => throw (.unset name)
  | _ => throw (.invalid "!env_var" "environment variable name must be a string")

mutual

/-- Replaces the tags that have a meaning in a value, where `includes` gives the expanded content of
the file that a value names. -/
def expand (includes : Yaml → Loading Yaml) (env : Table String) : Yaml → Loading Yaml
  | .tagged tag y =>
    if tag = "include" then includes y
    else if tag = "env_var" then variableValue env y
    else return .tagged tag (← expand includes env y)
  | .seq items => return .seq (← expandItems includes env items)
  | .map entries => return .map (← expandEntries includes env entries)
  | .null => return .null
  | .bool b => return .bool b
  | .int i => return .int i
  | .real x => return .real x
  | .str s => return .str s

/-- Replaces the tags in each of the values. -/
def expandItems (includes : Yaml → Loading Yaml) (env : Table String) :
    List Yaml → Loading (List Yaml)
  | [] => return []
  | y :: rest => do
    let y ← expand includes env y
    return y :: (← expandItems includes env rest)

/-- Replaces the tags in the values of the entries; keys stay as they are. -/
def expandEntries (includes : Yaml → Loading Yaml) (env : Table String) :
    List (Yaml × Yaml) → Loading (List (Yaml × Yaml))
  | [] => return []
  | (k, v) :: rest => do
    let v ← expand includes env v
    return (k, v) :: (← expandEntries includes env rest)

end

/-- The expanded value of the text of a file. -/
def expandText (includes : Yaml → Loading Yaml) (env : Table String) (file : Path)
    (text : String) : Loading Yaml :=
  match Yaml.parse? text with
  | some y => expand includes env y
  | none => throw (.malformed file)

/-- Reads a file that is included in another one, where `load` gives the expanded content of a
file. -/
def includeFrom (load : Path → Loading Yaml) (base file : Path) (y : Yaml) : Loading Yaml := do
  load (includePath base file (← includeName y))

/-- The expanded content of a file.  `fuel` bounds how deep files include each other; none is read
while it is being expanded, so there is an end to the paths that can be followed. -/
def expandFile (source : Source) : Nat → Path → Loading Yaml
  | 0, path => throw (.unreadable path .tooLong)
  | fuel + 1, path => do
    let path := source.base.join path
    let components := path.components
    if (← get).contains components then throw (.circular path)
    match source.tree.readPath source.cwd path with
    | .error e => throw (.unreadable path e)
    | .ok text =>
      modify (components :: ·)
      let includes := includeFrom (expandFile source fuel) source.base path
      let result ← observe (expandText includes source.env path text)
      modify (·.erase components)
      ExceptT.mk (return result)

mutual

/-- The names of the variables that a value refers to. -/
def vars : Yaml → List String
  | .tagged tag y => match tag, y with
    | "env_var", .str s => [String.ofList ((reference s).1.toList.takeWhile (· != '='))]
    | _, y => vars y
  | .seq items => itemVariables items
  | .map entries => entryVariables entries
  | _ => []

/-- The names of the variables that the values refer to. -/
def itemVariables : List Yaml → List String
  | [] => []
  | y :: rest => vars y ++ itemVariables rest

/-- The names of the variables that the values of the entries refer to. -/
def entryVariables : List (Yaml × Yaml) → List String
  | [] => []
  | (_, v) :: rest => vars v ++ entryVariables rest

end

/-- How many paths there are at most that can be followed.  At each place of their texts there is a
byte or nothing. -/
def pathCount : Nat := Nat.pow (UInt8.size + 1) FileTree.pathLimit

/-- How deep files can include each other, as each is named by a path of its own. -/
def nestingBound : Nat := pathCount + 1

end Recital.Settings

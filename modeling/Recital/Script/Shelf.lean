import Recital.Files.Tree
import Recital.Script.Parser

/-!
# Scripts in files

A shelf is a directory of scripts, each in a file named for it.  A name may lead into directories
below the shelf and never out of it.
-/

namespace Recital

/-- A directory of scripts (`FileScriptLoader`). -/
structure Shelf where
  /-- The directory. -/
  root : Path
  /-- What reads the scripts. -/
  parser : Parser := .standard

namespace Shelf

/-- The ending of the names of script files. -/
def ending : String := ".script"

/-- The component is a plain name. -/
def isPlain : Path.Component → Bool
  | .name _ => true
  | _ => false

/-- The path of a script, if its name is not empty and consists of plain names. -/
def path? (s : Shelf) (name : String) : Option Path :=
  if name.isEmpty || !(Path.components ⟨name⟩).all isPlain then none
  else some (s.root.join ⟨name ++ ending⟩)

/-- Loads a script from a file tree, where relative paths start at `cwd`. -/
def load (s : Shelf) (tree : FileTree) (cwd : Location) (name : String) :
    Except LoadError Script :=
  match s.path? name with
  | none => .error (.notFound name)
  | some path =>
    match tree.readPath cwd path with
    | .error .missing => .error (.notFound name)
    | .error e => .error (.unreadable name e.message)
    | .ok source => s.parser.parse name source

end Shelf

end Recital

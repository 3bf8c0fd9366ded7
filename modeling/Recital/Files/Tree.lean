import Recital.Files.Path

/-!
# File trees

The files and directories that a program can see.  A location is the list of names that lead to it
from the root.  The operations that change a tree are those of which saving a document is made up,
so that a save can be cut off between any two of them.
-/

namespace Recital

/-- The names that lead from the root to a file or a directory. -/
abbrev Location := List String

/-- What stands at a location. -/
inductive Entry
  | file (content : ByteArray)
  | directory

/-- Why an operation on files fails. -/
inductive FileError
  /-- There is nothing at the location. -/
  | missing
  /-- A directory is needed and something else stands there. -/
  | notDirectory
  /-- A file is needed and a directory stands there. -/
  | isDirectory
  /-- A name or a path is too long. -/
  | tooLong
  /-- A path holds the null character. -/
  | nullCharacter
  /-- The content of a file is not text. -/
  | notText
deriving DecidableEq

/-- An error in words. -/
def FileError.message : FileError → String
  | missing => "No such file or directory (os error 2)"
  | notDirectory => "Not a directory (os error 20)"
  | isDirectory => "Is a directory (os error 21)"
  | tooLong => "File name too long (os error 36)"
  | nullCharacter => "file name contained an unexpected NUL byte"
  | notText => "stream did not contain valid UTF-8"

/-- A tree of files and directories.  The root is always a directory. -/
structure FileTree where
  /-- What stands at the locations other than the root. -/
  entries : List (Location × Entry) := []

namespace FileTree

/-- What stands at a location. -/
def entry? (t : FileTree) (l : Location) : Option Entry :=
  if l.isEmpty then some .directory else t.entries.lookup l

/-- Puts an entry at a location. -/
def put (t : FileTree) (l : Location) (e : Entry) : FileTree :=
  ⟨(l, e) :: t.entries.filter fun x => x.1 != l⟩

/-- Removes the entry at a location. -/
def erase (t : FileTree) (l : Location) : FileTree :=
  ⟨t.entries.filter fun x => x.1 != l⟩

/-- The null character, which no name can hold. -/
def nullChar : Char := Char.ofNat 0

/-- How many bytes a name may have. -/
def nameLimit : Nat := 255

/-- No file can have the name because it is too long. -/
def isLongName (name : String) : Bool := nameLimit < name.utf8ByteSize

/-- Follows the parts of a path from a location. -/
def walk (t : FileTree) : Location → List String → Except FileError Location
  | here, [] => if (t.entry? here).isSome then .ok here else .error .missing
  | here, part :: rest =>
    match t.entry? here with
    | none => .error .missing
    | some (.file _) => .error .notDirectory
    | some .directory =>
      if part = "." then walk t here rest
      else if part = ".." then walk t here.dropLast rest
      else if isLongName part then .error .tooLong
      else walk t (here ++ [part]) rest

/-- The parts of a path, empty ones left out, except that a slash at the end stands for `.`. -/
def parts (p : Path) : List String :=
  let named := p.split.filter (· != "")
  if p.text.toList.getLast? = some '/' then named ++ ["."] else named

/-- How many bytes a path may have. -/
def pathLimit : Nat := 4095

/-- The location of a path; a relative one starts at `cwd`. -/
def locate (t : FileTree) (cwd : Location) (p : Path) : Except FileError Location :=
  if p.text.isEmpty then .error .missing
  else if p.text.toList.contains nullChar then .error .nullCharacter
  else if pathLimit < p.text.utf8ByteSize then .error .tooLong
  else t.walk (if p.isAbsolute then [] else cwd) (parts p)

/-- The content of the file at a location. -/
def read (t : FileTree) (l : Location) : Except FileError ByteArray :=
  match t.entry? l with
  | none => .error .missing
  | some .directory => .error .isDirectory
  | some (.file content) => .ok content

/-- The text of the file at a location. -/
def readText (t : FileTree) (l : Location) : Except FileError String :=
  match t.read l with
  | .error e => .error e
  | .ok content => match String.fromUTF8? content with
    | some s => .ok s
    | none => .error .notText

/-- The text of the file that a path leads to. -/
def readPath (t : FileTree) (cwd : Location) (p : Path) : Except FileError String :=
  match t.locate cwd p with
  | .error e => .error e
  | .ok l => t.readText l

/-- The location of a name in a directory, whether something stands there or not.  A name with the
null character is refused before the directory is looked at. -/
def child (t : FileTree) (dir : Location) (name : String) : Except FileError Location :=
  if name.toList.contains nullChar then .error .nullCharacter
  else match t.entry? dir with
    | none => .error .missing
    | some (.file _) => .error .notDirectory
    | some .directory => if isLongName name then .error .tooLong else .ok (dir ++ [name])

/-- Makes a directory and those that lead to it, as far as they are missing. -/
def makeDirectories (t : FileTree) : Location → List String → Except FileError FileTree
  | here, [] => match t.entry? here with
    | some .directory => .ok t
    | some (.file _) => .error .notDirectory
    | none => .ok (t.put here .directory)
  | here, part :: rest =>
    match t.entry? here with
    | some (.file _) => .error .notDirectory
    | some .directory => makeDirectories t (here ++ [part]) rest
    | none => makeDirectories (t.put here .directory) (here ++ [part]) rest

/-- Makes a directory, or puts a file into one that is made where it is missing.  A tree in which
that is not possible stays as it is. -/
def plant (t : FileTree) (l : Location) (content : Option ByteArray) : FileTree :=
  match content with
  | none => (t.makeDirectories [] l).toOption.getD t
  | some bytes => (t.makeDirectories [] l.dropLast).toOption.elim t (·.put l (.file bytes))

/-- Writes a file in a directory, in place of one that is there. -/
def write (t : FileTree) (dir : Location) (name : String) (content : ByteArray) :
    Except FileError FileTree := do
  let l ← t.child dir name
  match t.entry? l with
  | some .directory => .error .isDirectory
  | _ => .ok (t.put l (.file content))

/-- Gives a file in a directory another name, in place of a file that has it. -/
def rename (t : FileTree) (dir : Location) (source target : String) :
    Except FileError FileTree := do
  let here ← t.child dir source
  let there ← t.child dir target
  let content ← t.read here
  match t.entry? there with
  | some .directory => .error .isDirectory
  | _ => .ok ((t.erase here).put there (.file content))

/-- Removes a file from a directory. -/
def remove (t : FileTree) (dir : Location) (name : String) : Except FileError FileTree := do
  let l ← t.child dir name
  let _ ← t.read l
  return t.erase l

/-- The names of the files that stand directly in a directory. -/
def fileNames (t : FileTree) (dir : Location) : Except FileError (List String) :=
  match t.entry? dir with
  | none => .error .missing
  | some (.file _) => .error .notDirectory
  | some .directory => .ok <| t.entries.filterMap fun x =>
    match x.2 with
    | .directory => none
    | .file _ => if x.1.dropLast = dir then x.1.getLast? else none

end FileTree

end Recital

import Recital.Program
import Std.Time.DateTime.Timestamp

/-!
# The command line

Reads the files that a run needs, lets its session go on in real time, shows the narrative lines as
they come, and writes the snapshots that were saved.
-/

namespace Recital.Main

/-- The absolute path of a location. -/
def pathText (l : Location) : String := "/" ++ String.intercalate "/" l

/-- The tree with what stands at a location on disk, if it can be read. -/
def readEntry (tree : FileTree) (l : Location) : IO FileTree := do
  let path := (← IO.currentDir) / pathText l
  if ← path.isDir then return tree.plant l none
  try return tree.plant l (some (← IO.FS.readBinFile path))
  catch _ => return tree

/-- The file belongs to a directory of scripts: it is a script, or stands in the store. -/
def isWanted (store : Location) (l : Location) : Bool :=
  l.dropLast == store || l.getLast?.any (Shelf.ending.toList.isSuffixOf ·.toList)

/-- The tree with the wanted files below a directory. -/
partial def gather (wanted : Location → Bool) (tree : FileTree) (l : Location) : IO FileTree := do
  let dir := (← IO.currentDir) / pathText l
  if !(← dir.isDir) then return tree
  let mut tree := tree.plant l none
  for entry in ← dir.readDir do
    let inner := l ++ [entry.fileName]
    if ← entry.path.isDir then tree ← gather wanted tree inner
    else if wanted inner then tree ← readEntry tree inner
  return tree

/-- The environment with the variables that the text of a settings file refers to. -/
def readVariables (env : Table String) (text : String) : IO (Table String) := do
  let mut env := env
  for name in Settings.vars ((Yaml.parse? text).getD .null) do
    if let some value ← IO.getEnv name then env := env.insert name value
  return env

/-- The world with the settings file and the files that it includes. -/
partial def gatherSettings (w : Program.World) (path : Path) : IO Program.World := do
  match Settings.load w.tree w.cwd w.env path with
  | .error (.unreadable missing .missing) =>
    let l := missing.names w.cwd
    let tree ← readEntry w.tree l
    if (tree.entry? l).isSome && (w.tree.entry? l).isNone then
      let env ← readVariables w.env ((tree.readText l).toOption.getD "")
      gatherSettings { w with tree, env } path
    else return w
  | _ => return w

/-- Writes the files of a directory that are not the same in two trees. -/
def writeChanges (place : Location) (before after : FileTree) : IO Unit := do
  for name in (after.fileNames place).toOption.getD [] do
    let l := place ++ [name]
    let content (t : FileTree) := (t.read l).toOption.map ByteArray.toList
    if content before != content after then
      IO.FS.createDirAll (pathText place)
      IO.FS.writeBinFile (pathText l) ((after.read l).toOption.getD .empty)

/-- The files as the store of a session has them. -/
def treeOf (s : Session) : FileTree :=
  match s.player.store with
  | some (.directory _ tree) => tree
  | _ => {}

/-- How many steps a request takes before what was shown is written out. -/
def batch : Nat := 1000

/-- Lets a session go on until its requests have ended, as time passes. -/
partial def perform (place : Location) (s : Session) : IO Session := do
  let known := s.player.trace.size
  let (next, moved) := s.round batch s.tasks [] false
  for text in Program.shown (next.player.trace.toList.drop known) do IO.println text
  (← IO.getStdout).flush
  writeChanges place (treeOf s) (treeOf next)
  if moved then perform place next
  else match next.nextTimer with
    | none => return next
    | some t =>
      IO.sleep (t - next.player.now).toUInt32
      perform place (next.setClock t)

/-- The time, in milliseconds since the start of 1970. -/
def wallClock : IO Nat := do
  return (← Std.Time.Timestamp.now).toMillisecondsSinceUnixEpoch.val.toNat

/-- Plays a script. -/
def play (i : Invocation) : IO UInt32 := do
  let cwd := Path.names [] ⟨(← IO.currentDir).toString⟩
  let place := i.root.names cwd ++ [Program.storeName, Program.storeName]
  let tree ← gather (isWanted place) {} (i.root.names cwd)
  let mut w : Program.World := { tree := tree.plant cwd none, cwd, now := ← wallClock }
  if let some path := i.settings then w ← gatherSettings w path
  match Program.prepare batch w i with
  | .error c =>
    IO.eprint c.text
    return 1
  | .ok s =>
    let result := Program.conclude (← perform place s)
    IO.eprint result.errors
    IO.print result.output
    return result.exitCode.toUInt32

end Recital.Main

/-- Reads the arguments and does what they ask for. -/
def main (args : List String) : IO UInt32 := do
  match Recital.Invocation.read? args with
  | some (.play i) => Recital.Main.play i
  | some (.help topic) =>
    IO.print topic.text
    return 0
  | some .version =>
    IO.print Recital.Invocation.version
    return 0
  | none =>
    IO.eprint Recital.Invocation.Topic.program.usage
    return 2

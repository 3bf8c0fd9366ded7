import Recital.Invocation
import Recital.Script.Shelf
import Recital.Session
import Recital.Settings.Load

/-!
# The program

Plays a script from a directory.  Narrative lines are shown as they come, and a report of the
playback follows them.  Snapshots are kept in a directory below that of the scripts, and a playback
can continue from one of them.

A run is prepared here and concluded here; in between, the session of the player goes on from timer
to timer.
-/

namespace Recital.Program

/-- What a run can see. -/
structure World where
  /-- The files. -/
  tree : FileTree
  /-- Where relative paths start. -/
  cwd : Location
  /-- The environment variables. -/
  env : Table String := ∅
  /-- The time at which the run starts, in milliseconds. -/
  now : Nat := 0

/-! ### Complaints -/

/-- Why a run ends early, and what lies behind that. -/
structure Complaint where
  message : String
  causes : List String := []

namespace Complaint

/-- A cause on lines of its own, with its number if there are several. -/
def causeText (number : Option Nat) (cause : String) : String :=
  let (first, others) := match number with
    | some n => ("    " ++ Text.ofNat n ++ ": ", "       ")
    | none => ("    ", "    ")
  first ++ String.intercalate ("\n" ++ others) (cause.splitOn "\n")

/-- The causes under a heading. -/
def causesText : List String → String
  | [] => ""
  | [cause] => "\n\nCaused by:\n" ++ causeText none cause
  | causes =>
    "\n\nCaused by:\n" ++
      String.intercalate "\n" ((causes.zipIdx).map fun c => causeText (some c.2) c.1)

/-- A complaint as it is shown. -/
def text (c : Complaint) : String := "Error: " ++ c.message ++ causesText c.causes ++ "\n"

/-- A script cannot be loaded. -/
def ofLoadError (e : LoadError) : Complaint :=
  { message := e.message
    causes := match e with
      | .unreadable _ cause => [cause]
      | _ => [] }

/-- The player refuses a request. -/
def ofRefusal (r : Refusal) : Complaint :=
  match r with
  | .loading e => ofLoadError e
  | .storing (.files cause) => { message := r.message, causes := [cause.message] }
  | r => { message := r.message }

end Complaint

/-! ### Preparing a run -/

/-- The configuration of a run: that of the settings file, with what the arguments say in its
place. -/
def configure (w : World) (i : Invocation) : Except Complaint Config := do
  let config ← match i.settings with
    | none => pure {}
    | some path => match Settings.load w.tree w.cwd w.env path with
      | .ok c => pure c
      | .error e =>
        throw { message := "loading config " ++ path.text, causes := e.message :: e.causes }
  let config : Config :=
    { config with
      pacing := { config.pacing with speed := i.speed.getD config.pacing.speed }
      tolerance :=
        { config.tolerance with
          continueOnError := config.tolerance.continueOnError || i.continueOnError } }
  match Settings.check config with
  | .ok c => return c
  | .error e => throw { message := e.message }

/-- The name of the directories in which snapshots are kept. -/
def storeName : String := ".storage"

/-- The directory in which snapshots are kept. -/
def storePlace (w : World) (i : Invocation) : Location :=
  i.root.names w.cwd ++ [storeName, storeName]

/-- Loads a script from the directory of scripts. -/
def loadScript (w : World) (i : Invocation) (name : String) : Except LoadError Script :=
  Shelf.load { root := i.root } w.tree w.cwd name

/-- The player of a run. -/
def player (w : World) (i : Invocation) (config : Config) : Player :=
  let host : Host :=
    { config, loader := some (loadScript w i), presenter := some {}, measures := true }
  { Player.create host (Bus.ofCapacity 1024) (some (.directory ⟨storePlace w i⟩ w.tree)) with
    now := w.now }

/-- The number of the playback among the requests. -/
def playId : Nat := 1

/-- A session whose only open request is the playback. -/
def opening (s : Session) (script : Except LoadError Script) (start : Start) :
    Except Complaint Session :=
  match script with
  | .ok script => .ok (s.submit playId (.play script start false))
  | .error e => .error (.ofLoadError e)

/-- Prepares a run: reads the settings and loads the script, or the snapshot and its script. -/
def prepare (fuel : Nat) (w : World) (i : Invocation) : Except Complaint Session := do
  let config ← configure w i
  let s : Session := { player := player w i config }
  match i.resume with
  | none => opening s (loadScript w i i.name) .beginning
  | some key =>
    let s := (s.submit 0 (.loadSnapshot key)).complete fuel
    match s.answer? 0 with
    | some (.snapshot snapshot) =>
      opening s (loadScript w i snapshot.scriptName) (.snapshot snapshot)
    | some (.refused r) => .error (.ofRefusal r)
    | _ => .error { message := "the snapshot was not loaded" }

/-! ### Concluding a run -/

/-- What a run leaves behind. -/
structure Result where
  exitCode : UInt8 := 0
  /-- What is written to the standard output. -/
  output : String := ""
  /-- What is written to the standard error. -/
  errors : String := ""
  /-- The files afterwards. -/
  tree : FileTree

/-- The texts that were shown. -/
def shown (trace : List Trace) : List String :=
  trace.filterMap fun
    | .presented text _ => some text
    | _ => none

/-- The line about the fault of a playback, if it has one. -/
def faultLine (r : Report) : String :=
  match r.fault with
  | none => ""
  | some fault =>
    let line := match r.lineIndex with
      | some n => Text.ofNat n
      | none => "?"
    "error at line " ++ line ++ ": " ++ fault.message ++ "\n"

/-- Concludes a run with the report of the playback. -/
def conclude (s : Session) : Result :=
  let tree := match s.player.store with
    | some (.directory _ tree) => tree
    | _ => {}
  match s.answer? playId with
  | some (.report r) =>
    let output := r.toJson.spread ++ "\n"
    if r.outcome = .failure then
      { exitCode := 1, output, tree
        errors := faultLine r ++ Complaint.text { message := "playback failed" } }
    else { output, errors := faultLine r, tree }
  | some (.refused r) => { exitCode := 1, errors := (Complaint.ofRefusal r).text, tree }
  | _ => { exitCode := 1, errors := Complaint.text { message := "the playback did not end" }, tree }

/-- A run from beginning to end.  `fuel` bounds how long it may take. -/
def run (fuel : Nat) (w : World) (args : List String) : Result :=
  match Invocation.read? args with
  | none => { exitCode := 2, errors := Invocation.Topic.program.usage, tree := w.tree }
  | some (.help topic) => { output := topic.text, tree := w.tree }
  | some .version => { output := Invocation.version, tree := w.tree }
  | some (.play i) => match prepare fuel w i with
    | .error c => { exitCode := 1, errors := c.text, tree := w.tree }
    | .ok s =>
      let s := s.complete fuel
      let result := conclude s
      let texts := (shown s.player.trace.toList).map (· ++ "\n")
      { result with output := String.join texts ++ result.output }

end Recital.Program

import Recital.Playback.Fault
import Recital.Time.Instant
import Recital.Time.Span

/-!
# Snapshots and reports

A snapshot is everything of a playback that can be saved and restored.  A report says how a playback
ended.
-/

namespace Recital

/-- A return address, left by a subroutine call (`Frame`). -/
structure Frame where
  /-- The line to return to. -/
  returnLine : Nat
deriving DecidableEq

namespace Frame

/-- A record of the line. -/
def toJson (f : Frame) : Json := .obj [("return_line_index", .nat f.returnLine)]

/-- Reads the record of a frame. -/
def ofJson? (j : Json) : Option Frame := do
  let r ← Json.record? ["return_line_index"] j
  return ⟨← r.required "return_line_index" Json.word?⟩

/-- The only field of the record. -/
def interest : Json.Interest := .record ["return_line_index"]

end Frame

/-- A saved playback (`ExecutionSnapshot`). -/
structure Snapshot where
  /-- The script that was loaded. -/
  scriptName : String
  /-- The next line to execute. -/
  cursor : Nat
  /-- The return addresses, the latest last. -/
  frames : List Frame
  /-- The variables. -/
  vars : Table Json
  /-- The lines before which the playback pauses. -/
  breakpoints : List Nat
  /-- How many lines were executed. -/
  linesExecuted : Nat
  /-- How many commands were executed. -/
  commandsExecuted : Nat
  /-- When the snapshot was taken. -/
  savedAt : Instant

namespace Snapshot

/-- The names of the fields in their written order. -/
def fieldNames : List String :=
  ["script_name", "cursor", "call_stack", "variables", "breakpoints", "lines_executed",
    "commands_executed", "saved_at"]

/-- A record of all fields. -/
def toJson (s : Snapshot) : Json :=
  .obj
    [("script_name", .str s.scriptName), ("cursor", .nat s.cursor),
      ("call_stack", .arr (s.frames.map Frame.toJson)),
      ("variables", Json.ofTable id s.vars),
      ("breakpoints", .arr (s.breakpoints.map .nat)),
      ("lines_executed", .nat s.linesExecuted),
      ("commands_executed", .nat s.commandsExecuted), ("saved_at", s.savedAt.toJson)]

/-- Reads the record of a snapshot.  Only the script, the cursor and the instant are needed. -/
def ofJson? (j : Json) : Option Snapshot := do
  let r ← Json.record? fieldNames j
  return {
    scriptName := ← r.required "script_name" Json.str?
    cursor := ← r.required "cursor" Json.word?
    frames := ← r.defaulted "call_stack" (Json.list? Frame.ofJson?) []
    vars := ← r.defaulted "variables" (Json.table? fun j => some j.normalize) ∅
    breakpoints := ← r.defaulted "breakpoints" (Json.list? Json.word?) []
    linesExecuted := ← r.defaulted "lines_executed" Json.word? 0
    commandsExecuted := ← r.defaulted "commands_executed" Json.word? 0
    savedAt := ← r.required "saved_at" Instant.ofJson? }

/-- The fields of the record, with those of each frame. -/
def interest : Json.Interest := .recordWith fieldNames [("call_stack", .items Frame.interest)]

end Snapshot

/-- How a playback ended (`ExecutionOutcome`). -/
inductive Outcome
  | success
  | failure
  | cancelled
  | stopped
deriving DecidableEq, Inhabited

namespace Outcome

/-- The name of an outcome. -/
def name : Outcome → String
  | success => "success"
  | failure => "failure"
  | cancelled => "cancelled"
  | stopped => "stopped"

/-- All outcomes. -/
def all : List Outcome := [success, failure, cancelled, stopped]

/-- An outcome is written as its name. -/
def toJson (o : Outcome) : Json := .str o.name

/-- Reads the name of an outcome where it stands. -/
def ofJsonAt? : Json.Site → Json → Option Outcome := Json.named? name all

/-- Reads the name of an outcome. -/
def ofJson? : Json → Option Outcome := ofJsonAt? .free

end Outcome

/-- The summary of a playback that has ended (`ExecutionResult`). -/
structure Report where
  /-- How it ended. -/
  outcome : Outcome
  /-- The script that was loaded at the end. -/
  scriptName : String
  /-- How many lines were executed. -/
  linesExecuted : Nat
  /-- How many commands were executed. -/
  commandsExecuted : Nat
  /-- How long it took. -/
  elapsed : Span
  /-- The fault that ended it. -/
  fault : Option Fault := none
  /-- The line of the fault. -/
  lineIndex : Option Nat := none

namespace Report

/-- The playback reached its end. -/
def isSuccess (r : Report) : Bool := r.outcome == .success

/-- The names of the fields in their written order. -/
def fieldNames : List String :=
  ["outcome", "script_name", "lines_executed", "commands_executed", "elapsed", "error",
    "line_index"]

/-- A record; fields that hold nothing are left out. -/
def toJson (r : Report) : Json :=
  .obj <|
    [("outcome", r.outcome.toJson), ("script_name", .str r.scriptName),
      ("lines_executed", .nat r.linesExecuted), ("commands_executed", .nat r.commandsExecuted),
      ("elapsed", r.elapsed.toJson)] ++
    Json.fieldIfSome "error" Fault.toJson r.fault ++
    Json.fieldIfSome "line_index" .nat r.lineIndex

/-- Reads the record of a report where it stands. -/
def ofJsonAt? (site : Json.Site) (j : Json) : Option Report := do
  let r ← Json.record? fieldNames j
  return {
    outcome := ← r.required "outcome" (Outcome.ofJsonAt? site)
    scriptName := ← r.required "script_name" Json.str?
    linesExecuted := ← r.required "lines_executed" Json.word?
    commandsExecuted := ← r.required "commands_executed" Json.word?
    elapsed := ← r.required "elapsed" Span.ofJson?
    fault := ← r.optional "error" (Fault.ofJsonAt? site)
    lineIndex := ← r.optional "line_index" Json.word? }

/-- Reads the record of a report. -/
def ofJson? : Json → Option Report := ofJsonAt? .free

/-- The fields of the record, with those of the fault. -/
def interest : Json.Interest := .recordWith fieldNames [("error", Fault.interest)]

end Report

end Recital

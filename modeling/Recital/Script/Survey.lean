import Recital.Script.Basic

/-!
# Surveying a script

Before a script is played it is surveyed once: the labels are collected, so that jumps can lead
forward, and every defect is noted.  Of several labels with one name the first counts.
-/

namespace Recital

/-- A defect of a script (`PreprocessError`). -/
inductive Script.Defect
  | duplicateLabel (label : String) (first duplicate : Nat)
  | emptyLabel (line : Nat)
  | missingCommand (line : Nat) (text : String)
deriving DecidableEq

namespace Script.Defect

/-- The line of a defect. -/
def line : Defect → Nat
  | duplicateLabel _ _ duplicate => duplicate
  | emptyLabel line => line
  | missingCommand line _ => line

/-- A defect in words. -/
def message : Defect → String
  | duplicateLabel label first duplicate =>
    "line " ++ Text.ofNat duplicate ++ ": label '" ++ label ++ "' is already defined on line " ++
      Text.ofNat first
  | emptyLabel line => "line " ++ Text.ofNat line ++ ": label has no name"
  | missingCommand line text =>
    "line " ++ Text.ofNat line ++ ": no command for '" ++ text ++ "'"

end Script.Defect

/-- What a survey found (`PreprocessReport`). -/
structure Survey where
  /-- The first line of each label. -/
  labels : Table Nat := ∅
  /-- The defects, in the order of their lines. -/
  defects : List Script.Defect := []

namespace Survey

/-- Takes a line into account. -/
def visit (s : Survey) (index : Nat) (line : Line) : Survey :=
  match line with
  | .command text none => { s with defects := s.defects ++ [.missingCommand index text] }
  | .command _ (some _) => s
  | .text _ => match line.label? with
    | none => s
    | some name =>
      if name.isEmpty then { s with defects := s.defects ++ [.emptyLabel index] }
      else match s.labels.get? name with
        | some first => { s with defects := s.defects ++ [.duplicateLabel name first index] }
        | none => { s with labels := s.labels.insert name index }

/-- Takes lines into account, the first of which has the given index. -/
def visitAll (s : Survey) : Nat → List Line → Survey
  | _, [] => s
  | index, line :: rest => visitAll (s.visit index line) (index + 1) rest

/-- There are no defects. -/
def isClean (s : Survey) : Bool := s.defects.isEmpty

/-- All defects as one fault of the script, if there are any. -/
def fault? (s : Survey) (script : String) : Option Fault :=
  match s.defects with
  | [] => none
  | first :: _ =>
    let fault : Fault :=
      { Fault.validation
          ("preprocessing found " ++ Text.ofNat s.defects.length ++ " error(s), first: " ++
            first.message) with
        lineIndex := some first.line
        scriptName := some script
        suggestion := "fix the script and play it again" }
    some <| s.defects.zipIdx.foldl
      (fun f (d, i) => f.withContext ("error." ++ Text.ofNat i) d.message) fault

end Survey

/-- Surveys a script. -/
def Script.survey (s : Script) : Survey := Survey.visitAll {} 0 s.lines

end Recital

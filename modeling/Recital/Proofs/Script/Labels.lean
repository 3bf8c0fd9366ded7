import Recital.Script.Survey
import Recital.Proofs.Table
import Mathlib.Tactic.Common

/-!
# Labels

The survey of a script collects its labels in a table.  Under each name that a jump can ask for, the
table holds the first line that carries the label.
-/

namespace Recital

/-! ### The first line of a label -/

/-- The first line that carries a label. -/
def Script.lineOf? (s : Script) (label : String) : Option Nat :=
  s.lines.findIdx? (·.label? = some label)

/-- The first line that carries a label is a line that carries it. -/
lemma Script.label?_of_lineOf? {s : Script} {label : String} {index : Nat}
    (h : s.lineOf? label = some index) :
    index < s.size ∧ ∃ line, s.line? index = some line ∧ line.label? = some label := by
  obtain ⟨hlt, hlabel, -⟩ := List.findIdx?_eq_some_iff_getElem.mp h
  refine ⟨hlt, s.lines[index], ?_, by simpa using hlabel⟩
  exact List.getElem?_eq_getElem hlt

namespace Survey

variable (s : Survey) (index : Nat) (line : Line) (lines : List Line)

/-- A line is noted under its label if that is a name that no line before it carries. -/
lemma get?_visit {name : String} (hname : name ≠ "") :
    (s.visit index line).labels.get? name =
      (s.labels.get? name).or (if line.label? = some name then some index else none) := by
  cases line with
  | command text command =>
    have hlabel : (Line.command text command).label? ≠ some name := by simp [Line.label?]
    cases command with
    | none => simp [visit, hlabel]
    | some command => simp [visit, hlabel]
  | text text =>
    simp only [visit]
    split
    · next hnone => simp [hnone]
    · next label hlabel =>
      simp only [hlabel, Option.some.injEq]
      split
      · next hempty =>
        have hne : label ≠ name := by
          rintro rfl
          exact hname (String.isEmpty_iff.mp hempty)
        simp [hne]
      · split
        · next first hfirst =>
          by_cases h : label = name
          · subst h
            simp [hfirst]
          · simp [h]
        · next hnone =>
          by_cases h : label = name
          · subst h
            simp [hnone]
          · simp [h, Ne.symm h]

/-- The lines of a list are noted under the labels that no line before them carries. -/
lemma get?_visitAll {name : String} (hname : name ≠ "") :
    (s.visitAll index lines).labels.get? name =
      (s.labels.get? name).or
        ((lines.findIdx? (·.label? = some name)).map (· + index)) := by
  induction lines generalizing s index with
  | nil => simp [visitAll]
  | cons line lines ih =>
    rw [visitAll, ih, get?_visit s index line hname, Option.or_assoc, List.findIdx?_cons]
    congr 1
    by_cases h : line.label? = some name
    · simp [h]
    · simp [h, Function.comp_def, Nat.add_comm 1 index, Nat.add_assoc]

/-- Nothing is noted under the empty name. -/
lemma get?_visitAll_empty (h : s.labels.get? "" = none) :
    (s.visitAll index lines).labels.get? "" = none := by
  induction lines generalizing s index with
  | nil => exact h
  | cons line lines ih =>
    refine ih _ _ ?_
    unfold visit
    split
    · exact h
    · exact h
    · split
      · exact h
      · next name _ =>
        split
        · exact h
        · next hne =>
          split
          · exact h
          · have hname : "" ≠ name := fun hname => hne (hname ▸ rfl)
            simp [hname, h]

end Survey

namespace Script

variable {s : Script} {label : String} {index : Nat}

/-- The survey finds the first line of each label that has a name. -/
lemma get?_survey (h : label ≠ "") : s.survey.labels.get? label = s.lineOf? label := by
  have hvisit := Survey.get?_visitAll {} 0 s.lines h
  have hnone : ({} : Survey).labels.get? label = none := rfl
  rw [hnone, Option.none_or] at hvisit
  rw [survey, hvisit]
  simp [lineOf?]

/-- What the survey finds is a line that carries the label. -/
lemma label?_of_survey (h : s.survey.labels.get? label = some index) :
    index < s.size ∧ ∃ line, s.line? index = some line ∧ line.label? = some label := by
  by_cases hlabel : label = ""
  · subst hlabel
    rw [survey, Survey.get?_visitAll_empty _ _ _ rfl] at h
    cases h
  · rw [get?_survey hlabel] at h
    exact label?_of_lineOf? h

/-- A script without defects is not refused. -/
lemma fault?_survey_eq_none (h : s.survey.isClean = true) (name : String) :
    s.survey.fault? name = none := by
  have hdefects : s.survey.defects = [] := List.isEmpty_iff.mp h
  simp [Survey.fault?, hdefects]

end Script

end Recital

import Recital.Proofs.Json.Drafted
import Recital.Proofs.Player.LastingChange
import Recital.Proofs.Script.Builtin

/-!
# The values that scripts set

A script that was read with the built-in commands sets variables to values that were read from its
text: JSON values, or texts where there is none (`Parser.sets_of_parse`).
-/

namespace Recital

namespace Command

/-- The value of an assignment is one that can be read. -/
def IsReadable : Command → Prop
  | assign _ value => value.IsReadable
  | custom .. => False
  | _ => True

/-- Such a command sets a variable to nothing else. -/
lemma IsReadable.sets {c : Command} (h : c.IsReadable) : c.Sets Json.IsReadable := by
  intro n view e he
  cases c with
  | assign name value =>
    rw [List.mem_singleton.mp he]
    exact h
  | gosub label =>
    simp only [attempt] at he
    split at he
    · rw [List.mem_singleton.mp he]
      trivial
    · cases he
  | clear | log =>
    rw [List.mem_singleton.mp he]
    trivial
  | custom => exact h.elim
  | _ => cases he

/-- What is not a JSON value is a text. -/
lemma isReadable_readValue (s : String) : (readValue s).IsReadable := by
  unfold readValue
  cases hparse : Json.parse? s with
  | none => exact ⟨.str, .str⟩
  | some value => exact Json.isReadable_of_parse? hparse

/-- What takes the arguments of a built-in keyword sets a variable to what is read there. -/
lemma isReadable_of_takes {args : String} {c : Command} (h : c.Takes args) : c.IsReadable := by
  cases c with
  | assign name value =>
    obtain ⟨-, right, -, -, -, -, hvalue⟩ := h
    rw [← isValue_iff.mp hvalue]
    exact isReadable_readValue _
  | custom => exact h.elim
  | _ => trivial

end Command

namespace Parser

variable {name source : String} {s : Script}

/-- A script of built-in commands sets variables to values that can be read. -/
theorem sets_of_parse (h : standard.parse name source = .ok s) : s.Sets Json.IsReadable := by
  intro text command hline
  obtain ⟨raw, -, hraw⟩ := exists_raw_of_mem h hline
  cases means_of_parseLine hraw with
  | command _ hc => exact (Command.isReadable_of_takes hc.takes).sets

end Parser

end Recital

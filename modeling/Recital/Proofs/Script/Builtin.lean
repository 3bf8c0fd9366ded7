import Recital.Proofs.Script.Grammar

/-!
# Scripts of built-in commands

What is known about a script that was read with the built-in commands: no command of a host stands
on its lines, and each label that is jumped to has a name.
-/

namespace Recital

/-- A command as it is read from the arguments of a built-in keyword. -/
def Command.IsBuiltin : Command → Prop
  | .jump (.label label) => label ≠ ""
  | .gosub label => label ≠ ""
  | .custom .. => False
  | _ => True

/-- A line without a command of a host. -/
def Line.IsBuiltin : Line → Prop
  | .command _ (some c) => c.IsBuiltin
  | _ => True

/-- A script without commands of a host. -/
def Script.IsBuiltin (s : Script) : Prop := ∀ line ∈ s.lines, line.IsBuiltin

namespace Command

/-- What takes the arguments of a built-in keyword is no command of a host. -/
lemma isBuiltin_of_takes {args : String} {c : Command} (h : c.Takes args) : c.IsBuiltin := by
  cases c with
  | jump target =>
    cases target with
    | label label =>
      obtain ⟨-, -, -, hne⟩ := h
      exact hne
    | line n => trivial
  | gosub label =>
    obtain ⟨-, -, -, hne⟩ := h
    exact hne
  | custom => exact h.elim
  | _ => trivial

end Command

namespace Parser

variable {p : Parser} {name source : String} {s : Script}

/-- The standard parser reads lines without commands of a host. -/
lemma isBuiltin_of_parseLine {raw : String} {line : Line}
    (h : standard.parseLine raw = .ok line) : line.IsBuiltin := by
  cases means_of_parseLine h with
  | text | unknown => trivial
  | command _ hc => exact Command.isBuiltin_of_takes hc.takes

/-- A script that was read has the name it was read by. -/
lemma name_of_parse (h : p.parse name source = .ok s) : s.name = name := (parse_eq_ok_iff.mp h).1

/-- The standard parser reads scripts of built-in commands. -/
lemma isBuiltin_of_parse (h : standard.parse name source = .ok s) : s.IsBuiltin := by
  intro line hline
  obtain ⟨raw, -, hraw⟩ := exists_raw_of_mem h hline
  exact isBuiltin_of_parseLine hraw

end Parser

end Recital

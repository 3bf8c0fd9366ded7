/-!
# Counters of lines

A tally counts something for each line of a script.  Lines for which nothing was counted are not
kept.
-/

namespace Recital

/-- Counters by line. -/
structure Tally where
  /-- The lines that were counted, each once, with their counters. -/
  entries : List (Nat × Nat) := []

namespace Tally

/-- The counter of a line. -/
def count (t : Tally) (line : Nat) : Nat := (t.entries.lookup line).getD 0

/-- Sets the counter of a line back to zero. -/
def forget (t : Tally) (line : Nat) : Tally := ⟨t.entries.filter fun e => e.1 != line⟩

/-- Counts a line once more. -/
def bump (t : Tally) (line : Nat) : Tally :=
  ⟨(line, t.count line + 1) :: (t.forget line).entries⟩

end Tally

end Recital

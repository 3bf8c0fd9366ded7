/-!
# Counters that are words

Counters are machine words.  They are counted up without a check for overflow, so after the
greatest word comes zero.
-/

namespace Recital

/-- The word that follows one of the given number of bits. -/
def Word.next (bits n : Nat) : Nat := (n + 1) % Nat.pow 2 bits

end Recital

import Mathlib.Algebra.Group.Nat.Defs
import Recital.Word

/-!
# Counting in words

A counter that is counted up again and again grows by the number of times as long as the sum is a
word, and always but for whole turns of the word (`Word.Grows`).
-/

namespace Recital

namespace Word

theorem next_of_lt {bits n : Nat} (h : n + 1 < 2 ^ bits) : next bits n = n + 1 :=
  Nat.mod_eq_of_lt h

theorem next_lt (bits n : Nat) : next bits n < 2 ^ bits := Nat.mod_lt _ (Nat.two_pow_pos bits)

/-- After the greatest word comes zero. -/
theorem next_greatest (bits : Nat) : next bits (2 ^ bits - 1) = 0 := by
  have hsum : 2 ^ bits - 1 + 1 = 2 ^ bits := Nat.sub_add_cancel Nat.one_le_two_pow
  unfold next
  rw [hsum]
  exact Nat.mod_self _

/-- A counter has grown from one value to another by being counted up so many times. -/
structure Grows (bits count before after : Nat) : Prop where
  mod_eq : after % 2 ^ bits = (before + count) % 2 ^ bits
  eq_add : before + count < 2 ^ bits → after = before + count

namespace Grows

variable {bits m n a b c : Nat}

theorem refl (bits a : Nat) : Grows bits 0 a a := ⟨rfl, fun _ => rfl⟩

/-- Counting up once. -/
theorem next (bits a : Nat) : Grows bits 1 a (next bits a) := ⟨Nat.mod_mod _ _, next_of_lt⟩

theorem trans (hab : Grows bits m a b) (hbc : Grows bits n b c) : Grows bits (m + n) a c where
  mod_eq := by
    rw [hbc.mod_eq, ← Nat.mod_add_mod, hab.mod_eq, Nat.mod_add_mod, Nat.add_assoc]
  eq_add hsum := by
    have hb : b = a + m := hab.eq_add (by omega)
    have hc : c = b + n := hbc.eq_add (by omega)
    rw [hc, hb, Nat.add_assoc]

end Grows

end Word

end Recital

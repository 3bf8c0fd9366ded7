import Recital.Proofs.Text.Blank
import Recital.Text.Numeral
import Mathlib.Algebra.Ring.Nat

/-!
# Decimal numerals

A numeral is read digit by digit, and only digits are read.  A word is written in one or more
decimal digits, however many zeros they start with, behind an optional plus sign, and is less than
the power of two that sixty-four bits hold (`readWord_eq_some_iff`).
-/

namespace Recital.Text

variable {cs ds : List Char} {c : Char} {s : String} {n acc : Nat}

/-! ### Digits -/

lemma isDigit_iff : c.isDigit = true ↔ 48 ≤ c.toNat ∧ c.toNat ≤ 57 := by
  unfold Char.isDigit
  simp only [Bool.and_eq_true, decide_eq_true_eq]
  rfl

lemma digitValue?_of_isDigit (h : c.isDigit = true) :
    digitValue? c = some (c.toNat - '0'.toNat) :=
  if_pos (isDigit_iff.mp h)

lemma digitValue?_of_not_isDigit (h : c.isDigit = false) : digitValue? c = none :=
  if_neg fun hdigit => absurd (isDigit_iff.mpr hdigit) (by rw [h]; exact Bool.false_ne_true)

lemma isSome_digitValue? (c : Char) : (digitValue? c).isSome = c.isDigit := by
  cases h : c.isDigit with
  | true => rw [digitValue?_of_isDigit h, Option.isSome_some]
  | false => rw [digitValue?_of_not_isDigit h, Option.isSome_none]

lemma isBlank_of_isDigit (h : c.isDigit = true) : isBlank c = false := by
  obtain ⟨hleast, hgreatest⟩ := isDigit_iff.mp h
  unfold isBlank
  simp only [Bool.or_eq_false_iff, Bool.and_eq_false_iff, decide_eq_false_iff_not,
    beq_eq_false_iff_ne]
  omega

lemma readDigits_eq (h : ∀ c ∈ ds, c.isDigit = true) (acc : Nat) :
    readDigits acc ds = some (Nat.ofDigitChars 10 ds acc) := by
  induction ds generalizing acc with
  | nil => rfl
  | cons c ds ih =>
    rw [readDigits, digitValue?_of_isDigit (h c List.mem_cons_self), Option.bind_some,
      ih fun x hx => h x (.tail _ hx)]
    rfl

/-- Nothing is read but digits. -/
lemma isDigit_of_readDigits (h : readDigits acc ds = some n) : ∀ c ∈ ds, c.isDigit = true := by
  induction ds generalizing acc with
  | nil => exact fun c hc => absurd hc List.not_mem_nil
  | cons c ds ih =>
    rw [readDigits] at h
    obtain ⟨d, hd, hrest⟩ := Option.bind_eq_some_iff.mp h
    refine List.forall_mem_cons.mpr ⟨?_, ih hrest⟩
    rw [← isSome_digitValue?, hd, Option.isSome_some]

/-! ### Words -/

/-- A text is one or more decimal digits of the given value, behind an optional plus sign. -/
def IsNumeral (s : String) (n : Nat) : Prop :=
  ∃ ds, ds ≠ [] ∧ (∀ c ∈ ds, c.isDigit = true) ∧ n = Nat.ofDigitChars 10 ds 0 ∧
    (s.toList = ds ∨ s.toList = '+' :: ds)

lemma readNat_eq_some_iff : readNat ds = some n ↔
    ds ≠ [] ∧ (∀ c ∈ ds, c.isDigit = true) ∧ n = Nat.ofDigitChars 10 ds 0 := by
  cases ds with
  | nil => simp [readNat]
  | cons c ds =>
    rw [readNat]
    constructor
    · intro h
      have hdigits := isDigit_of_readDigits h
      rw [readDigits_eq hdigits] at h
      exact ⟨List.cons_ne_nil _ _, hdigits, (Option.some.inj h).symm⟩
    · rintro ⟨-, hdigits, rfl⟩
      exact readDigits_eq hdigits 0
    · exact fun h => by cases h

/-- A word is a numeral of sixty-four bits. -/
lemma readWord_eq_some_iff : readWord s = some n ↔ IsNumeral s n ∧ n < 2 ^ 64 := by
  have hword : wordMax = 2 ^ 64 - 1 := rfl
  have hmax : n ≤ wordMax ↔ n < 2 ^ 64 := by omega
  have hplus : '+'.isDigit = false := rfl
  unfold readWord
  dsimp only
  rw [Option.filter_eq_some_iff, decide_eq_true_eq, hmax, readNat_eq_some_iff]
  refine and_congr_left fun _ => ?_
  constructor
  · rintro ⟨hne, hdigits, hvalue⟩
    refine ⟨_, hne, hdigits, hvalue, ?_⟩
    split
    · next cs htext => exact .inr htext
    · exact .inl rfl
  · rintro ⟨ds, hne, hdigits, hvalue, htext | htext⟩
    · split
      · next cs hcs =>
        rw [← htext, hcs] at hdigits
        rw [hdigits '+' List.mem_cons_self] at hplus
        cases hplus
      · rw [htext]
        exact ⟨hne, hdigits, hvalue⟩
    · rw [htext]
      exact ⟨hne, hdigits, hvalue⟩

end Recital.Text

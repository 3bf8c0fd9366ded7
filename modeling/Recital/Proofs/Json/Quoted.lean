import Mathlib.Tactic.Lemma
import Recital.Json.Printer
import Recital.Json.Reader

/-!
# Quoted texts read back

A text that is quoted is read back character by character: a character is written as itself or as an
escape, and the reader takes either one for the character (`readQuoted_escape`).
-/

namespace Recital.Json

variable {held rest : List Char}

/-- What is read so far, none of it a code unit that waits for another. -/
def Quote.whole (held : List Char) : Quote := ⟨some held, none⟩

/-- The escape of a control character has four digits, and they stand for it. -/
lemma hex4_hexDigits : ∀ n < 32, ∃ a b c d, Text.hexDigits 4 n = [a, b, c, d] ∧
    hex4 a b c d = some n := by
  have hdigits : ∀ n : Fin 32, hex4 (Text.hexDigit (n / 16 ^ 3 % 16))
    (Text.hexDigit (n / 16 ^ 2 % 16))
      (Text.hexDigit (n / 16 ^ 1 % 16)) (Text.hexDigit (n / 16 ^ 0 % 16)) = some n.val := by
    decide
  exact fun n hn => ⟨_, _, _, _, rfl, hdigits ⟨n, hn⟩⟩

lemma readQuoted_unicodeEscape {c : Char} (hc : c.toNat < 32) :
    readQuoted (.whole held) (unicodeEscape c.toNat ++ rest) =
      readQuoted (.whole (c :: held)) rest := by
  obtain ⟨a, b, c', d, hdigits, hvalue⟩ := hex4_hexDigits c.toNat hc
  have hunit : (Quote.whole held).pushUnit c.toNat = .whole (c :: held) := by
    have hhigh : isHighSurrogate c.toNat = false := by
      unfold isHighSurrogate
      simp only [Bool.and_eq_false_iff, decide_eq_false_iff_not]
      omega
    have hlow : isLowSurrogate c.toNat = false := by
      unfold isLowSurrogate
      simp only [Bool.and_eq_false_iff, decide_eq_false_iff_not]
      omega
    unfold Quote.pushUnit
    rw [hhigh, hlow, if_neg Bool.false_ne_true, if_neg Bool.false_ne_true, Char.ofNat_toNat]
    rfl
  unfold unicodeEscape
  rw [hdigits]
  calc readQuoted (.whole held) ('\\' :: 'u' :: a :: b :: c' :: d :: rest)
      = readQuoted ((Quote.whole held).pushUnit c.toNat) rest := by
        rw [readQuoted, hvalue]
    _ = readQuoted (.whole (c :: held)) rest := by rw [hunit]

/-- A character is read back, whether it is escaped or not. -/
lemma readQuoted_escape (c : Char) :
    readQuoted (.whole held) (escape c ++ rest) = readQuoted (.whole (c :: held)) rest := by
  have hcode : ∀ n, n < 256 → c.toNat = n → c = Char.ofNat n := fun n _ hn => by
    rw [← hn, Char.ofNat_toNat]
  unfold escape
  split
  · next h => subst h; rfl
  split
  · next h => subst h; rfl
  split
  · next h => subst h; rfl
  split
  · next h => subst h; rfl
  split
  · next h => subst h; rfl
  split
  · next h =>
    rw [hcode 8 (by decide) h]
    rfl
  split
  · next h =>
    rw [hcode 12 (by decide) h]
    rfl
  split
  · next h => exact readQuoted_unicodeEscape h
  · next hquote hback _ _ _ _ _ hprinted =>
    rw [List.singleton_append, readQuoted, if_neg (not_or.mpr ⟨hback, hprinted⟩)]
    · rfl
    · exact hquote
    · exact fun _ _ _ _ _ heq _ => hback heq
    · exact fun _ _ heq _ => hback heq

/-- A quoted text is read back. -/
lemma readText_quote (s : String) : readText (s.toList.flatMap escape ++ '"' :: rest) =
    some (some s, rest) := by
  have hall : ∀ cs held : List Char, readQuoted (.whole held) (cs.flatMap escape ++ '"' :: rest) =
      readQuoted (.whole (cs.reverse ++ held)) ('"' :: rest) := by
    intro cs
    induction cs with
    | nil => exact fun held => rfl
    | cons c cs ih =>
      intro held
      rw [List.flatMap_cons, List.append_assoc, readQuoted_escape, ih, List.reverse_cons,
        List.append_assoc]
      rfl
  have htext : (Quote.whole (s.toList.reverse ++ [])).text? = some s := by
    unfold Quote.whole Quote.text? Quote.settled
    simp
  calc readText (s.toList.flatMap escape ++ '"' :: rest)
      = readQuoted (.whole (s.toList.reverse ++ [])) ('"' :: rest) := hall s.toList []
    _ = some ((Quote.whole (s.toList.reverse ++ [])).text?, rest) := by rw [readQuoted]
    _ = some (some s, rest) := by rw [htext]

end Recital.Json

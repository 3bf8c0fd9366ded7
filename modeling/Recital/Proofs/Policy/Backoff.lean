import Recital.Proofs.Policy.Record
import Mathlib.Algebra.Order.Ring.Nat
import Mathlib.Order.Monotone.Basic

/-!
# Delays are exact

A delay is computed in 64-bit words: the factor of an exponential delay stays at the largest word
from the attempt on where it would exceed it, and so does the product, and only then the maximum is
applied.  Here the delay is compared with what the policy says in numbers without a bound
(`Backoff.due`).  Where the factor is cut off, the product is so as well unless the base is zero;
and a product that is cut off exceeds every maximum, which is a word itself.  So it does not matter
that it was cut off.

That no step of the computation leaves the words is said by a computation that gives nothing as soon
as one does (`Backoff.reckoned?`).
-/

namespace Recital

/-! ### Words -/

namespace Word

/-- A number, if it is a 64-bit word. -/
def held? (n : Nat) : Option Nat := if n ≤ Text.wordMax then some n else none

/-- A sum, if it is a word. -/
def add? (a b : Nat) : Option Nat := held? (a + b)

/-- A product, if it is a word. -/
def mul? (a b : Nat) : Option Nat := held? (a * b)

/-- A difference, if it is not below zero. -/
def sub? (a b : Nat) : Option Nat := if b ≤ a then some (a - b) else none

/-- A one that is moved up by some bits, if there are as many. -/
def bit? (n : Nat) : Option Nat := if n < 64 then held? (2 ^ n) else none

variable {n : Nat}

lemma held?_of_le (h : n ≤ Text.wordMax) : held? n = some n := if_pos h

lemma wordMax_eq : Text.wordMax = 2 ^ 64 - 1 := rfl

/-- A product that is no word is replaced by the largest one. -/
lemma getD_mul? (a b : Nat) : (mul? a b).getD Text.wordMax = Backoff.saturatingMul a b := by
  unfold mul? held? Backoff.saturatingMul
  split
  · next h => exact (min_eq_left h).symm
  · next h => exact (min_eq_right (Nat.le_of_lt (Nat.lt_of_not_le h))).symm

/-- A power of two that is no word is replaced by the largest one. -/
lemma getD_bit? (n : Nat) : (bit? n).getD Text.wordMax = Backoff.doubling n := by
  unfold bit? Backoff.doubling
  split
  · next h =>
    have hpow : 2 ^ n < 2 ^ 64 := Nat.pow_lt_pow_right (by decide) h
    rw [held?_of_le (by rw [wordMax_eq]; omega)]
    rfl
  · rfl

end Word

namespace Backoff

/-! ### What is due -/

/-- The delay that a policy says, leaving out jitter, in numbers without a bound.  Only a linear
delay has an end that is not its own: the largest word. -/
def due (b : Backoff) (attempt : Nat) : Nat :=
  match b with
  | .none => 0
  | fixed delay => delay
  | linear base => min (base * max attempt 1) (2 ^ 64 - 1)
  | exponential base limit _ => min (base * 2 ^ (max attempt 1 - 1)) limit

variable {b : Backoff} {limit w : Nat}

/-- Below a maximum that is a word it does not matter that a product was cut off. -/
lemma min_saturatingMul (h : limit ≤ Text.wordMax) (a b : Nat) :
    min (saturatingMul a b) limit = min (a * b) limit := by
  unfold saturatingMul
  rw [min_assoc, min_eq_right h]

/-- Nor that the factor was. -/
lemma min_mul_doubling (h : limit ≤ Text.wordMax) (base n : Nat) :
    min (base * doubling n) limit = min (base * 2 ^ n) limit := by
  unfold doubling
  split
  · rfl
  next hn =>
  rcases Nat.eq_zero_or_pos base with rfl | hbase
  · rw [Nat.zero_mul, Nat.zero_mul]
  · have hpow : 2 ^ 64 ≤ 2 ^ n := Nat.pow_le_pow_right (by decide) (Nat.le_of_not_lt hn)
    have hword : Text.wordMax ≤ 2 ^ n := le_trans (Nat.sub_le _ _) hpow
    have hfactor : limit ≤ base * Text.wordMax := h.trans (Nat.le_mul_of_pos_left _ hbase)
    have hexact : limit ≤ base * 2 ^ n := (h.trans hword).trans (Nat.le_mul_of_pos_left _ hbase)
    rw [min_eq_right hfactor, min_eq_right hexact]

/-- The window of an attempt is what is due. -/
lemma window_eq_due (h : b.IsCounted) (attempt : Nat) : b.window attempt = b.due attempt := by
  cases b with
  | none => rfl
  | fixed delay => rfl
  | linear base => rfl
  | exponential base limit jitter =>
    obtain ⟨-, hlimit⟩ := h
    unfold window due
    dsimp only
    rw [min_saturatingMul hlimit, min_mul_doubling hlimit]

/-- What is due is a word. -/
lemma due_le_wordMax (h : b.IsCounted) (attempt : Nat) : b.due attempt ≤ Text.wordMax := by
  cases b with
  | none => exact Nat.zero_le _
  | fixed delay => exact h
  | linear base => exact min_le_right _ _
  | exponential base limit jitter => exact (min_le_right _ _).trans h.2

/-- Later attempts wait no less. -/
lemma monotone_due (b : Backoff) : Monotone b.due := by
  intro i j hij
  have hcount : max i 1 ≤ max j 1 := max_le_max_right 1 hij
  cases b with
  | none => exact le_rfl
  | fixed delay => exact le_rfl
  | linear base => exact min_le_min_right _ (Nat.mul_le_mul_left base hcount)
  | exponential base limit jitter =>
    have hpow : 2 ^ (max i 1 - 1) ≤ 2 ^ (max j 1 - 1) :=
      Nat.pow_le_pow_right (by decide) (Nat.sub_le_sub_right hcount 1)
    exact min_le_min_right _ (Nat.mul_le_mul_left base hpow)

/-! ### Jitter -/

/-- What is drawn lies in the upper half of the window. -/
lemma drawFrom_mem (w draw : Nat) : w / 2 ≤ drawFrom w draw ∧ drawFrom w draw ≤ w := by
  unfold drawFrom
  split
  · have hmod : draw % (w - w / 2 + 1) < w - w / 2 + 1 := Nat.mod_lt _ (Nat.succ_pos _)
    omega
  · omega

/-- Each number of the upper half can be drawn. -/
lemma exists_drawFrom {x : Nat} (hw : 1 < w) (hlow : w / 2 ≤ x) (hhigh : x ≤ w) :
    ∃ draw, drawFrom w draw = x := by
  refine ⟨x - w / 2, ?_⟩
  unfold drawFrom
  rw [if_pos hw, Nat.mod_eq_of_lt (by omega)]
  omega

/-! ### No step leaves the words -/

/-- The delay before an attempt, computed step by step; there is none if a step leaves the words. -/
def reckoned? (b : Backoff) (attempt draw : Nat) : Option Nat := do
  let attempt := max attempt 1
  match b with
  | .none => Word.held? 0
  | fixed delay => Word.held? delay
  | linear base => Word.held? ((Word.mul? base attempt).getD Text.wordMax)
  | exponential base limit jitter =>
    let shift ← Word.sub? attempt 1
    let factor ← Word.held? ((Word.bit? shift).getD Text.wordMax)
    let product ← Word.held? ((Word.mul? base factor).getD Text.wordMax)
    let window := min product limit
    if jitter && 1 < window then
      let half := window / 2
      let rest ← Word.sub? window half
      Word.add? half (draw % (rest + 1))
    else Word.held? window

lemma doubling_le_wordMax (n : Nat) : doubling n ≤ Text.wordMax := by
  rw [← Word.getD_bit?]
  unfold Word.bit? Word.held?
  split
  · split
    · next h => exact h
    · exact le_rfl
  · exact le_rfl

/-- To draw from a window that is a word does not leave the words. -/
lemma reckoned_draw (hw : w ≤ Text.wordMax) (jitter : Bool) (draw : Nat) :
    (if jitter && 1 < w then
      (Word.sub? w (w / 2)).bind fun rest => Word.add? (w / 2) (draw % (rest + 1))
    else Word.held? w) = some (if jitter then drawFrom w draw else w) := by
  have hhalf : Word.sub? w (w / 2) = some (w - w / 2) := if_pos (Nat.div_le_self _ _)
  cases jitter with
  | false => exact Word.held?_of_le hw
  | true =>
    have hdrawn := drawFrom_mem w draw
    unfold drawFrom at hdrawn ⊢
    by_cases hone : 1 < w
    · rw [if_pos hone] at hdrawn ⊢
      simp only [Bool.true_and, decide_eq_true hone, if_true, hhalf, Option.bind_some]
      exact Word.held?_of_le (hdrawn.2.trans hw)
    · simp only [Bool.true_and, decide_eq_false hone, Bool.false_eq_true, if_false, if_true,
        if_neg hone]
      exact Word.held?_of_le hw

/-- No step of the computation leaves the words. -/
lemma reckoned?_eq (h : b.IsCounted) (attempt draw : Nat) :
    b.reckoned? attempt draw = some (b.delay attempt draw) := by
  have hwindow : b.window attempt ≤ Text.wordMax :=
    window_eq_due h attempt ▸ due_le_wordMax h attempt
  unfold reckoned?
  cases b with
  | none => rfl
  | fixed delay => exact Word.held?_of_le hwindow
  | linear base =>
    dsimp only
    rw [Word.getD_mul?]
    exact Word.held?_of_le hwindow
  | exponential base limit jitter =>
    have hshift : Word.sub? (max attempt 1) 1 = some (max attempt 1 - 1) :=
      if_pos (le_max_right _ _)
    have hfactor :
        Word.held? (doubling (max attempt 1 - 1)) = some (doubling (max attempt 1 - 1)) :=
      Word.held?_of_le (doubling_le_wordMax _)
    have hproduct : ∀ a b, Word.held? (saturatingMul a b) = some (saturatingMul a b) := fun a b =>
      Word.held?_of_le (min_le_right _ _)
    simp only [hshift, bind, Option.bind_some, Word.getD_bit?, hfactor, Word.getD_mul?, hproduct]
    exact reckoned_draw hwindow jitter draw

/-! ### Delays -/

/-- Without jitter the delay is what is due. -/
lemma delay_of_not_isJittered (h : b.IsCounted) (hjitter : b.isJittered = false)
    (attempt draw : Nat) : b.delay attempt draw = b.due attempt := by
  unfold delay
  rw [hjitter, if_neg Bool.false_ne_true, window_eq_due h]

/-- With jitter it is drawn from the window that is due. -/
lemma delay_of_isJittered (h : b.IsCounted) (hjitter : b.isJittered = true) (attempt draw : Nat) :
    b.delay attempt draw = drawFrom (b.due attempt) draw := by
  unfold delay
  rw [if_pos hjitter, window_eq_due h]

/-- With or without jitter, the delay lies in the upper half of the window. -/
lemma delay_mem (h : b.IsCounted) (attempt draw : Nat) :
    b.due attempt / 2 ≤ b.delay attempt draw ∧ b.delay attempt draw ≤ b.due attempt := by
  cases hjitter : b.isJittered with
  | false =>
    rw [delay_of_not_isJittered h hjitter]
    exact ⟨Nat.div_le_self _ _, le_rfl⟩
  | true =>
    rw [delay_of_isJittered h hjitter]
    exact drawFrom_mem _ draw

/-- Delays are exact and bounded.  Without jitter the delay before an attempt is what is due in
numbers without a bound, and later attempts wait no less; with jitter it lies between half of what
is due and all of it, and if more than one millisecond is due it may be any number there.  No step
of the computation leaves the words. -/
theorem delay_is_exact (b : Backoff) (h : b.IsCounted) :
    (∀ attempt draw, b.reckoned? attempt draw = some (b.delay attempt draw) ∧
      b.delay attempt draw ≤ Text.wordMax) ∧
    (b.isJittered = false → (∀ attempt draw, b.delay attempt draw = b.due attempt) ∧
      ∀ i j draw draw', i ≤ j → b.delay i draw ≤ b.delay j draw') ∧
    (∀ attempt draw, b.due attempt / 2 ≤ b.delay attempt draw ∧
      b.delay attempt draw ≤ b.due attempt) ∧
    (b.isJittered = true → ∀ attempt x, 1 < b.due attempt → b.due attempt / 2 ≤ x →
      x ≤ b.due attempt → ∃ draw, b.delay attempt draw = x) ∧
    Monotone b.due := by
  refine ⟨fun attempt draw => ⟨reckoned?_eq h attempt draw, ?_⟩, fun hjitter => ⟨?_, ?_⟩,
    delay_mem h, fun hjitter attempt x hone hlow hhigh => ?_, monotone_due b⟩
  · exact (delay_mem h attempt draw).2.trans (due_le_wordMax h attempt)
  · exact delay_of_not_isJittered h hjitter
  · intro i j draw draw' hij
    rw [delay_of_not_isJittered h hjitter, delay_of_not_isJittered h hjitter]
    exact monotone_due b hij
  · obtain ⟨draw, hdraw⟩ := exists_drawFrom hone hlow hhigh
    exact ⟨draw, (delay_of_isJittered h hjitter attempt draw).trans hdraw⟩

/-- A delay that doubles from three milliseconds on, without a maximum of its own. -/
def crescendo (jitter : Bool) : Backoff := exponential 3 (2 ^ 64 - 1) jitter

/-- Before the seventieth attempt, whose factor is no word, all that a word can hold is due. -/
theorem crescendo_is_exact :
    (crescendo false).IsCounted ∧ (crescendo false).delay 70 0 = 2 ^ 64 - 1 ∧
      (crescendo true).IsCounted ∧ 2 ^ 63 - 1 ≤ (crescendo true).delay 70 5 ∧
      ∃ draw, (crescendo true).delay 3 draw = 7 := by
  have hplain : (crescendo false).IsCounted := ⟨by decide, by decide⟩
  have hjittered : (crescendo true).IsCounted := ⟨by decide, by decide⟩
  obtain ⟨-, hexact, -⟩ := delay_is_exact (crescendo false) hplain
  obtain ⟨-, -, hwindow, hany, -⟩ := delay_is_exact (crescendo true) hjittered
  have hdue : ∀ jitter, (crescendo jitter).due 70 = 2 ^ 64 - 1 := by decide
  have hthird : (crescendo true).due 3 = 12 := by decide
  refine ⟨hplain, ((hexact rfl).1 70 0).trans (hdue false), hjittered, ?_, ?_⟩
  · have hlow := (hwindow 70 5).1
    rw [hdue] at hlow
    exact hlow
  · exact hany rfl 3 7 (by rw [hthird]; decide) (by rw [hthird]; decide) (by rw [hthird]; decide)

end Backoff

end Recital

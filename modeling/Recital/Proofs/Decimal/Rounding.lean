import Recital.Binary64
import Mathlib.Data.Nat.Log
import Mathlib.Tactic.Ring
import Mathlib.Tactic.GCongr

/-!
# Rounding to binary numbers

The pattern nearest to a quotient is found by bringing the quotient to a scale at which it has a
significand of fifty-three bits, or to the least scale (`Binary64.IsScale`).  There is one such
scale for each quotient, so the pattern does not depend on how the quotient is written.

A quotient that is closer to a number than half of the distance to its neighbours is rounded to that
number (`Binary64.nearestBits_of_near`).  Below a power of two the neighbour is twice as close.
-/

namespace Recital.Binary64

variable {num den num' den' m s t : Nat}

lemma denominator_eq {k : Nat} (hk : k = 1074) : denominator = 2 ^ k := by
  unfold denominator
  rw [← hk, Nat.pow_eq]

lemma denominator_pos : 0 < denominator := by
  obtain ⟨k, hk⟩ : ∃ k, k = 1074 := ⟨_, rfl⟩
  rw [denominator_eq hk]
  exact Nat.two_pow_pos k

@[simp] lemma nearestBits_zero : nearestBits 0 den = 0 := if_pos rfl

/-! ### Scales -/

/-- At the scale a quotient has a significand of fifty-three bits, or of less if it is the least
scale. -/
structure IsScale (num den s : Nat) : Prop where
  lt : num * denominator < 2 ^ 53 * (den * 2 ^ s)
  le : s = 0 ∨ 2 ^ 52 * (den * 2 ^ s) ≤ num * denominator

/-- Scales grow with their exponents. -/
lemma scaled_le (h : s < t) : 2 ^ 53 * (den * 2 ^ s) ≤ 2 ^ 52 * (den * 2 ^ t) := by
  calc 2 ^ 53 * (den * 2 ^ s) = 2 ^ 52 * (den * 2 ^ (s + 1)) := by ring
    _ ≤ 2 ^ 52 * (den * 2 ^ t) := by
      gcongr
      · exact Nat.le_succ 1
      · exact h

lemma IsScale.le_scale (hs : IsScale num den s) (ht : IsScale num den t) : t ≤ s := by
  rcases ht.le with rfl | hle
  · exact Nat.zero_le s
  · by_contra hlt
    exact absurd (hs.lt.trans_le ((scaled_le (Nat.lt_of_not_le hlt)).trans hle)) (Nat.lt_irrefl _)

/-- A quotient has one scale only. -/
lemma IsScale.unique (hs : IsScale num den s) (ht : IsScale num den t) : s = t :=
  Nat.le_antisymm (ht.le_scale hs) (hs.le_scale ht)

/-- The scale at which a pattern is read off. -/
def chosenScale (num den : Nat) : Nat :=
  let low := num.log2 + 1074 - den.log2 - 53
  if num * denominator / (den * 2 ^ low) < 2 ^ 53 then low else low + 1

lemma isScale_chosenScale (hnum : 0 < num) (hden : 0 < den) :
    IsScale num den (chosenScale num den) := by
  obtain ⟨k, hk⟩ : ∃ k, k = 1074 := ⟨_, rfl⟩
  have hnum_le : 2 ^ (num.log2 + k) ≤ num * denominator := by
    rw [denominator_eq hk, pow_add]
    exact Nat.mul_le_mul_right _ (Nat.log2_self_le hnum.ne')
  have hnum_lt : num * denominator < 2 ^ (num.log2 + 1 + k) := by
    rw [pow_add, ← denominator_eq hk]
    exact Nat.mul_lt_mul_of_pos_right Nat.lt_log2_self denominator_pos
  have hden_le : 2 ^ den.log2 ≤ den := Nat.log2_self_le hden.ne'
  have hden_lt : den < 2 ^ (den.log2 + 1) := Nat.lt_log2_self
  unfold chosenScale
  dsimp only
  rw [← hk]
  generalize hlow : num.log2 + k - den.log2 - 53 = low
  have hpos : 0 < den * 2 ^ low := Nat.mul_pos hden (Nat.two_pow_pos _)
  split
  · next hfits =>
    refine ⟨(Nat.div_lt_iff_lt_mul hpos).mp hfits, ?_⟩
    rcases Nat.eq_zero_or_pos low with hzero | hlow_pos
    · exact .inl hzero
    · have hsum : 52 + (den.log2 + 1 + low) = num.log2 + k := by omega
      refine .inr (le_trans ?_ hnum_le)
      calc 2 ^ 52 * (den * 2 ^ low) ≤ 2 ^ 52 * (2 ^ (den.log2 + 1) * 2 ^ low) := by gcongr
        _ = 2 ^ (52 + (den.log2 + 1 + low)) := by rw [← pow_add, ← pow_add]
        _ = 2 ^ (num.log2 + k) := by rw [hsum]
  · next hfits =>
    have hge : 2 ^ 53 * (den * 2 ^ low) ≤ num * denominator :=
      (Nat.le_div_iff_mul_le hpos).mp (Nat.le_of_not_lt hfits)
    refine ⟨hnum_lt.trans_le ?_, .inr (le_trans (le_of_eq (by ring)) hge)⟩
    have hsum : num.log2 + 1 + k ≤ 53 + (den.log2 + (low + 1)) := by omega
    calc 2 ^ (num.log2 + 1 + k) ≤ 2 ^ (53 + (den.log2 + (low + 1))) :=
          Nat.pow_le_pow_right Nat.two_pos hsum
      _ = 2 ^ 53 * (2 ^ den.log2 * 2 ^ (low + 1)) := by rw [pow_add, pow_add]
      _ ≤ 2 ^ 53 * (den * 2 ^ (low + 1)) := by gcongr

/-- The pattern is read off at the scale of the quotient. -/
lemma nearestBits_eq (hnum : 0 < num) (hden : 0 < den) (hs : IsScale num den s) :
    nearestBits num den =
      min (s * 2 ^ 52 + roundDiv (num * denominator) (den * 2 ^ s)) infinityBits := by
  rw [hs.unique (isScale_chosenScale hnum hden)]
  unfold nearestBits
  rw [if_neg hnum.ne']
  unfold chosenScale denominator
  rfl

/-! ### Quotients that are written differently -/

/-- Rounding does not depend on a common factor. -/
lemma roundDiv_mul (hm : 0 < m) : roundDiv (m * num) (m * den) = roundDiv num den := by
  have hless : ∀ {a b : Nat}, m * a < m * b ↔ a < b := Nat.mul_lt_mul_left hm
  unfold roundDiv
  simp only [Nat.mul_div_mul_left _ _ hm, Nat.mul_mod_mul_left, Nat.mul_left_comm 2 m, hless]

lemma nearestBits_mul (hm : 0 < m) (hden : 0 < den) :
    nearestBits (m * num) (m * den) = nearestBits num den := by
  rcases Nat.eq_zero_or_pos num with rfl | hnum
  · rw [Nat.mul_zero, nearestBits_zero, nearestBits_zero]
  · have hs := isScale_chosenScale hnum hden
    generalize chosenScale num den = s at hs
    have hfactor : ∀ k, k * (m * den * 2 ^ s) = m * (k * (den * 2 ^ s)) := fun k => by ring
    have hscale : IsScale (m * num) (m * den) s := by
      refine ⟨?_, hs.le.imp_right fun hle => ?_⟩
      · rw [hfactor, Nat.mul_assoc m num]
        exact Nat.mul_lt_mul_of_pos_left hs.lt hm
      · rw [hfactor, Nat.mul_assoc m num]
        exact Nat.mul_le_mul_left m hle
    rw [nearestBits_eq hnum hden hs,
      nearestBits_eq (Nat.mul_pos hm hnum) (Nat.mul_pos hm hden) hscale, Nat.mul_assoc m num,
      Nat.mul_assoc m den, roundDiv_mul hm]

/-- The pattern depends on the quotient only. -/
lemma nearestBits_congr (hden : 0 < den) (hden' : 0 < den') (h : num * den' = num' * den) :
    nearestBits num den = nearestBits num' den' := by
  calc nearestBits num den = nearestBits (den' * num) (den' * den) :=
        (nearestBits_mul hden' hden).symm
    _ = nearestBits (den * num') (den * den') := by
        rw [Nat.mul_comm den', h, Nat.mul_comm num', Nat.mul_comm den']
    _ = nearestBits num' den' := nearestBits_mul hden hden'

lemma nearestBits_le (num den : Nat) : nearestBits num den ≤ infinityBits := by
  unfold nearestBits
  split
  · exact Nat.zero_le _
  · exact Nat.min_le_right _ _

/-! ### Quotients near a number -/

/-- A quotient within half a unit is rounded to the integer. -/
lemma roundDiv_of_near (hden : 0 < den) (habove : 2 * num < (2 * m + 1) * den)
    (hbelow : 2 * m * den < 2 * num + den) : roundDiv num den = m := by
  have hsplit := Nat.div_add_mod num den
  have hmod := Nat.mod_lt num hden
  unfold roundDiv
  dsimp only
  generalize num / den = k at hsplit ⊢
  generalize num % den = r at hsplit hmod ⊢
  have hm_den : (2 * m + 1) * den = 2 * (m * den) + den := by ring
  have hm_twice : 2 * m * den = 2 * (m * den) := by ring
  have hk_den : den * k = k * den := Nat.mul_comm den k
  have hlower : k < m + 1 := by
    refine Nat.lt_of_mul_lt_mul_right (a := den) ?_
    rw [Nat.succ_mul]
    omega
  have hupper : m < k + 2 := by
    refine Nat.lt_of_mul_lt_mul_right (a := den) ?_
    rw [Nat.add_mul]
    omega
  rcases (by omega : k = m ∨ m = k + 1) with rfl | rfl
  · rw [if_pos (by omega)]
  · have hnext : (k + 1) * den = k * den + den := Nat.succ_mul k den
    rw [if_neg (by omega), if_pos (by omega)]

/-- A quotient that is close enough to a number of the given significand and scale is rounded to
it. -/
lemma nearestBits_of_near (hnum : 0 < num) (hden : 0 < den) (hm : m < 2 ^ 53)
    (hs : s = 0 ∨ 2 ^ 52 ≤ m)
    (habove : 2 * (num * denominator) < (2 * m + 1) * (den * 2 ^ s))
    (hbelow : 2 * m * (den * 2 ^ s) < 2 * (num * denominator) + den * 2 ^ s)
    (hedge : m = 2 ^ 52 → 4 * m * (den * 2 ^ s) < 4 * (num * denominator) + den * 2 ^ s)
    (hfinite : s * 2 ^ 52 + m < infinityBits) : nearestBits num den = s * 2 ^ 52 + m := by
  obtain ⟨unit, hunit_eq⟩ : ∃ unit, unit = den * 2 ^ s := ⟨_, rfl⟩
  have hunit : 0 < unit := hunit_eq ▸ Nat.mul_pos hden (Nat.two_pow_pos s)
  rw [← hunit_eq] at habove hbelow hedge
  have hm_unit : (2 * m + 1) * unit = 2 * (m * unit) + unit := by ring
  have hlt : num * denominator < 2 ^ 53 * unit := by
    have hmul : (m + 1) * unit ≤ 2 ^ 53 * unit := Nat.mul_le_mul_right unit hm
    have hnext : (m + 1) * unit = m * unit + unit := Nat.succ_mul m unit
    omega
  by_cases hle : s = 0 ∨ 2 ^ 52 * unit ≤ num * denominator
  · have hscale : IsScale num den s := by
      rw [hunit_eq] at hlt hle
      exact ⟨hlt, hle⟩
    rw [nearestBits_eq hnum hden hscale, ← hunit_eq, roundDiv_of_near hunit habove hbelow]
    exact Nat.min_eq_left hfinite.le
  · -- The quotient lies below the power of two that the number is, where numbers are twice as
    -- dense.
    obtain ⟨hpos, hless⟩ := not_or.mp hle
    have hm_ge : 2 ^ 52 ≤ m := hs.resolve_left hpos
    obtain ⟨t, rfl⟩ := Nat.exists_eq_add_one_of_ne_zero hpos
    obtain ⟨half, hhalf_eq⟩ : ∃ half, half = den * 2 ^ t := ⟨_, rfl⟩
    have hdouble : unit = 2 * half := by
      rw [hunit_eq, hhalf_eq]
      ring
    have hm_eq : m = 2 ^ 52 := by
      by_contra hne
      have hgt : 2 ^ 52 + 1 ≤ m := by omega
      have hmul : (2 ^ 52 + 1) * unit ≤ m * unit := Nat.mul_le_mul_right unit hgt
      have htwice : 2 * m * unit = 2 * (m * unit) := by ring
      omega
    subst hm_eq
    have hhalf : 0 < half := hhalf_eq ▸ Nat.mul_pos hden (Nat.two_pow_pos t)
    have hquarter := hedge rfl
    have hscale : IsScale num den t := by
      refine ⟨?_, .inr ?_⟩ <;> rw [← hhalf_eq] <;> omega
    have hround : roundDiv (num * denominator) half = 2 ^ 53 := by
      refine roundDiv_of_near hhalf ?_ ?_ <;> omega
    rw [nearestBits_eq hnum hden hscale, ← hhalf_eq, hround]
    have hsame : t * 2 ^ 52 + 2 ^ 53 = (t + 1) * 2 ^ 52 + 2 ^ 52 := by ring
    rw [hsame]
    exact Nat.min_eq_left hfinite.le

/-! ### Quotients of at most one -/

lemma roundDiv_le (num den : Nat) : roundDiv num den ≤ num / den + 1 := by
  have hparity := Nat.mod_lt (num / den) Nat.two_pos
  unfold roundDiv
  dsimp only
  split
  · omega
  · split <;> omega

/-- A quotient of at most one has a small scale. -/
lemma IsScale.le_of_le (hs : IsScale num den s) (hden : 0 < den) (h : num ≤ den) : s ≤ 1022 := by
  rcases hs.le with rfl | hle
  · exact Nat.zero_le _
  · obtain ⟨k, hk⟩ : ∃ k, k = 1074 := ⟨_, rfl⟩
    rw [denominator_eq hk] at hle
    have hpow : 2 ^ 52 * 2 ^ s ≤ 2 ^ k := by
      refine Nat.le_of_mul_le_mul_left ?_ hden
      calc den * (2 ^ 52 * 2 ^ s) = 2 ^ 52 * (den * 2 ^ s) := Nat.mul_left_comm _ _ _
        _ ≤ num * 2 ^ k := hle
        _ ≤ den * 2 ^ k := Nat.mul_le_mul_right _ h
    rw [← Nat.pow_add] at hpow
    have hsum : 52 + s ≤ k := (Nat.pow_le_pow_iff_right Nat.one_lt_two).mp hpow
    omega

/-- A quotient of at most one is rounded to a finite number. -/
lemma nearestBits_lt_of_le (hden : 0 < den) (h : num ≤ den) :
    nearestBits num den < infinityBits := by
  rcases Nat.eq_zero_or_pos num with rfl | hnum
  · rw [nearestBits_zero]
    decide
  · have hs : IsScale num den (chosenScale num den) := isScale_chosenScale hnum hden
    have hscale : chosenScale num den ≤ 1022 := hs.le_of_le hden h
    have hquotient : num * denominator / (den * 2 ^ chosenScale num den) < 2 ^ 53 :=
      (Nat.div_lt_iff_lt_mul (Nat.mul_pos hden (Nat.two_pow_pos _))).mpr hs.lt
    have hround := roundDiv_le (num * denominator) (den * 2 ^ chosenScale num den)
    have hinfinity : infinityBits = 2047 * 2 ^ 52 := rfl
    rw [nearestBits_eq hnum hden hs]
    omega

/-! ### Patterns -/

variable {x : Binary64} {b : Nat}

lemma infinityBits_lt : infinityBits < signBit := by decide

lemma toNat_bits_ofNatBits (hb : b < 2 ^ 64) : (ofNatBits b).bits.toNat = b := by
  simpa [ofNatBits] using hb

/-- A number is its sign and its magnitude. -/
lemma eq_ofNatBits (x : Binary64) :
    x = ofNatBits ((if x.isNegative then signBit else 0) + x.magnitudeBits) := by
  have hlt : x.bits.toNat < 2 ^ 64 := x.bits.toNat_lt
  have hsum : (if x.isNegative then signBit else 0) + x.magnitudeBits = x.bits.toNat := by
    unfold isNegative magnitudeBits signBit
    simp only [Nat.pow_eq, decide_eq_true_eq]
    split <;> omega
  rw [hsum]
  obtain ⟨bits⟩ := x
  simp [ofNatBits]

lemma magnitudeBits_ofNatBits (hb : b ≤ infinityBits) : (ofNatBits b).magnitudeBits = b := by
  have hlt := infinityBits_lt
  unfold magnitudeBits
  rw [toNat_bits_ofNatBits (by unfold signBit at hlt; simp only [Nat.pow_eq] at hlt; omega)]
  exact Nat.mod_eq_of_lt (hb.trans_lt hlt)

/-- The quotient of two numbers, the first not the larger one, is finite. -/
lemma isFinite_ofRatio (hden : 0 < den) (h : num ≤ den) :
    (ofRatio false num den).isFinite = true := by
  have hlt : nearestBits num den < infinityBits := nearestBits_lt_of_le hden h
  have heq : ofRatio false num den = ofNatBits (nearestBits num den) := by simp [ofRatio]
  rw [heq, isFinite, magnitudeBits_ofNatBits hlt.le, decide_eq_true_eq]
  exact hlt

/-- The pattern of a magnitude is made up of its scale and its significand. -/
lemma scale_significand (x : Binary64) : x.scale * 2 ^ 52 + x.significand = x.magnitudeBits := by
  unfold scale significand
  simp only [Nat.pow_eq]
  split <;> omega

lemma significand_lt (x : Binary64) : x.significand < 2 ^ 53 := by
  unfold significand
  simp only [Nat.pow_eq]
  split <;> omega

lemma scale_eq_zero_or (x : Binary64) : x.scale = 0 ∨ 2 ^ 52 ≤ x.significand := by
  unfold scale significand
  simp only [Nat.pow_eq]
  split <;> omega

end Recital.Binary64

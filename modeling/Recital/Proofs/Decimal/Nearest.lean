import Mathlib.Algebra.Order.Field.Power
import Mathlib.Data.Rat.Cast.Order
import Mathlib.Tactic.Linarith
import Mathlib.Tactic.FieldSimp
import Recital.Proofs.Decimal.Shortest

/-!
# The nearest number

Which number is the nearest to a quantity is said here without computing it (`Binary64.IsNearest`):
no number is nearer, and where another one is as near, the one with the even pattern is taken.
Infinity counts as the power of two that would follow the greatest finite number, so a quantity that
is nearer to that power than to any finite number rounds to infinity.

Patterns are in the order of the numbers that they stand for, so only the two patterns around a
quantity have to be compared with it (`Binary64.isNearest_of_neighbours`), and these have the same
scale.
-/

namespace Recital.Binary64

variable {b c m s num den d : Nat} {v : ℚ} {e : Int}

/-- The magnitude that a pattern without sign stands for. -/
def magnitudeOf (b : Nat) : ℚ := (ofNatBits b).numerator / denominator

/-- The pattern is that of the number nearest to a quantity which is not negative. -/
structure IsNearest (v : ℚ) (b : Nat) : Prop where
  le : b ≤ infinityBits
  nearest : ∀ c ≤ infinityBits, |v - magnitudeOf b| ≤ |v - magnitudeOf c|
  even : ∀ c ≤ infinityBits, c ≠ b → |v - magnitudeOf c| = |v - magnitudeOf b| → Even b

/-! ### The order of patterns -/

/-- The magnitude of a given significand and scale. -/
lemma numerator_ofNatBits (hm : m ≤ 2 ^ 53) (hs : s = 0 ∨ 2 ^ 52 ≤ m)
    (hle : s * 2 ^ 52 + m ≤ infinityBits) :
    (ofNatBits (s * 2 ^ 52 + m)).numerator = m * 2 ^ s := by
  have hmagnitude := magnitudeBits_ofNatBits hle
  unfold numerator significand scale
  rw [hmagnitude]
  simp only [Nat.pow_eq]
  rcases Nat.lt_or_eq_of_le hm with hlt | rfl
  · rcases Nat.lt_or_ge m (2 ^ 52) with hsmall | hlarge
    · obtain rfl : s = 0 := hs.resolve_right (Nat.not_le_of_lt hsmall)
      have hexponent : (0 * 2 ^ 52 + m) / 2 ^ 52 = 0 := by omega
      have hfraction : (0 * 2 ^ 52 + m) % 2 ^ 52 = m := by omega
      rw [hexponent, hfraction, if_pos rfl]
    · have hexponent : (s * 2 ^ 52 + m) / 2 ^ 52 = s + 1 := by omega
      have hfraction : 2 ^ 52 + (s * 2 ^ 52 + m) % 2 ^ 52 = m := by omega
      rw [hexponent, hfraction, if_neg (Nat.succ_ne_zero s), Nat.add_sub_cancel]
  · -- The significand has run over into the next scale.
    have hexponent : (s * 2 ^ 52 + 2 ^ 53) / 2 ^ 52 = s + 2 := by omega
    have hfraction : (s * 2 ^ 52 + 2 ^ 53) % 2 ^ 52 = 0 := by omega
    rw [hexponent, hfraction, if_neg (by omega)]
    have hscale : s + 2 - 1 = s + 1 := rfl
    rw [hscale]
    ring

/-- Every pattern has a scale and a significand. -/
lemma exists_scale (hb : b ≤ infinityBits) :
    ∃ s m, b = s * 2 ^ 52 + m ∧ m < 2 ^ 53 ∧ (s = 0 ∨ 2 ^ 52 ≤ m) := by
  refine ⟨(ofNatBits b).scale, (ofNatBits b).significand, ?_, significand_lt _, scale_eq_zero_or _⟩
  rw [scale_significand, magnitudeBits_ofNatBits hb]

lemma magnitudeOf_scale (hm : m ≤ 2 ^ 53) (hs : s = 0 ∨ 2 ^ 52 ≤ m)
    (hle : s * 2 ^ 52 + m ≤ infinityBits) :
    magnitudeOf (s * 2 ^ 52 + m) = m * 2 ^ s / denominator := by
  rw [magnitudeOf, numerator_ofNatBits hm hs hle]
  push_cast
  rfl

lemma denominator_cast_pos : (0 : ℚ) < denominator := by exact_mod_cast denominator_pos

/-- The next pattern stands for a larger number. -/
lemma magnitudeOf_lt_succ (hb : b < infinityBits) : magnitudeOf b < magnitudeOf (b + 1) := by
  obtain ⟨s, m, rfl, hm, hs⟩ := exists_scale hb.le
  have hnext : s * 2 ^ 52 + m + 1 = s * 2 ^ 52 + (m + 1) := Nat.add_assoc _ _ _
  have hsnext : s = 0 ∨ 2 ^ 52 ≤ m + 1 := hs.imp_right Nat.le_succ_of_le
  rw [hnext, magnitudeOf_scale hm.le hs hb.le, magnitudeOf_scale hm hsnext hb]
  have hunit : (0 : ℚ) < 2 ^ s := by positivity
  refine div_lt_div_of_pos_right ?_ denominator_cast_pos
  push_cast
  linarith

lemma magnitudeOf_lt (h : b < c) (hc : c ≤ infinityBits) : magnitudeOf b < magnitudeOf c := by
  induction c, h using Nat.le_induction with
  | base => exact magnitudeOf_lt_succ hc
  | succ c hle ih => exact (ih (Nat.le_of_succ_le hc)).trans (magnitudeOf_lt_succ hc)

lemma magnitudeOf_le (h : b ≤ c) (hc : c ≤ infinityBits) : magnitudeOf b ≤ magnitudeOf c := by
  rcases Nat.lt_or_eq_of_le h with hlt | rfl
  · exact (magnitudeOf_lt hlt hc).le
  · exact le_refl _

@[simp] lemma magnitudeOf_zero : magnitudeOf 0 = 0 := by
  have hzero : (ofNatBits 0).numerator = 0 := by decide +kernel
  rw [magnitudeOf, hzero, Nat.cast_zero, zero_div]

/-! ### What is nearest -/

/-- There is one nearest number at most. -/
lemma IsNearest.unique (hb : IsNearest v b) (hc : IsNearest v c) : b = c := by
  have hdistance : |v - magnitudeOf b| = |v - magnitudeOf c| :=
    le_antisymm (hb.nearest c hc.le) (hc.nearest b hb.le)
  by_contra hne
  wlog hlt : b < c generalizing b c
  · exact this hc hb hdistance.symm (Ne.symm hne) (by omega)
  -- Between two even patterns there is another one, which is nearer than both.
  obtain ⟨i, hi⟩ := hb.even c hc.le (Ne.symm hne) hdistance.symm
  obtain ⟨j, hj⟩ := hc.even b hb.le hne hdistance
  have hbelow : magnitudeOf b < magnitudeOf (b + 1) :=
    magnitudeOf_lt (Nat.lt_succ_self b) (by have := hc.le; omega)
  have habove : magnitudeOf (b + 1) < magnitudeOf c := magnitudeOf_lt (by omega) hc.le
  have hmiddle : v - magnitudeOf b = magnitudeOf c - v := by
    rcases abs_eq_abs.mp hdistance with heq | heq
    · linarith
    · linarith
  have hnearer := hb.nearest (b + 1) (by have := hc.le; omega)
  rw [abs_of_pos (by linarith : 0 < v - magnitudeOf b)] at hnearer
  have hless : |v - magnitudeOf (b + 1)| < v - magnitudeOf b :=
    abs_lt.mpr ⟨by linarith, by linarith⟩
  linarith

/-- Only the two patterns around a quantity matter. -/
lemma isNearest_of_neighbours {f : Nat} (hf : f < infinityBits) (hbelow : magnitudeOf f ≤ v)
    (habove : v < magnitudeOf (f + 1))
    (hb : b = f ∧ v - magnitudeOf f ≤ magnitudeOf (f + 1) - v ∨
      b = f + 1 ∧ magnitudeOf (f + 1) - v ≤ v - magnitudeOf f)
    (heven : v - magnitudeOf f = magnitudeOf (f + 1) - v → Even b) : IsNearest v b := by
  have hdistance : |v - magnitudeOf b| ≤ v - magnitudeOf f ∧
      |v - magnitudeOf b| ≤ magnitudeOf (f + 1) - v := by
    rcases hb with ⟨rfl, hle⟩ | ⟨rfl, hle⟩
    · rw [abs_of_nonneg (sub_nonneg.mpr hbelow)]
      exact ⟨le_refl _, hle⟩
    · rw [abs_of_neg (sub_neg.mpr habove), neg_sub]
      exact ⟨hle, le_refl _⟩
  have hside : ∀ c ≤ infinityBits, c ≤ f ∧ v - magnitudeOf f ≤ |v - magnitudeOf c| ∨
      f + 1 ≤ c ∧ magnitudeOf (f + 1) - v ≤ |v - magnitudeOf c| := by
    intro c hc
    rcases Nat.lt_or_ge f c with hlt | hle
    · have hmagnitude := magnitudeOf_le hlt hc
      refine .inr ⟨hlt, ?_⟩
      rw [abs_sub_comm, abs_of_nonneg (by linarith)]
      linarith
    · have hmagnitude := magnitudeOf_le hle hf.le
      refine .inl ⟨hle, ?_⟩
      rw [abs_of_nonneg (by linarith)]
      linarith
  refine ⟨by omega, fun c hc => ?_, fun c hc hne heq => heven ?_⟩
  · rcases hside c hc with ⟨-, hle⟩ | ⟨-, hle⟩
    · exact hdistance.1.trans hle
    · exact hdistance.2.trans hle
  · rcases hb with ⟨rfl, hle⟩ | ⟨rfl, hle⟩
    · rw [abs_of_nonneg (sub_nonneg.mpr hbelow)] at heq
      rcases hside c hc with ⟨hcle, -⟩ | ⟨-, hfar⟩
      · have hmagnitude := magnitudeOf_lt (lt_of_le_of_ne hcle hne) hf.le
        rw [abs_of_nonneg (by linarith)] at heq
        linarith
      · linarith
    · rw [abs_of_neg (sub_neg.mpr habove), neg_sub] at heq
      rcases hside c hc with ⟨-, hfar⟩ | ⟨hcle, -⟩
      · linarith
      · have hmagnitude := magnitudeOf_lt (lt_of_le_of_ne hcle (Ne.symm hne)) hc
        rw [abs_sub_comm, abs_of_nonneg (by linarith)] at heq
        linarith

/-- Quantities beyond all finite numbers round to infinity. -/
lemma isNearest_infinity (h : magnitudeOf infinityBits ≤ v) : IsNearest v infinityBits := by
  have hdistance : ∀ c ≤ infinityBits, |v - magnitudeOf c| = v - magnitudeOf c := fun c hc =>
    abs_of_nonneg (sub_nonneg.mpr ((magnitudeOf_le hc (Nat.le_refl _)).trans h))
  refine ⟨Nat.le_refl _, fun c hc => ?_, fun c hc hne heq => ?_⟩
  · rw [hdistance c hc, hdistance _ (Nat.le_refl _)]
    have hmagnitude := magnitudeOf_le hc (Nat.le_refl _)
    linarith
  · rw [hdistance c hc, hdistance _ (Nat.le_refl _)] at heq
    have hmagnitude := magnitudeOf_lt (lt_of_le_of_ne hc hne) (Nat.le_refl _)
    linarith

/-- Quantities of less than half of the least number round to zero. -/
lemma isNearest_zero (hpos : 0 ≤ v) (h : 2 * v < magnitudeOf 1) : IsNearest v 0 := by
  have hbelow : magnitudeOf 0 ≤ v := by
    rw [magnitudeOf_zero]
    exact hpos
  have habove : v < magnitudeOf (0 + 1) := by linarith
  refine isNearest_of_neighbours (by decide) hbelow habove (.inl ⟨rfl, ?_⟩) fun _ => ⟨0, rfl⟩
  rw [magnitudeOf_zero]
  linarith

/-! ### Rounding finds it -/

/-- A quotient that is rounded to infinity by its scale is that large. -/
lemma magnitudeOf_infinity_le (hs : s = 0 ∨ 2 ^ 52 ≤ m) (hm : m < 2 ^ 53)
    (hlarge : infinityBits ≤ s * 2 ^ 52 + m) :
    magnitudeOf infinityBits ≤ m * 2 ^ s / denominator := by
  have hinfinity : infinityBits = 2046 * 2 ^ 52 + 2 ^ 52 := rfl
  have hscale : 2046 ≤ s := by omega
  have hleast : 2 ^ 52 ≤ m := hs.resolve_left (by omega)
  obtain ⟨k, hk⟩ : ∃ k, k = 2046 := ⟨_, rfl⟩
  have hvalue : magnitudeOf infinityBits = (2 ^ 52 : ℕ) * 2 ^ k / denominator := by
    rw [hinfinity, hk]
    exact magnitudeOf_scale (Nat.pow_le_pow_right Nat.two_pos (Nat.le_succ 52))
      (.inr (Nat.le_refl _)) (Nat.le_refl _)
  rw [hvalue]
  refine div_le_div_of_nonneg_right ?_ denominator_cast_pos.le
  have hpow : (2 : ℚ) ^ k ≤ 2 ^ s := pow_le_pow_right₀ one_le_two (hk ▸ hscale)
  have hcast : ((2 ^ 52 : ℕ) : ℚ) ≤ m := by exact_mod_cast hleast
  exact mul_le_mul hcast hpow (by positivity) (by positivity)

/-- An integer next to the quotient is taken, and no other one is nearer. -/
lemma roundDiv_cases (num den : Nat) :
    roundDiv num den = num / den ∧ 2 * (num % den) ≤ den ∨
      roundDiv num den = num / den + 1 ∧ den ≤ 2 * (num % den) := by
  unfold roundDiv
  dsimp only
  split
  · next hless => exact .inl ⟨rfl, hless.le⟩
  · next hle =>
    split
    · next hmore => exact .inr ⟨rfl, hmore.le⟩
    · next hge =>
      rcases Nat.mod_two_eq_zero_or_one (num / den) with hparity | hparity
      · rw [hparity]
        exact .inl ⟨rfl, Nat.le_of_not_lt hge⟩
      · rw [hparity]
        exact .inr ⟨rfl, Nat.le_of_not_lt hle⟩

lemma even_roundDiv (h : 2 * (num % den) = den) : Even (roundDiv num den) := by
  unfold roundDiv
  dsimp only
  rw [if_neg (by omega), if_neg (by omega), Nat.even_iff]
  omega

/-- A quantity is a multiple of some small quantity, and so is the last place at the scale. -/
structure IsMeasured (v : ℚ) (s n unit : Nat) (w : ℚ) : Prop where
  pos : 0 < w
  unit_pos : 0 < unit
  quantity : v = n * w
  place : (2 : ℚ) ^ s / denominator = unit * w

section Measured

variable {n unit : Nat} {w : ℚ} (h : IsMeasured v s n unit w) (hq : n / unit < 2 ^ 53)
  (hsq : s = 0 ∨ 2 ^ 52 ≤ n / unit)

include h

lemma IsMeasured.magnitudeOf_eq {k : Nat} (hk : k ≤ 2 ^ 53) (hsk : s = 0 ∨ 2 ^ 52 ≤ k)
    (hle : s * 2 ^ 52 + k ≤ infinityBits) : magnitudeOf (s * 2 ^ 52 + k) = k * unit * w := by
  rw [magnitudeOf_scale hk hsk hle, mul_div_assoc, h.place, mul_assoc]

lemma IsMeasured.quantity_eq : v = (n / unit : ℕ) * unit * w + (n % unit : ℕ) * w := by
  have hnat : (n : ℚ) = (n / unit : ℕ) * unit + (n % unit : ℕ) := by
    exact_mod_cast (Nat.div_add_mod' n unit).symm
  rw [h.quantity, ← add_mul, ← hnat]

include hq hsq

/-- The integer next to the quantity at the scale belongs to the nearest number. -/
lemma IsMeasured.isNearest (hfinite : s * 2 ^ 52 + n / unit < infinityBits) :
    IsNearest v (s * 2 ^ 52 + roundDiv n unit) := by
  have hmod : ((n % unit : ℕ) : ℚ) < unit := by exact_mod_cast Nat.mod_lt n h.unit_pos
  have hbelow := h.magnitudeOf_eq hq.le hsq hfinite.le
  have habove : magnitudeOf (s * 2 ^ 52 + n / unit + 1) = ((n / unit : ℕ) + 1) * unit * w := by
    rw [Nat.add_assoc, h.magnitudeOf_eq hq (hsq.imp_right Nat.le_succ_of_le) hfinite]
    push_cast
    rfl
  have hlower : v - magnitudeOf (s * 2 ^ 52 + n / unit) = (n % unit : ℕ) * w := by
    rw [hbelow, h.quantity_eq]
    ring
  have hupper : magnitudeOf (s * 2 ^ 52 + n / unit + 1) - v = (unit - (n % unit : ℕ)) * w := by
    rw [habove, h.quantity_eq]
    ring
  have hlower_pos : 0 ≤ ((n % unit : ℕ) : ℚ) * w := mul_nonneg (Nat.cast_nonneg _) h.pos.le
  have hupper_pos : 0 < (unit - ((n % unit : ℕ) : ℚ)) * w := mul_pos (sub_pos.mpr hmod) h.pos
  refine isNearest_of_neighbours hfinite (by linarith) (by linarith) ?_ ?_
  · rw [hlower, hupper]
    rcases roundDiv_cases n unit with ⟨hround, hle⟩ | ⟨hround, hle⟩
    · have hcast : 2 * ((n % unit : ℕ) : ℚ) ≤ unit := by exact_mod_cast hle
      rw [hround]
      exact .inl ⟨rfl, mul_le_mul_of_nonneg_right (by linarith) h.pos.le⟩
    · have hcast : (unit : ℚ) ≤ 2 * (n % unit : ℕ) := by exact_mod_cast hle
      rw [hround]
      exact .inr ⟨(Nat.add_assoc _ _ _).symm, mul_le_mul_of_nonneg_right (by linarith) h.pos.le⟩
  · intro heq
    rw [hlower, hupper] at heq
    have hcancel := mul_right_cancel₀ h.pos.ne' heq
    have hhalf : 2 * ((n % unit : ℕ) : ℚ) = unit := by linarith
    have heven : Even (s * 2 ^ 52) := ⟨s * 2 ^ 51, by ring⟩
    exact heven.add (even_roundDiv (by exact_mod_cast hhalf))

/-- Where the integer belongs to no finite number, infinity is nearest. -/
lemma IsMeasured.isNearest_infinity (hlarge : infinityBits ≤ s * 2 ^ 52 + n / unit) :
    IsNearest v infinityBits := by
  refine Binary64.isNearest_infinity ((magnitudeOf_infinity_le hsq hq hlarge).trans ?_)
  have hrest : 0 ≤ ((n % unit : ℕ) : ℚ) * w := mul_nonneg (Nat.cast_nonneg _) h.pos.le
  rw [mul_div_assoc, h.place, h.quantity_eq, mul_assoc]
  linarith

end Measured

/-- The quotient of two natural numbers is rounded to the nearest number. -/
theorem isNearest_nearestBits (num : Nat) (hden : 0 < den) :
    IsNearest (num / den) (nearestBits num den) := by
  rcases Nat.eq_zero_or_pos num with rfl | hnum
  · have hone : magnitudeOf 0 < magnitudeOf (0 + 1) := magnitudeOf_lt_succ (by decide)
    rw [magnitudeOf_zero] at hone
    rw [nearestBits_zero, Nat.cast_zero, zero_div]
    exact isNearest_zero (le_refl 0) (by rwa [mul_zero])
  have hs : IsScale num den (chosenScale num den) := isScale_chosenScale hnum hden
  generalize chosenScale num den = s at hs
  have hunit : 0 < den * 2 ^ s := Nat.mul_pos hden (Nat.two_pow_pos s)
  have hdenq : (0 : ℚ) < den := by exact_mod_cast hden
  have hmeasured : IsMeasured (num / den) s (num * denominator) (den * 2 ^ s)
      (1 / (den * denominator)) := by
    have hne : (denominator : ℚ) ≠ 0 := denominator_cast_pos.ne'
    refine ⟨one_div_pos.mpr (mul_pos hdenq denominator_cast_pos), hunit, ?_, ?_⟩
    · push_cast
      field_simp
    · push_cast
      field_simp
  have hq : num * denominator / (den * 2 ^ s) < 2 ^ 53 := (Nat.div_lt_iff_lt_mul hunit).mpr hs.lt
  have hsq : s = 0 ∨ 2 ^ 52 ≤ num * denominator / (den * 2 ^ s) :=
    hs.le.imp_right (Nat.le_div_iff_mul_le hunit).mpr
  have hround := roundDiv_cases (num * denominator) (den * 2 ^ s)
  rw [nearestBits_eq hnum hden hs]
  rcases Nat.lt_or_ge (s * 2 ^ 52 + num * denominator / (den * 2 ^ s)) infinityBits with
    hfinite | hlarge
  · rw [Nat.min_eq_left (by omega)]
    exact hmeasured.isNearest hq hsq hfinite
  · rw [Nat.min_eq_right (by omega)]
    exact hmeasured.isNearest_infinity hq hsq hlarge

/-! ### Decimals -/

lemma magnitudeOf_one : magnitudeOf 1 = 1 / denominator := by
  have hone := magnitudeOf_scale (s := 0) (m := 1) (by decide) (.inl rfl) (by decide)
  rwa [Nat.zero_mul, Nat.zero_add, Nat.cast_one, pow_zero, mul_one] at hone

/-- Decimals with so few places are less than half of the least number. -/
lemma decimal_lt_of_places {places : Int} (h : places < -400) :
    2 * (10 : ℚ) ^ places < magnitudeOf 1 := by
  obtain ⟨k, hk⟩ : ∃ k, k = 1074 := ⟨_, rfl⟩
  obtain ⟨n, hn⟩ : ∃ n, n = 400 := ⟨_, rfl⟩
  have hpow : (2 : ℚ) * 2 ^ k ≤ 10 ^ n := by
    have hnat : 2 ^ (k + 1) ≤ 10 ^ n := Decimal.two_pow_le_ten_pow (by omega)
    rw [← pow_succ']
    exact_mod_cast hnat
  have hten : (10 : ℚ) ^ places ≤ 1 / 10 ^ (n + 1) := by
    rw [one_div, ← zpow_natCast, ← zpow_neg]
    exact zpow_le_zpow_right₀ (by norm_num) (by push_cast; omega)
  have hdenominator : ((denominator : ℕ) : ℚ) = 2 ^ k := by
    rw [denominator_eq hk]
    push_cast
    rfl
  rw [magnitudeOf_one, hdenominator, lt_div_iff₀ (by positivity)]
  calc 2 * (10 : ℚ) ^ places * 2 ^ k = (10 : ℚ) ^ places * (2 * 2 ^ k) := by ring
    _ ≤ 1 / 10 ^ (n + 1) * 10 ^ n :=
      mul_le_mul hten hpow (by positivity) (one_div_pos.mpr (pow_pos (by norm_num) _)).le
    _ = 1 / 10 := by
      rw [pow_succ]
      field_simp
    _ < 1 := by norm_num

/-- Decimals with so many places are beyond all finite numbers. -/
lemma le_decimal_of_places {places : Int} (h : 400 < places) :
    magnitudeOf infinityBits ≤ (10 : ℚ) ^ (places - 1) := by
  obtain ⟨k, hk⟩ : ∃ k, k = 1074 := ⟨_, rfl⟩
  obtain ⟨l, hl⟩ : ∃ l, l = 2046 := ⟨_, rfl⟩
  obtain ⟨i, hi⟩ : ∃ i, i = 1024 := ⟨_, rfl⟩
  obtain ⟨n, hn⟩ : ∃ n, n = 400 := ⟨_, rfl⟩
  have hpow : (2 : ℚ) ^ i ≤ 10 ^ n := by
    have hnat : 2 ^ i ≤ 10 ^ n := Decimal.two_pow_le_ten_pow (by omega)
    exact_mod_cast hnat
  have hvalue : magnitudeOf infinityBits = 2 ^ i := by
    have hinfinity : infinityBits = l * 2 ^ 52 + 2 ^ 52 := by
      rw [hl]
      rfl
    have hexponents : 52 + l = i + k := by omega
    rw [hinfinity, magnitudeOf_scale (Nat.pow_le_pow_right Nat.two_pos (Nat.le_succ 52))
      (.inr (Nat.le_refl _)) hinfinity.ge, div_eq_iff denominator_cast_pos.ne', denominator_eq hk]
    have hpowers : 2 ^ 52 * 2 ^ l = 2 ^ i * 2 ^ k := by rw [← pow_add, ← pow_add, hexponents]
    exact_mod_cast hpowers
  have hten : (10 : ℚ) ^ n ≤ 10 ^ (places - 1) := by
    rw [← zpow_natCast]
    exact zpow_le_zpow_right₀ (by norm_num) (by omega)
  rw [hvalue]
  exact hpow.trans hten

/-- A decimal is read as the nearest number. -/
theorem isNearest_decimalBits (d : Nat) (e : Int) :
    IsNearest (d * (10 : ℚ) ^ e) (decimalBits d e) := by
  have hten : (0 : ℚ) < 10 ^ e := by positivity
  have hpos : 0 ≤ (d : ℚ) * 10 ^ e := mul_nonneg (Nat.cast_nonneg d) hten.le
  unfold decimalBits
  dsimp only
  split
  · next hsmall =>
    refine isNearest_zero hpos ?_
    rcases hsmall with rfl | hplaces
    · rw [Nat.cast_zero, zero_mul, mul_zero, magnitudeOf_one]
      exact one_div_pos.mpr denominator_cast_pos
    · refine lt_of_le_of_lt ?_ (decimal_lt_of_places hplaces)
      have hlt : (d : ℚ) ≤ 10 ^ (Text.decimalDigits d).length := by
        exact_mod_cast (Text.lt_pow_length d).le
      rw [zpow_add₀ (by norm_num), zpow_natCast]
      gcongr
  · split
    · next hnot hplaces =>
      have hd : 0 < d := Nat.pos_of_ne_zero fun hzero => hnot (.inl hzero)
      refine isNearest_infinity ((le_decimal_of_places hplaces).trans ?_)
      have hlength : 0 < (Text.decimalDigits d).length := Nat.length_toDigits_pos
      have hsum : ((Text.decimalDigits d).length : Int) + e - 1 =
          ((Text.decimalDigits d).length - 1 : Nat) + e := by omega
      have hle : (10 : ℚ) ^ ((Text.decimalDigits d).length - 1) ≤ d := by
        exact_mod_cast Text.pow_length_le hd
      rw [hsum, zpow_add₀ (by norm_num), zpow_natCast]
      gcongr
    · have hpower : 0 < 10 ^ (-e).toNat := Nat.pow_pos (by decide)
      have hnearest := isNearest_nearestBits (d * 10 ^ e.toNat) hpower
      have hvalue : ((d * 10 ^ e.toNat : ℕ) : ℚ) / (10 ^ (-e).toNat : ℕ) = d * 10 ^ e := by
        have hexponent : e = (e.toNat : Int) - ((-e).toNat : Int) := by omega
        conv_rhs => rw [hexponent, zpow_sub₀ (by norm_num), zpow_natCast, zpow_natCast]
        push_cast
        rw [mul_div_assoc]
      rwa [hvalue] at hnearest

end Recital.Binary64

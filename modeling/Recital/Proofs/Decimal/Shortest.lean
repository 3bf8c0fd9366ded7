import Recital.Decimal.Shortest
import Recital.Proofs.Decimal.Rounding

/-!
# Shortest decimals read back

The search for the shortest decimal of a number tries ever finer grids, and takes a decimal only if
it reads back as the number.  It comes to an end in time, since on the grid of seventeen digits the
nearer neighbour is always close enough (`Decimal.isSome_onGrid`).
-/

namespace Recital

namespace Text

variable {n k : Nat}

lemma length_decimalDigits_mul (hn : 0 < n) (k : Nat) :
    (decimalDigits (n * 10 ^ k)).length = (decimalDigits n).length + k := by
  induction k with
  | zero => rw [Nat.pow_zero, Nat.mul_one, Nat.add_zero]
  | succ k ih =>
    have hpos : 0 < n * 10 ^ k := Nat.mul_pos hn (Nat.pow_pos (by decide))
    have happend := Nat.toDigits_append_toDigits (b := 10) (by decide) hpos (d := 0) (by decide)
    have hnext : n * 10 ^ (k + 1) = 10 * (n * 10 ^ k) + 0 := by ring
    unfold decimalDigits at ih ⊢
    rw [hnext, ← happend, List.length_append, ih, Nat.toDigits_zero]
    rfl

lemma length_decimalDigits_le (hk : 0 < k) (h : n < 10 ^ k) : (decimalDigits n).length ≤ k :=
  (Nat.length_toDigits_le_iff (by decide) hk).mpr h

lemma lt_pow_length (n : Nat) : n < 10 ^ (decimalDigits n).length :=
  (Nat.length_toDigits_le_iff (by decide) Nat.length_toDigits_pos).mp (Nat.le_refl _)

lemma pow_length_le (hn : 0 < n) : 10 ^ ((decimalDigits n).length - 1) ≤ n := by
  by_contra hlt
  rcases Nat.eq_zero_or_pos ((decimalDigits n).length - 1) with hzero | hpos
  · rw [hzero] at hlt
    omega
  · have hle := length_decimalDigits_le hpos (Nat.lt_of_not_le hlt)
    omega

end Text

namespace Binary64

variable {d k : Nat} {e : Int}

/-! ### The patterns of decimals -/

/-- The magnitude pattern nearest to a decimal. -/
def decimalBits (digits : Nat) (exponent : Int) : Nat :=
  let places : Int := (Text.decimalDigits digits).length + exponent
  if digits = 0 ∨ places < -400 then 0
  else if 400 < places then infinityBits
  else nearestBits (digits * 10 ^ exponent.toNat) (10 ^ (-exponent).toNat)

lemma ofDecimal_eq (negative : Bool) (d : Nat) (e : Int) : ofDecimal negative d e =
    ofNatBits ((if negative then signBit else 0) + decimalBits d e) := by
  unfold ofDecimal decimalBits ofRatio
  dsimp only
  split
  · rw [Nat.add_zero]
  · split
    · rfl
    · split
      · next hexponent =>
        rw [Int.toNat_eq_zero.mpr (Int.neg_nonpos_of_nonneg hexponent), Nat.pow_zero]
        rfl
      · next hexponent =>
        rw [Int.toNat_eq_zero.mpr (Int.le_of_lt (Int.not_le.mp hexponent)), Nat.pow_zero,
          Nat.mul_one]
        rfl

@[simp] lemma decimalBits_zero (e : Int) : decimalBits 0 e = 0 := by
  unfold decimalBits
  dsimp only
  exact if_pos (Or.inl rfl)

lemma decimalBits_le (d : Nat) (e : Int) : decimalBits d e ≤ infinityBits := by
  unfold decimalBits
  dsimp only
  split
  · exact Nat.zero_le _
  · split
    · exact Nat.le_refl _
    · exact nearestBits_le _ _

/-- Zeros at the end of the digits do not matter. -/
lemma decimalBits_shift (d k : Nat) (e : Int) :
    decimalBits (d * 10 ^ k) (e - k) = decimalBits d e := by
  rcases Nat.eq_zero_or_pos d with rfl | hd
  · rw [Nat.zero_mul, decimalBits_zero, decimalBits_zero]
  · have hpos : 0 < d * 10 ^ k := Nat.mul_pos hd (Nat.pow_pos (by decide))
    have hplaces : ((Text.decimalDigits (d * 10 ^ k)).length : Int) + (e - k) =
        (Text.decimalDigits d).length + e := by
      rw [Text.length_decimalDigits_mul hd]
      omega
    have hsame : nearestBits (d * 10 ^ k * 10 ^ (e - k).toNat) (10 ^ (-(e - k)).toNat) =
        nearestBits (d * 10 ^ e.toNat) (10 ^ (-e).toNat) := by
      refine nearestBits_congr (Nat.pow_pos (by decide)) (Nat.pow_pos (by decide)) ?_
      have hexponents : k + (e - k).toNat + (-e).toNat = e.toNat + (-(e - k)).toNat := by omega
      rw [Nat.mul_assoc, Nat.mul_assoc, Nat.mul_assoc, ← pow_add, ← pow_add, ← pow_add,
        ← hexponents, Nat.add_assoc]
    unfold decimalBits
    dsimp only
    simp only [hplaces, hsame, hpos.ne', hd.ne']

/-- A decimal on a fine enough grid is read as a number if it is its nearer neighbour. -/
lemma decimalBits_of_near {x : Binary64}
    (hfinite : x.magnitudeBits < infinityBits) (hd : 0 < d)
    (hleast : -400 ≤ ((Text.decimalDigits d).length : Int) + e)
    (hgreatest : ((Text.decimalDigits d).length : Int) + e ≤ 400)
    (habove : 2 * (d * (denominator * 10 ^ e.toNat)) ≤
      2 * (x.numerator * 10 ^ (-e).toNat) + denominator * 10 ^ e.toNat)
    (hbelow : 2 * (x.numerator * 10 ^ (-e).toNat) ≤
      2 * (d * (denominator * 10 ^ e.toNat)) + denominator * 10 ^ e.toNat)
    (hfine : denominator * 10 ^ e.toNat * 10 ^ 16 ≤ x.numerator * 10 ^ (-e).toNat) :
    decimalBits d e = x.magnitudeBits := by
  obtain ⟨grid, hgrid⟩ : ∃ grid, grid = denominator * 10 ^ e.toNat := ⟨_, rfl⟩
  obtain ⟨unit, hunit⟩ : ∃ unit, unit = 10 ^ (-e).toNat * 2 ^ x.scale := ⟨_, rfl⟩
  have hnumerator : x.numerator * 10 ^ (-e).toNat = x.significand * unit := by
    rw [hunit, numerator, Nat.pow_eq]
    ring
  rw [← hgrid, hnumerator] at habove hbelow hfine
  have hquotient : d * 10 ^ e.toNat * denominator = d * grid := by
    rw [hgrid]
    ring
  have hm : x.significand < 2 ^ 53 := x.significand_lt
  have hmul : x.significand * unit ≤ (2 ^ 53 - 1) * unit :=
    Nat.mul_le_mul_right unit (Nat.le_sub_one_of_lt hm)
  have hgrid_pos : 0 < grid := by
    rw [hgrid]
    exact Nat.mul_pos denominator_pos (Nat.pow_pos (by decide))
  have hbits : decimalBits d e = nearestBits (d * 10 ^ e.toNat) (10 ^ (-e).toNat) := by
    unfold decimalBits
    dsimp only
    rw [if_neg (by omega), if_neg (by omega)]
  rw [hbits, ← x.scale_significand]
  have htwice : (2 * x.significand + 1) * unit = 2 * (x.significand * unit) + unit := by ring
  have htwice' : 2 * x.significand * unit = 2 * (x.significand * unit) := by ring
  refine nearestBits_of_near (Nat.mul_pos hd (Nat.pow_pos (by decide))) (Nat.pow_pos (by decide)) hm
    x.scale_eq_zero_or ?_ ?_ (fun hedge => ?_) (x.scale_significand ▸ hfinite)
  · rw [← hunit, hquotient]
    omega
  · rw [← hunit, hquotient]
    omega
  · rw [← hunit, hquotient]
    rw [hedge] at habove hbelow hfine ⊢
    omega

end Binary64

namespace Decimal

open Binary64

variable {x : Binary64} {d : Scaled} {tie : Tie} {b : Nat} {e : Int}

lemma readsAs_iff (hb : b ≤ infinityBits) :
    d.readsAs (ofNatBits b) = true ↔ decimalBits d.digits d.exponent = b := by
  have hlt : ∀ {n}, n ≤ infinityBits → n < 2 ^ 64 := fun {n} hn => by
    unfold infinityBits at hn
    omega
  have hdecimal := decimalBits_le d.digits d.exponent
  unfold Scaled.readsAs
  rw [ofDecimal_eq, if_neg Bool.false_ne_true, Nat.zero_add, beq_iff_eq, ← UInt64.toNat_inj,
    toNat_bits_ofNatBits (hlt hdecimal), toNat_bits_ofNatBits (hlt hb)]

/-! ### One grid -/

lemma neighbours_eq (num den : Nat) (e : Int) : neighbours num den (-e) =
    (num * 10 ^ (-e).toNat / (den * 10 ^ e.toNat),
      compare (2 * (num * 10 ^ (-e).toNat % (den * 10 ^ e.toNat))) (den * 10 ^ e.toNat)) := by
  unfold neighbours
  simp only [Nat.pow_eq, Int.neg_neg]
  by_cases h : 0 ≤ -e
  · rw [if_pos h, if_pos h, Int.toNat_eq_zero.mpr (by omega : e ≤ 0), Nat.pow_zero, Nat.mul_one]
  · rw [if_neg h, if_neg h, Int.toNat_eq_zero.mpr (by omega : -e ≤ 0), Nat.pow_zero, Nat.mul_one]

lemma readsAs_of_onGrid (h : onGrid tie x e = some d) : d.readsAs x = true := by
  have hcandidates : ∀ first second : Scaled,
      (if first.readsAs x = true then some first
        else if second.readsAs x = true then some second else none) = some d →
      d.readsAs x = true := by
    intro first second hfound
    split at hfound
    · next hfirst => exact Option.some.inj hfound ▸ hfirst
    · split at hfound
      · next hsecond => exact Option.some.inj hfound ▸ hsecond
      · cases hfound
  exact hcandidates _ _ h

/-- On a fine grid there is a decimal that reads back. -/
lemma isSome_onGrid (hb : b < infinityBits) (hx : x = ofNatBits b)
    (hfine : denominator * 10 ^ e.toNat * 10 ^ 16 ≤ x.numerator * 10 ^ (-e).toNat)
    (hcoarse : x.numerator * 10 ^ (-e).toNat ≤ denominator * 10 ^ e.toNat * 10 ^ 17)
    (hleast : -400 ≤ e) (hgreatest : e ≤ 380) : (onGrid tie x e).isSome = true := by
  obtain ⟨grid, hgrid⟩ : ∃ grid, grid = denominator * 10 ^ e.toNat := ⟨_, rfl⟩
  obtain ⟨num, hnum⟩ : ∃ num, num = x.numerator * 10 ^ (-e).toNat := ⟨_, rfl⟩
  have hgrid_pos : 0 < grid := by
    rw [hgrid]
    exact Nat.mul_pos denominator_pos (Nat.pow_pos (by decide))
  have hmagnitude : x.magnitudeBits = b := hx ▸ magnitudeBits_ofNatBits hb.le
  have hreads : ∀ first : Nat, 2 * (first * grid) ≤ 2 * num + grid →
      2 * num ≤ 2 * (first * grid) + grid → Scaled.readsAs ⟨first, e⟩ x = true := by
    intro first habove hbelow
    have hfine' : grid * 10 ^ 16 ≤ num := by
      rw [hgrid, hnum]
      exact hfine
    have hcoarse' : num ≤ grid * 10 ^ 17 := by
      rw [hgrid, hnum]
      exact hcoarse
    have hfirst_pos : 0 < first := by
      rcases Nat.eq_zero_or_pos first with rfl | hpos
      · omega
      · exact hpos
    have hfirst_le : first ≤ 10 ^ 17 := by
      by_contra hlt
      have hmul : (10 ^ 17 + 1) * grid ≤ first * grid :=
        Nat.mul_le_mul_right grid (Nat.lt_of_not_le hlt)
      omega
    have hlength : (Text.decimalDigits first).length ≤ 18 :=
      Text.length_decimalDigits_le (by decide) (by omega)
    rw [hx, readsAs_iff hb.le, ← hmagnitude]
    dsimp only
    rw [hgrid, hnum] at habove hbelow
    exact decimalBits_of_near (hmagnitude ▸ hb) hfirst_pos (by omega) (by omega) habove hbelow hfine
  unfold onGrid
  rw [neighbours_eq, ← hgrid, ← hnum]
  dsimp only
  have hsplit := Nat.div_add_mod num grid
  have hmod := Nat.mod_lt num hgrid_pos
  generalize num / grid = low at hsplit ⊢
  generalize num % grid = rest at hsplit hmod ⊢
  have hcomm : grid * low = low * grid := Nat.mul_comm grid low
  have hnext : (low + 1) * grid = low * grid + grid := Nat.succ_mul low grid
  cases hhalf : compare (2 * rest) grid with
  | lt =>
    have hless : 2 * rest < grid := Nat.compare_eq_lt.mp hhalf
    have hfirst := hreads low (by omega) (by omega)
    simp [Tie.upper, hfirst]
  | gt =>
    have hgreater : grid < 2 * rest := Nat.compare_eq_gt.mp hhalf
    have hfirst := hreads (low + 1) (by omega) (by omega)
    simp [Tie.upper, hfirst]
  | eq =>
    have hequal : 2 * rest = grid := Nat.compare_eq_eq.mp hhalf
    have hbelow := hreads low (by omega) (by omega)
    have habove := hreads (low + 1) (by omega) (by omega)
    cases tie.upper low .eq with
    | true => simp [habove]
    | false => simp [hbelow]

/-! ### The search -/

/-- A search that comes across a decimal that reads back ends with one. -/
lemma readsAs_search {fuel i : Nat} (hi : i < fuel) (h : (onGrid tie x (e - i)).isSome = true) :
    (search tie x fuel e).readsAs x = true := by
  induction fuel generalizing e i with
  | zero => exact absurd hi (Nat.not_lt_zero i)
  | succ fuel ih =>
    unfold search
    cases hgrid : onGrid tie x e with
    | some d => exact readsAs_of_onGrid hgrid
    | none =>
      cases i with
      | zero =>
        rw [Int.ofNat_zero, Int.sub_zero, hgrid] at h
        cases h
      | succ i =>
        refine ih (Nat.lt_of_succ_lt_succ hi) ?_
        rwa [show e - 1 - (i : Int) = e - (i + 1 : Nat) by omega]

/-- Both sides of a comparison are multiplied with powers of ten. -/
lemma le_of_mul_pow_le {m n i j k l : Nat} (h : m * 10 ^ i ≤ n * 10 ^ j) (heq : i + l = k + j) :
    m * 10 ^ k ≤ n * 10 ^ l := by
  refine Nat.le_of_mul_le_mul_right (c := 10 ^ j) ?_ (Nat.pow_pos (by decide))
  calc m * 10 ^ k * 10 ^ j = m * 10 ^ i * 10 ^ l := by
        rw [Nat.mul_assoc, Nat.mul_assoc, ← pow_add, ← pow_add, heq]
    _ ≤ n * 10 ^ j * 10 ^ l := Nat.mul_le_mul_right _ h
    _ = n * 10 ^ l * 10 ^ j := Nat.mul_right_comm n _ _

lemma two_pow_le_ten_pow {i n : Nat} (h : i ≤ 3 * n) : 2 ^ i ≤ 10 ^ n :=
  calc 2 ^ i ≤ 2 ^ (3 * n) := Nat.pow_le_pow_right Nat.two_pos h
    _ = (2 ^ 3) ^ n := Nat.pow_mul 2 3 n
    _ ≤ 10 ^ n := Nat.pow_le_pow_left (by decide) n

lemma numerator_pos (hpos : 0 < x.magnitudeBits) : 0 < x.numerator := by
  have hsum := x.scale_significand
  have hscale := x.scale_eq_zero_or
  unfold numerator
  exact Nat.mul_pos (by omega) (Nat.pow_pos Nat.two_pos)

/-- A finite number is less than a power of two. -/
lemma numerator_lt (hfinite : x.magnitudeBits < infinityBits) {i : Nat} (hi : i = 1024) :
    x.numerator < 2 ^ i * denominator := by
  obtain ⟨k, hk⟩ : ∃ k, k = 1074 := ⟨_, rfl⟩
  have hscale : 53 + x.scale ≤ i + k := by
    have hsum := x.scale_significand
    have hleast := x.scale_eq_zero_or
    unfold infinityBits at hfinite
    omega
  calc x.numerator < 2 ^ 53 * 2 ^ x.scale :=
        Nat.mul_lt_mul_of_pos_right x.significand_lt (Nat.pow_pos Nat.two_pos)
    _ = 2 ^ (53 + x.scale) := (pow_add 2 53 x.scale).symm
    _ ≤ 2 ^ (i + k) := Nat.pow_le_pow_right Nat.two_pos hscale
    _ = 2 ^ i * denominator := by rw [denominator_eq hk, pow_add]

/-- How a number compares with the powers of ten about it. -/
lemma magnitude_spec (hpos : 0 < x.magnitudeBits) (hfinite : x.magnitudeBits < infinityBits) :
    (∃ i j : Nat, denominator * 10 ^ i ≤ x.numerator * 10 ^ j ∧ (i : Int) - j = magnitude x - 1) ∧
      (∃ i j : Nat, x.numerator * 10 ^ i ≤ denominator * 10 ^ j ∧ (j : Int) - i = magnitude x) ∧
      -383 ≤ magnitude x ∧ magnitude x ≤ 397 := by
  have hnum := numerator_pos hpos
  unfold magnitude
  dsimp only
  split
  · next hwhole =>
    have hlower := Text.pow_length_le hwhole
    have hupper := Text.lt_pow_length (x.numerator / denominator)
    have hlength : (Text.decimalDigits (x.numerator / denominator)).length ≤ 342 := by
      obtain ⟨i, hi⟩ : ∃ i, i = 1024 := ⟨_, rfl⟩
      obtain ⟨n, hn⟩ : ∃ n, n = 342 := ⟨_, rfl⟩
      rw [← hn]
      refine Text.length_decimalDigits_le (by omega) ?_
      exact ((Nat.div_lt_iff_lt_mul denominator_pos).mpr (numerator_lt hfinite hi)).trans_le
        (two_pow_le_ten_pow (by omega))
    have hdigits : 0 < (Text.decimalDigits (x.numerator / denominator)).length :=
      Nat.length_toDigits_pos
    generalize (Text.decimalDigits (x.numerator / denominator)).length = k at *
    refine ⟨⟨k - 1, 0, ?_, by omega⟩, ⟨0, k, ?_, by omega⟩, by omega, by omega⟩
    · rw [Nat.pow_zero, Nat.mul_one]
      exact (Nat.mul_le_mul_left _ hlower).trans (Nat.mul_div_le _ _)
    · rw [Nat.pow_zero, Nat.mul_one, Nat.mul_comm denominator]
      exact ((Nat.div_lt_iff_lt_mul denominator_pos).mp hupper).le
  · next hwhole =>
    have hless : x.numerator < denominator := by
      by_contra hle
      exact hwhole (Nat.div_pos (Nat.le_of_not_lt hle) denominator_pos)
    have hinverse : 0 < denominator / x.numerator := Nat.div_pos hless.le hnum
    have hlower := Text.pow_length_le hinverse
    have hupper := Text.lt_pow_length (denominator / x.numerator)
    have hlength : (Text.decimalDigits (denominator / x.numerator)).length ≤ 359 := by
      obtain ⟨k, hk⟩ : ∃ k, k = 1074 := ⟨_, rfl⟩
      obtain ⟨n, hn⟩ : ∃ n, n = 359 := ⟨_, rfl⟩
      rw [← hn]
      refine Text.length_decimalDigits_le (by omega) ((Nat.div_le_self _ _).trans_lt ?_)
      rw [denominator_eq hk]
      exact (Nat.pow_lt_pow_right Nat.one_lt_two (Nat.lt_succ_self k)).trans_le
        (two_pow_le_ten_pow (by omega))
    have hdigits : 0 < (Text.decimalDigits (denominator / x.numerator)).length :=
      Nat.length_toDigits_pos
    generalize (Text.decimalDigits (denominator / x.numerator)).length = k at *
    refine ⟨⟨0, k, ?_, by omega⟩, ⟨k - 1, 0, ?_, by omega⟩, by omega, by omega⟩
    · rw [Nat.pow_zero, Nat.mul_one, Nat.mul_comm]
      exact ((Nat.div_lt_iff_lt_mul hnum).mp hupper).le
    · rw [Nat.pow_zero, Nat.mul_one]
      exact (Nat.mul_le_mul_left _ hlower).trans (Nat.mul_div_le _ _)

/-- The grid of seventeen digits is fine enough. -/
lemma readsAs_search_magnitude (hb : 0 < b) (hfinite : b < infinityBits) :
    (search tie (ofNatBits b) 18 (magnitude (ofNatBits b))).readsAs (ofNatBits b) = true := by
  obtain ⟨x, hx⟩ : ∃ x, x = ofNatBits b := ⟨_, rfl⟩
  have hmagnitude : x.magnitudeBits = b := hx ▸ magnitudeBits_ofNatBits hfinite.le
  rw [← hmagnitude] at hb
  obtain ⟨⟨i, j, hfine, hij⟩, ⟨k, l, hcoarse, hkl⟩, hleast, hgreatest⟩ :=
    magnitude_spec hb (hmagnitude ▸ hfinite)
  rw [← hx]
  refine readsAs_search (i := 17) (by decide) (isSome_onGrid hfinite hx ?_ ?_ ?_ ?_)
  · rw [Nat.mul_assoc, ← pow_add]
    exact le_of_mul_pow_le hfine (by omega)
  · rw [Nat.mul_assoc, ← pow_add]
    exact le_of_mul_pow_le hcoarse (by omega)
  · omega
  · omega

/-- Trailing zeros are taken off. -/
lemma decimalBits_strip (fuel : Nat) (d : Scaled) :
    decimalBits (d.strip fuel).digits (d.strip fuel).exponent =
      decimalBits d.digits d.exponent := by
  induction fuel generalizing d with
  | zero => rfl
  | succ fuel ih =>
    unfold Scaled.strip
    split
    · next hzero =>
      have hdigits : d.digits = d.digits / 10 * 10 ^ 1 := by omega
      rw [ih]
      dsimp only
      rw [← decimalBits_shift (d.digits / 10) 1, ← hdigits]
      congr 1
      omega
    · rfl

/-- The shortest decimal of a number reads back. -/
theorem ofDecimal_shortest (tie : Tie) (x : Binary64) (hpos : 0 < x.magnitudeBits)
    (hfinite : x.isFinite = true) :
    0 < (shortest tie (ofNatBits x.magnitudeBits)).digits ∧
      ofDecimal x.isNegative (shortest tie (ofNatBits x.magnitudeBits)).digits
        (shortest tie (ofNatBits x.magnitudeBits)).exponent = x := by
  have hlt : x.magnitudeBits < infinityBits := of_decide_eq_true hfinite
  have hbits : decimalBits (shortest tie (ofNatBits x.magnitudeBits)).digits
      (shortest tie (ofNatBits x.magnitudeBits)).exponent = x.magnitudeBits := by
    unfold shortest
    rw [decimalBits_strip]
    exact (readsAs_iff hlt.le).mp (readsAs_search_magnitude hpos hlt)
  refine ⟨Nat.pos_of_ne_zero fun hzero => ?_, ?_⟩
  · rw [hzero, decimalBits_zero] at hbits
    omega
  · rw [ofDecimal_eq, hbits, ← eq_ofNatBits]

end Decimal

end Recital

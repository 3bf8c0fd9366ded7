import Recital.Json.Printer
import Recital.Json.Reader
import Recital.Proofs.Decimal.Shortest

/-!
# Numbers read back

A number that is written is read back, whatever follows it that cannot belong to a number.  Integers
are those that a 64-bit word holds.  A real number has a decimal that reads back as it, and the text
of that decimal has a point or an exponent, so that it is not taken for an integer.
-/

namespace Recital.Json

/-- The number is one that a text can stand for: an integer in a 64-bit word, or a finite number. -/
def Number.IsProper : Number → Prop
  | .integer i => -2 ^ 63 ≤ i ∧ i < 2 ^ 64
  | .real x => x.isFinite = true

/-- The character can stand in a number behind its first digit. -/
def goesOn (c : Char) : Bool := isDigit c || c == '.' || c == 'e' || c == 'E'

/-- A number that stands in front is over. -/
def Stops (rest : List Char) : Prop := ∀ c ∈ rest.head?, goesOn c = false

variable {ds rest whole fraction cs : List Char} {c : Char} {n : Nat} {exponent : Option Int}

/-! ### Digits -/

lemma isDigit_eq (c : Char) : isDigit c = c.isDigit := by
  unfold isDigit Char.isDigit
  rfl

lemma isDigit_of_mem (h : c ∈ Text.decimalDigits n) : isDigit c = true := by
  rw [isDigit_eq]
  exact Nat.isDigit_of_mem_toDigits (by decide) (by decide) h

lemma digitsValue_decimalDigits (n : Nat) : digitsValue (Text.decimalDigits n) = n :=
  Nat.ofDigitChars_ten_toDigits

lemma digitsValue_append (ds fs : List Char) :
    digitsValue (ds ++ fs) = digitsValue ds * 10 ^ fs.length + digitsValue fs := by
  have happend : digitsValue (ds ++ fs) = Nat.ofDigitChars 10 fs (digitsValue ds) :=
    Nat.ofDigitChars_append 0
  rw [happend, Nat.ofDigitChars_eq_ofDigitChars_zero, Nat.mul_comm]
  rfl

lemma digitsValue_replicate (n : Nat) : digitsValue (List.replicate n '0') = 0 := by
  have hzeros : Nat.ofDigitChars 10 (List.replicate n '0') 0 = 10 ^ n * 0 :=
    Nat.ofDigitChars_replicate_zero
  rwa [Nat.mul_zero] at hzeros

/-- The first digit of a positive number is not zero. -/
lemma head?_decimalDigits (h : 0 < n) : (Text.decimalDigits n).head? ≠ some '0' := by
  induction n using Nat.strong_induction_on with
  | _ n ih =>
    unfold Text.decimalDigits
    rw [Nat.toDigits_eq_if (by decide)]
    split
    · next hsmall =>
      simp only [List.head?_cons, ne_eq, Option.some.injEq, Nat.digitChar_eq_zero]
      omega
    · next hlarge =>
      have hless : n / 10 < n := Nat.div_lt_self h (by decide)
      have hhead := ih (n / 10) hless (by omega)
      unfold Text.decimalDigits at hhead
      cases hdigits : Nat.toDigits 10 (n / 10) with
      | nil => exact absurd hdigits Nat.toDigits_ne_nil
      | cons c cs =>
        rw [hdigits] at hhead
        exact hhead

/-- Digits are read up to the first other character. -/
lemma readDigits1_append (hds : ∀ c ∈ ds, isDigit c = true) (hne : ds ≠ [])
    (hrest : ∀ c ∈ rest.head?, isDigit c = false) : readDigits1 (ds ++ rest) = some (ds, rest) := by
  have hnone : rest.takeWhile isDigit = [] ∧ rest.dropWhile isDigit = rest := by
    cases rest with
    | nil => exact ⟨rfl, rfl⟩
    | cons c rest => simp [hrest c rfl]
  unfold readDigits1
  rw [List.takeWhile_append_of_pos hds, List.dropWhile_append_of_pos hds, hnone.1, hnone.2,
    List.append_nil]
  cases ds with
  | nil => exact absurd rfl hne
  | cons => rfl

/-- Digits that are the integer part of a number. -/
structure IsWhole (ds : List Char) : Prop where
  digits : ∀ c ∈ ds, isDigit c = true
  ne_nil : ds ≠ []
  leading : ds = ['0'] ∨ ds.head? ≠ some '0'

lemma IsWhole.readInteger (h : IsWhole ds) (hrest : ∀ c ∈ rest.head?, isDigit c = false) :
    readInteger (ds ++ rest) = some (ds, rest) := by
  unfold Json.readInteger
  rw [readDigits1_append h.digits h.ne_nil hrest]
  simp only [bind, Option.bind_some]
  rcases h.leading with rfl | hleading
  · rfl
  · split
    · exact absurd rfl hleading
    · rfl

lemma isWhole_decimalDigits (n : Nat) : IsWhole (Text.decimalDigits n) := by
  refine ⟨fun c hc => isDigit_of_mem hc, Nat.toDigits_ne_nil, ?_⟩
  rcases Nat.eq_zero_or_pos n with rfl | hn
  · exact .inl (Nat.toDigits_zero 10)
  · exact .inr (head?_decimalDigits hn)

/-! ### The parts of a number -/

/-- The text is that of a number with the given parts. -/
structure Spells (cs whole fraction : List Char) (exponent : Option Int) (rest : List Char) :
    Prop where
  parts : ∃ behind end_, Json.readInteger cs = some (whole, behind) ∧
    readFraction behind = some (fraction, end_) ∧ readExponent end_ = some (exponent, rest)

/-- What a number is that has the given parts. -/
def assemble (negative : Bool) (whole fraction : List Char) (exponent : Option Int) :
    Option Number :=
  if fraction.isEmpty && exponent.isNone then integerNumber negative (digitsValue whole)
  else realNumber negative (digitsValue (whole ++ fraction)) (exponent.getD 0 - fraction.length)

lemma Spells.readNumber (h : Spells cs whole fraction exponent rest) (negative : Bool) :
    readNumber ((if negative then ['-'] else []) ++ cs) =
      some (assemble negative whole fraction exponent, rest) := by
  obtain ⟨behind, end_, hinteger, hfraction, hexponent⟩ := h.parts
  have hnot : ∀ r, cs ≠ '-' :: r := by
    rintro r rfl
    cases hinteger
  have hsigned :
      Json.readNumber ('-' :: cs) = some (assemble true whole fraction exponent, rest) := by
    unfold Json.readNumber
    simp only [bind, hinteger, hfraction, hexponent, Option.bind_some, assemble, pure]
  have hunsigned : Json.readNumber cs = some (assemble false whole fraction exponent, rest) := by
    unfold Json.readNumber
    split
    next sign digits heq =>
      split at heq
      · next r => exact absurd rfl (hnot r)
      · cases heq
        simp only [bind, hinteger, hfraction, hexponent, Option.bind_some, assemble, pure]
  cases negative with
  | true => exact hsigned
  | false => exact hunsigned

/-! ### Fractions and exponents -/

lemma Stops.not_isDigit (h : Stops rest) : ∀ c ∈ rest.head?, isDigit c = false := by
  intro c hc
  have hover := h c hc
  unfold goesOn at hover
  simp only [Bool.or_eq_false_iff] at hover
  exact hover.1.1.1

lemma readFraction_of_ne (h : rest.head? ≠ some '.') : readFraction rest = some ([], rest) := by
  unfold readFraction
  split
  · exact absurd rfl h
  · rfl

lemma readExponent_of_ne (h : ∀ c ∈ rest.head?, c ≠ 'e' ∧ c ≠ 'E') :
    readExponent rest = some (none, rest) := by
  cases rest with
  | nil => rfl
  | cons c rest =>
    obtain ⟨hlower, hupper⟩ := h c rfl
    exact if_neg (by simp [hlower, hupper])

lemma Stops.readFraction (h : Stops rest) : Json.readFraction rest = some ([], rest) := by
  refine readFraction_of_ne fun hpoint => ?_
  have hover := h '.' hpoint
  cases hover

lemma Stops.readExponent (h : Stops rest) : Json.readExponent rest = some (none, rest) := by
  refine readExponent_of_ne fun c hc => ?_
  have hover := h c hc
  constructor <;> rintro rfl <;> cases hover

/-- An exponent is read with its sign. -/
lemma readExponent_signed (e : Int) (h : Stops rest) :
    readExponent ('e' :: (if e < 0 then ['-'] else ['+']) ++ Text.decimalDigits e.natAbs ++ rest) =
      some (some e, rest) := by
  have hdigits : readDigits1 (Text.decimalDigits e.natAbs ++ rest) =
      some (Text.decimalDigits e.natAbs, rest) :=
    readDigits1_append (fun c hc => isDigit_of_mem hc) Nat.toDigits_ne_nil h.not_isDigit
  generalize hm : e.natAbs = m at hdigits ⊢
  by_cases hneg : e < 0
  · have hvalue : -(m : Int) = e := by omega
    simp [readExponent, hneg, hdigits, digitsValue_decimalDigits, hvalue]
  · have hvalue : (m : Int) = e := by omega
    simp [readExponent, hneg, hdigits, digitsValue_decimalDigits, hvalue]

/-! ### Decimals -/

open Binary64 Decimal

/-- The text of a decimal spells a number that is the decimal and no integer. -/
structure SpellsDecimal (cs : List Char) (d : Scaled) (rest : List Char) : Prop where
  parts : ∃ whole fraction exponent, Spells cs whole fraction exponent rest ∧
    (fraction.isEmpty && exponent.isNone) = false ∧
      decimalBits (digitsValue (whole ++ fraction)) (exponent.getD 0 - fraction.length) =
        decimalBits d.digits d.exponent

/-- Digits with a point among them. -/
lemma spells_point (hwhole : IsWhole whole) (hfraction : ∀ c ∈ fraction, isDigit c = true)
    (hne : fraction ≠ []) (hrest : Stops rest) :
    Spells (whole ++ '.' :: fraction ++ rest) whole fraction none rest := by
  refine ⟨'.' :: fraction ++ rest, rest, ?_, ?_, hrest.readExponent⟩
  · rw [List.append_assoc]
    exact hwhole.readInteger fun c hc => by cases hc; rfl
  · exact readDigits1_append hfraction hne hrest.not_isDigit

/-- The digits of a positive number, the first of which is not zero. -/
structure Writes (ds : List Char) (n : Nat) : Prop where
  digits : ∀ c ∈ ds, isDigit c = true
  ne_nil : ds ≠ []
  head : ds.head? ≠ some '0'
  value : digitsValue ds = n

lemma writes_decimalDigits {n : Nat} (hn : 0 < n) : Writes (Text.decimalDigits n) n :=
  ⟨fun _ hc => isDigit_of_mem hc, Nat.toDigits_ne_nil, head?_decimalDigits hn,
    digitsValue_decimalDigits n⟩

lemma isDigit_of_mem_zeros {n : Nat} {c : Char} (hc : c ∈ List.replicate n '0') :
    isDigit c = true := by
  rw [List.eq_of_mem_replicate hc]
  rfl

section Positional

variable {d : Scaled} {places : Nat} (h : Writes ds d.digits) (hrest : Stops rest)

include h hrest

/-- Zeros and a point behind the digits. -/
lemma spells_trailing (hexponent : d.exponent = places) :
    SpellsDecimal (ds ++ List.replicate places '0' ++ '.' :: ['0'] ++ rest) d rest := by
  have hwhole : IsWhole (ds ++ List.replicate places '0') := by
    refine ⟨fun c hc => (List.mem_append.mp hc).elim (h.digits c) isDigit_of_mem_zeros,
      List.append_ne_nil_of_left_ne_nil h.ne_nil _, .inr ?_⟩
    cases ds with
    | nil => exact absurd rfl h.ne_nil
    | cons c ds => exact h.head
  have hsum : digitsValue (ds ++ List.replicate places '0' ++ ['0']) =
      d.digits * 10 ^ (places + 1) := by
    rw [List.append_assoc, ← List.replicate_succ', digitsValue_append, digitsValue_replicate,
      List.length_replicate, h.value, Nat.add_zero]
  refine ⟨_, ['0'], none, spells_point hwhole (fun c hc => ?_) (List.cons_ne_nil _ _)
    hrest, rfl, ?_⟩
  · rw [List.mem_singleton.mp hc]
    rfl
  · rw [hsum, ← decimalBits_shift d.digits (places + 1) d.exponent, hexponent]
    congr 1
    simp

/-- The point stands among the digits. -/
lemma spells_among (hexponent : d.exponent = -places) (hpos : 0 < places)
    (hplaces : places < ds.length) :
    SpellsDecimal (ds.take (ds.length - places) ++ '.' :: ds.drop (ds.length - places) ++ rest) d
      rest := by
  have hwhole : IsWhole (ds.take (ds.length - places)) := by
    refine ⟨fun c hc => h.digits c (List.mem_of_mem_take hc), ?_, .inr ?_⟩
    · simp only [ne_eq, List.take_eq_nil_iff, not_or]
      exact ⟨by omega, h.ne_nil⟩
    · rw [List.head?_take, if_neg (by omega)]
      exact h.head
  have hbehind : ds.drop (ds.length - places) ≠ [] := by
    simp only [ne_eq, List.drop_eq_nil_iff]
    omega
  refine ⟨_, _, none, spells_point hwhole (fun c hc => h.digits c (List.mem_of_mem_drop hc)) hbehind
    hrest, by simpa using hbehind, ?_⟩
  rw [List.take_append_drop, h.value, hexponent, List.length_drop]
  congr 1
  simp only [Option.getD_none]
  omega

/-- Zeros stand between the point and the digits. -/
lemma spells_leading (hexponent : d.exponent = -places) (hplaces : ds.length ≤ places) :
    SpellsDecimal (['0'] ++ '.' :: (List.replicate (places - ds.length) '0' ++ ds) ++ rest) d
      rest := by
  have hsum : digitsValue (['0'] ++ (List.replicate (places - ds.length) '0' ++ ds)) =
      d.digits := by
    rw [← List.append_assoc, List.singleton_append, ← List.replicate_succ, digitsValue_append,
      digitsValue_replicate, h.value, Nat.zero_mul, Nat.zero_add]
  have hbehind : List.replicate (places - ds.length) '0' ++ ds ≠ [] :=
    List.append_ne_nil_of_right_ne_nil _ h.ne_nil
  refine ⟨_, _, none, spells_point (isWhole_decimalDigits 0)
    (fun c hc => (List.mem_append.mp hc).elim isDigit_of_mem_zeros (h.digits c)) hbehind hrest,
    by simp [h.ne_nil], ?_⟩
  rw [hsum, hexponent]
  congr 1
  simp only [Option.getD_none, List.length_append, List.length_replicate]
  omega

end Positional

/-- The text of a positive decimal in positional notation. -/
lemma spells_positional {d : Scaled} (hd : 0 < d.digits) (hrest : Stops rest) :
    SpellsDecimal (d.positional numberLayout ++ rest) d rest := by
  have hwrites := writes_decimalDigits hd
  unfold Scaled.positional
  dsimp only
  split
  · next hexponent =>
    exact spells_trailing hwrites hrest (Int.toNat_of_nonneg hexponent).symm
  · next hexponent =>
    have hplaces : d.exponent = -((-d.exponent).toNat : Int) := by omega
    split
    · next hamong => exact spells_among hwrites hrest hplaces (by omega) hamong
    · next hbefore => exact spells_leading hwrites hrest hplaces (Nat.le_of_not_lt hbefore)

/-- The text of a positive decimal in scientific notation. -/
lemma spells_scientific {d : Scaled} (hd : 0 < d.digits) (hrest : Stops rest) :
    SpellsDecimal (d.scientific numberLayout ++ rest) d rest := by
  obtain ⟨hdigits, hne, hhead, hvalue⟩ := writes_decimalDigits hd
  unfold Scaled.scientific
  dsimp only
  generalize Text.decimalDigits d.digits = ds at hdigits hne hhead hvalue ⊢
  have hsign : ∀ e : Int,
      (if e < 0 then ['-'] else if numberLayout.plusExponent then ['+'] else []) =
        if e < 0 then ['-'] else ['+'] := fun _ => rfl
  rw [hsign]
  cases ds with
  | nil => exact absurd rfl hne
  | cons c fs =>
    obtain ⟨e, he⟩ : ∃ e, e = d.exponent + ((c :: fs).length - 1 : Nat) := ⟨_, rfl⟩
    rw [← he]
    have hwhole : IsWhole [c] := by
      refine ⟨fun x hx => ?_, List.cons_ne_nil _ _, .inr hhead⟩
      rw [List.mem_singleton.mp hx]
      exact hdigits c List.mem_cons_self
    have hnumber : decimalBits (digitsValue ([c] ++ fs)) (e - fs.length) =
        decimalBits d.digits d.exponent := by
      rw [List.singleton_append, hvalue, he]
      congr 1
      simp only [List.length_cons, Nat.add_sub_cancel]
      omega
    refine ⟨[c], fs, some e, ?_, by simp, hnumber⟩
    cases fs with
    | nil =>
      refine ⟨'e' :: (if e < 0 then ['-'] else ['+']) ++ Text.decimalDigits e.natAbs ++ rest, _, ?_,
        readFraction_of_ne (by simp), readExponent_signed e hrest⟩
      have hread : readInteger ([c] ++ ('e' :: (if e < 0 then ['-'] else ['+']) ++
          Text.decimalDigits e.natAbs ++ rest)) = some ([c], _) :=
        hwhole.readInteger fun x hx => by cases hx; rfl
      simpa using hread
    | cons f fs =>
      have hfs : ∀ x ∈ f :: fs, isDigit x = true := fun x hx => hdigits x (.tail _ hx)
      refine ⟨'.' :: (f :: fs) ++ ('e' :: (if e < 0 then ['-'] else ['+']) ++
        Text.decimalDigits e.natAbs ++ rest), _, ?_,
        readDigits1_append hfs (List.cons_ne_nil _ _) ?_, readExponent_signed e hrest⟩
      · have hread : readInteger ([c] ++ ('.' :: (f :: fs) ++ ('e' ::
            (if e < 0 then ['-'] else ['+']) ++ Text.decimalDigits e.natAbs ++ rest))) =
            some ([c], _) :=
          hwhole.readInteger fun x hx => by cases hx; rfl
        simpa using hread
      · intro x hx
        cases hx
        rfl

lemma spells_text {d : Scaled} (hd : 0 < d.digits) (hrest : Stops rest) :
    SpellsDecimal (d.text numberLayout ++ rest) d rest := by
  unfold Scaled.text
  dsimp only
  split
  · exact spells_positional hd hrest
  · exact spells_scientific hd hrest

/-! ### Numbers -/

/-- A natural number is read from its digits. -/
lemma readNumber_digits (n : Nat) (negative : Bool) (hrest : Stops rest) :
    readNumber ((if negative then ['-'] else []) ++ (Text.decimalDigits n ++ rest)) =
      some (integerNumber negative n, rest) := by
  have hspells : Spells (Text.decimalDigits n ++ rest) (Text.decimalDigits n) [] none rest :=
    ⟨rest, rest, (isWhole_decimalDigits n).readInteger hrest.not_isDigit, hrest.readFraction,
      hrest.readExponent⟩
  rw [hspells.readNumber]
  unfold assemble
  rw [digitsValue_decimalDigits]
  rfl

/-- A zero is read with its sign. -/
lemma readNumber_zero (negative : Bool) (hrest : Stops rest) :
    readNumber ((if negative then ['-'] else []) ++ (['0', '.', '0'] ++ rest)) =
      some (realNumber negative 0 (-1), rest) := by
  have hspells : Spells (['0'] ++ '.' :: ['0'] ++ rest) ['0'] ['0'] none rest :=
    spells_point (isWhole_decimalDigits 0) (fun c hc => by rw [List.mem_singleton.mp hc]; rfl)
      (List.cons_ne_nil _ _) hrest
  exact hspells.readNumber negative

lemma realNumber_of_eq {x : Binary64} {d : Nat} {e : Int} (hx : x.isFinite = true)
    (heq : ofDecimal x.isNegative d e = x) : realNumber x.isNegative d e = some (.real x) := by
  unfold realNumber
  dsimp only
  rw [heq, if_pos hx]

/-- A finite number is read from its text. -/
lemma readNumber_real {x : Binary64} (hx : x.isFinite = true) (hrest : Stops rest) :
    readNumber ((numberLayout.render x).toList ++ rest) = some (some (.real x), rest) := by
  have hlt : x.magnitudeBits < infinityBits := of_decide_eq_true hx
  have hnan : x.isNaN = false := decide_eq_false (by omega)
  unfold Layout.render
  simp only [hnan, hx, Bool.not_true, Bool.false_eq_true, if_false]
  split
  · next hzero =>
    have heq : ofDecimal x.isNegative 0 (-1) = x := by
      rw [ofDecimal_eq, decimalBits_zero]
      exact (hzero ▸ eq_ofNatBits x).symm
    rw [String.toList_ofList, List.append_assoc, ← realNumber_of_eq hx heq]
    exact readNumber_zero x.isNegative hrest
  · next hpos =>
    obtain ⟨hdigits, heq⟩ := ofDecimal_shortest .even x (Nat.pos_of_ne_zero hpos) hx
    obtain ⟨whole, fraction, exponent, hspells, hreal, hbits⟩ := (spells_text hdigits hrest).parts
    rw [String.toList_ofList, List.append_assoc, ← realNumber_of_eq hx heq]
    refine (hspells.readNumber x.isNegative).trans ?_
    unfold assemble realNumber
    rw [hreal, if_neg Bool.false_ne_true, ofDecimal_eq, hbits, ← ofDecimal_eq]

/-- A number is read from its text. -/
lemma readNumber_render {n : Number} (hn : n.IsProper) (hrest : Stops rest) :
    readNumber (n.render ++ rest) = some (some n, rest) := by
  cases n with
  | real x =>
    have hrender : (Number.real x).render = (numberLayout.render x).toList := if_pos hn
    rw [hrender]
    exact readNumber_real hn hrest
  | integer i =>
    obtain ⟨hleast, hgreatest⟩ : -2 ^ 63 ≤ i ∧ i < 2 ^ 64 := hn
    cases i with
    | ofNat n =>
      refine (readNumber_digits n false hrest).trans ?_
      have hword : n < Nat.pow 2 64 := by
        have hcast : (n : Int) < 2 ^ 64 := hgreatest
        exact_mod_cast hcast
      unfold integerNumber
      rw [if_neg Bool.false_ne_true, if_pos hword]
      rfl
    | negSucc n =>
      refine (readNumber_digits (n + 1) true hrest).trans ?_
      have hword : ¬(n + 1 = 0 ∨ Nat.pow 2 63 < n + 1) := by
        have hpow : Nat.pow 2 63 = 9223372036854775808 := rfl
        omega
      unfold integerNumber
      rw [if_pos rfl, if_neg hword]
      rfl

end Recital.Json

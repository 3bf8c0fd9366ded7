import Recital.Proofs.Decimal.Shortest
import Recital.Proofs.Text.Numeral
import Recital.Proofs.Time.Date

/-!
# Instants read back

The text of an instant is read back part by part: a year of four digits or with a sign, then numbers
of two digits between their marks, and a fraction of a second.  An instant that is read can be
written again (`Instant.isSound_of_ofText?`).
-/

namespace Recital

namespace Text

variable {ds : List Char} {c : Char} {n width : Nat}

/-! ### Padded numbers -/

lemma isDigit_padded : ∀ c ∈ padded width n, c.isDigit = true := by
  intro c h
  rcases List.mem_append.mp h with h | h
  · rw [List.eq_of_mem_replicate h]
    rfl
  · exact Nat.isDigit_of_mem_toDigits (by decide) (by decide) h

lemma padded_ne_nil : padded width n ≠ [] :=
  List.append_ne_nil_of_right_ne_nil _ Nat.toDigits_ne_nil

/-- A padded number starts with a digit. -/
lemma exists_padded (width n : Nat) : ∃ c ds, padded width n = c :: ds ∧ c.isDigit = true := by
  cases hdigits : padded width n with
  | nil => exact absurd hdigits padded_ne_nil
  | cons c ds => exact ⟨c, ds, rfl, isDigit_padded c (hdigits ▸ List.mem_cons_self)⟩

lemma length_padded (hwidth : 0 < width) (h : n < 10 ^ width) :
    (padded width n).length = width := by
  have hle := length_decimalDigits_le hwidth h
  unfold padded
  rw [List.length_append, List.length_replicate]
  omega

lemma readNat_padded (width n : Nat) : readNat (padded width n) = some n := by
  have hvalue : Nat.ofDigitChars 10 (padded width n) 0 = n := by
    have hzeros : Nat.ofDigitChars 10 (List.replicate (width - (decimalDigits n).length) '0') 0 =
        10 ^ (width - (decimalDigits n).length) * 0 := Nat.ofDigitChars_replicate_zero
    unfold padded
    rw [Nat.ofDigitChars_append, hzeros, Nat.mul_zero]
    exact Nat.ofDigitChars_ten_toDigits
  have hread : readNat (padded width n) = readDigits 0 (padded width n) := by
    unfold readNat
    split
    · next hnil => exact absurd hnil padded_ne_nil
    · rfl
  rw [hread, readDigits_eq isDigit_padded, hvalue]

end Text

namespace Instant

open Text (padded)

variable {rest : List Char} {n width : Nat}

/-- The leading digits of a text. -/
abbrev digits (cs : List Char) : List Char := cs.takeWhile fun c => (Text.digitValue? c).isSome

lemma digits_padded (rest : List Char) :
    digits (padded width n ++ rest) = padded width n ++ digits rest :=
  List.takeWhile_append_of_pos fun c hc =>
    (Text.isSome_digitValue? c).trans (Text.isDigit_padded c hc)

lemma dropBlanks_padded (rest : List Char) :
    Text.dropBlanks (padded width n ++ rest) = padded width n ++ rest := by
  obtain ⟨c, ds, hdigits, hdigit⟩ := Text.exists_padded width n
  rw [hdigits]
  exact Text.dropBlanks_cons (Text.isBlank_of_isDigit hdigit)

/-- A padded number is read back, if the reader takes all its digits and no more. -/
lemma readNumber_of_take {w : Nat}
    (h : (digits (padded width n ++ rest)).take w = padded width n) :
    readNumber w (padded width n ++ rest) = some (n, rest) := by
  unfold readNumber
  dsimp only
  rw [dropBlanks_padded, h, Text.readNat_padded, List.drop_left]
  rfl

/-- A padded number of the full width is read back. -/
lemma readNumber_padded (hwidth : 0 < width) (hn : n < 10 ^ width) :
    readNumber width (padded width n ++ rest) = some (n, rest) := by
  refine readNumber_of_take ?_
  rw [digits_padded, List.take_left' (Text.length_padded hwidth hn)]

lemma readMark_cons {mark : Char} (h : Text.isBlank mark = false) :
    readMark mark (mark :: rest) = some rest := by
  unfold readMark
  rw [Text.dropBlanks_cons h]
  exact if_pos rfl

/-- A year behind a sign is read up to the mark behind it. -/
lemma readSigned_padded (n : Nat) : readYear.readSigned (padded 4 n ++ '-' :: rest) =
    some (n, '-' :: rest) := by
  have hread : readNumber (padded 4 n ++ '-' :: rest).length (padded 4 n ++ '-' :: rest) =
      some (n, '-' :: rest) := by
    refine readNumber_of_take ?_
    have hnone : digits ('-' :: rest) = [] := rfl
    rw [digits_padded, hnone, List.append_nil]
    exact List.take_of_length_le (by simp)
  obtain ⟨c, ds, hdigits, hdigit⟩ := Text.exists_padded 4 n
  rw [hdigits] at hread ⊢
  rw [List.cons_append, readYear.readSigned, if_pos ((Text.isSome_digitValue? c).trans hdigit)]
  exact hread

/-- A year is read back with its sign. -/
lemma readYear_yearText (y : Int) :
    readYear (yearText y ++ '-' :: rest) = some (y, '-' :: rest) := by
  unfold yearText
  split
  · next hyear =>
    have hread : readNumber 4 (padded 4 y.toNat ++ '-' :: rest) = some (y.toNat, '-' :: rest) :=
      readNumber_padded (by decide) (by omega)
    have hvalue : (y.toNat : Int) = y := by omega
    obtain ⟨c, ds, hdigits, hdigit⟩ := Text.exists_padded 4 y.toNat
    unfold readYear
    rw [dropBlanks_padded]
    rw [hdigits] at hread ⊢
    split
    · next heq =>
      rw [(List.cons.inj heq).1] at hdigit
      cases hdigit
    · next heq =>
      rw [(List.cons.inj heq).1] at hdigit
      cases hdigit
    · rw [hread, Option.map_some]
      exact congrArg (fun i => some (i, '-' :: rest)) hvalue
  · next hyear =>
    by_cases hneg : y < 0
    · have hvalue : -(y.natAbs : Int) = y := by omega
      rw [if_pos hneg]
      change (readYear.readSigned (padded 4 y.natAbs ++ '-' :: rest)).map
        (fun r => (-(r.1 : Int), r.2)) = _
      rw [readSigned_padded, Option.map_some, hvalue]
    · have hvalue : (y.natAbs : Int) = y := by omega
      rw [if_neg hneg]
      change (readYear.readSigned (padded 4 y.natAbs ++ '-' :: rest)).map
        (fun r => ((r.1 : Int), r.2)) = _
      rw [readSigned_padded, Option.map_some, hvalue]

/-- Digits behind a point are read as a fraction. -/
lemma readFraction_padded {k : Nat} (hn : n < 10 ^ width) (hwidth : 0 < width)
    (hk : width + k = 9) :
    readFraction ('.' :: padded width n ++ 'Z' :: rest) = some (n * 10 ^ k, 'Z' :: rest) := by
  have hdigits : digits (padded width n ++ 'Z' :: rest) = padded width n := by
    rw [digits_padded]
    exact List.append_nil _
  have hlength := Text.length_padded hwidth hn
  have htake : (padded width n).take 9 = padded width n :=
    List.take_of_length_le (by omega)
  have hplaces : 9 - (padded width n).length = k := by omega
  have hread : ∀ cs, readFraction ('.' :: cs) = (Text.readNat ((digits cs).take 9)).map fun n =>
      (n * 10 ^ (9 - ((digits cs).take 9).length), cs.drop (digits cs).length) := fun _ => rfl
  rw [List.cons_append, hread, hdigits, htake, Text.readNat_padded, hplaces, List.drop_left]
  rfl

/-- A fraction of a second is read back. -/
lemma readFraction_fractionText (hn : n < 1000000000) :
    readFraction (fractionText n ++ 'Z' :: rest) = some (n, 'Z' :: rest) := by
  unfold fractionText
  split
  · next hzero =>
    rw [hzero]
    rfl
  · split
    · next hmillis =>
      have hvalue : n / 1000000 * 10 ^ 6 = n := by omega
      rw [readFraction_padded (k := 6) (by omega) (by decide) rfl, hvalue]
    · split
      · next hmicros =>
        have hvalue : n / 1000 * 10 ^ 3 = n := by omega
        rw [readFraction_padded (k := 3) (by omega) (by decide) rfl, hvalue]
      · rw [readFraction_padded (k := 0) hn (by decide) rfl, Nat.pow_zero, Nat.mul_one]

/-- The instant can be written: its year is one that a date may lie in, and only the last second of
a minute is longer than a second. -/
structure IsSound (t : Instant) : Prop where
  year : yearInRange (dateOfDays (t.seconds / 86400)).1 = true
  nanos : t.nanos < 1000000000 ∨ t.nanos < 2000000000 ∧ t.seconds % 60 = 59

/-- A part that is read is followed by the others. -/
lemma bind_of_eq_some {α β : Type} {o : Option α} {f : α → Option β} {a : α} {b : β}
    (ho : o = some a) (hf : f a = some b) : o.bind f = some b :=
  Option.bind_eq_some_iff.mpr ⟨a, ho, hf⟩

/-- An instant is read back from its text. -/
theorem ofText?_text {t : Instant} (ht : t.IsSound) : ofText? t.text = some t := by
  obtain ⟨hyear, hnanos⟩ := ht
  obtain ⟨hfirst, htwelve, hone, hlength, hdays⟩ := dateOfDays_spec (t.seconds / 86400)
  obtain ⟨s, hs⟩ : ∃ s, s = (t.seconds % 86400).toNat := ⟨_, rfl⟩
  obtain ⟨y, m, d, hdate⟩ : ∃ y m d, dateOfDays (t.seconds / 86400) = (y, m, d) := ⟨_, _, _, rfl⟩
  have htext : t.text.toList = yearText y ++ '-' :: (padded 2 m ++ '-' :: (padded 2 d ++
      'T' :: (padded 2 (s / 3600) ++ ':' :: (padded 2 (s / 60 % 60) ++
        ':' :: (padded 2 (s % 60 + t.nanos / 1000000000) ++
          (fractionText (t.nanos % 1000000000) ++ 'Z' :: [])))))) := by
    unfold text
    rw [hdate, ← hs]
    simp only [String.toList_ofList, List.append_assoc, List.cons_append]
  rw [hdate] at hyear hfirst htwelve hone hlength hdays
  dsimp only at hyear hfirst htwelve hone hlength hdays
  have hday : d < 100 := by
    unfold daysInMonth at hlength
    split at hlength <;> split at hlength <;> omega
  unfold ofText?
  rw [htext]
  refine bind_of_eq_some (readYear_yearText y) ?_
  refine bind_of_eq_some (readMark_cons rfl) ?_
  refine bind_of_eq_some (readNumber_padded (by decide) (by omega)) ?_
  refine bind_of_eq_some (readMark_cons rfl) ?_
  refine bind_of_eq_some (readNumber_padded (by decide) (by omega)) ?_
  refine bind_of_eq_some (readNumber_padded (by decide) (by omega)) ?_
  refine bind_of_eq_some (readMark_cons rfl) ?_
  refine bind_of_eq_some (readNumber_padded (by decide) (by omega)) ?_
  refine bind_of_eq_some (readMark_cons rfl) ?_
  refine bind_of_eq_some (readNumber_padded (by decide) (by omega)) ?_
  refine bind_of_eq_some (readFraction_fractionText (Nat.mod_lt _ (by decide))) ?_
  refine bind_of_eq_some (a := (0, [])) rfl ?_
  have hsecond : s % 60 + t.nanos / 1000000000 ≤ 60 ∧
      s / 3600 * 3600 + s / 60 % 60 * 60 + min (s % 60 + t.nanos / 1000000000) 59 = s := by
    omega
  have hinstant : (⟨daysOfDate y m d * 86400 +
      (s / 3600 * 3600 + s / 60 % 60 * 60 + min (s % 60 + t.nanos / 1000000000) 59 : Nat) - 0,
      if s % 60 + t.nanos / 1000000000 = 60 then t.nanos % 1000000000 + 1000000000
      else t.nanos % 1000000000⟩ : Instant) = t := by
    obtain ⟨seconds, nanos⟩ := t
    dsimp only at *
    rw [hsecond.2, hdays, Instant.mk.injEq]
    constructor
    · omega
    · split <;> omega
  have hfits : (yearInRange y && decide (1 ≤ m) && decide (m ≤ 12) && decide (1 ≤ d) &&
      decide (d ≤ daysInMonth y m)) = true := by
    simp only [hyear, hfirst, htwelve, hone, hlength, decide_true, Bool.and_self]
  have htime : (decide (s / 3600 < 24) && decide (s / 60 % 60 < 60) &&
      decide (s % 60 + t.nanos / 1000000000 ≤ 60)) = true := by
    simp only [Bool.and_eq_true, decide_eq_true_eq]
    omega
  have hkept : ∀ u : Instant, u = t →
      (if yearInRange (dateOfDays (u.seconds / 86400)).1 then some u else none) = some t := by
    rintro u rfl
    rw [hdate]
    exact if_pos hyear
  have hread := hkept _ hinstant
  dsimp only at hread ⊢
  rw [hfits, htime, if_neg (by decide)]
  exact hread

variable {cs : List Char} {offset : Int}

/-! ### What is read -/

/-- A number is less than the power of ten that its digits are below. -/
lemma readDigits_lt {ds : List Char} {acc : Nat} (h : Text.readDigits acc ds = some n) :
    n < (acc + 1) * 10 ^ ds.length := by
  induction ds generalizing acc with
  | nil =>
    cases h
    simp
  | cons c ds ih =>
    rw [Text.readDigits] at h
    obtain ⟨d, hd, hrest⟩ := Option.bind_eq_some_iff.mp h
    have hdigit : d < 10 := by
      unfold Text.digitValue? at hd
      split at hd
      · next hc =>
        cases hd
        have hzero : '0'.toNat = 48 := rfl
        have hlast : c.toNat ≤ 57 := hc.2
        omega
      · cases hd
    have hbound := ih hrest
    have hle : (10 * acc + d + 1) * 10 ^ ds.length ≤ (acc + 1) * 10 * 10 ^ ds.length :=
      Nat.mul_le_mul_right _ (by omega)
    rw [List.length_cons, Nat.pow_succ]
    calc n < _ := hbound
      _ ≤ (acc + 1) * 10 * 10 ^ ds.length := hle
      _ = _ := by ring

/-- A number that is read has no more digits than its text. -/
lemma readNat_lt {ds : List Char} (h : Text.readNat ds = some n) : n < 10 ^ ds.length := by
  unfold Text.readNat at h
  split at h
  · cases h
  · simpa using readDigits_lt h

/-- A fraction that is read is less than a second. -/
lemma readFraction_lt (h : readFraction cs = some (n, rest)) : n < 1000000000 := by
  unfold readFraction at h
  split at h
  · next tail =>
    obtain ⟨m, hm, heq⟩ := Option.map_eq_some_iff.mp h
    cases heq
    have hlength : ((digits tail).take 9).length ≤ 9 := List.length_take_le _ _
    calc m * 10 ^ (9 - ((digits tail).take 9).length)
      _ < 10 ^ ((digits tail).take 9).length * 10 ^ (9 - ((digits tail).take 9).length) :=
        Nat.mul_lt_mul_of_pos_right (readNat_lt hm) (Nat.pow_pos (by decide))
      _ = 10 ^ 9 := by rw [← Nat.pow_add, Nat.add_sub_cancel' hlength]
  · cases h
    decide

/-- A distance from UTC is a number of minutes. -/
lemma readOffset_mod (h : readOffset cs = some (offset, rest)) : offset % 60 = 0 := by
  have hparts : ∀ sign r, readOffset.readParts sign r = some (offset, rest) → offset % 60 = 0 := by
    intro sign r hr
    unfold readOffset.readParts at hr
    simp only [Option.bind_eq_bind, Option.bind_eq_some_iff] at hr
    obtain ⟨⟨hour, r⟩, -, ⟨minute, r⟩, -, hr⟩ := hr
    split at hr
    · cases hr
      have hsixty :
          ((hour * 3600 + minute * 60 : Nat) : Int) = (hour * 60 + minute : Nat) * 60 := by
        push_cast
        ring
      rw [hsixty, ← mul_assoc, Int.mul_emod_left]
    · cases hr
  unfold readOffset at h
  split at h
  · cases h
    rfl
  · cases h
    rfl
  · exact hparts _ _ h
  · exact hparts _ _ h
  · exact hparts _ _ h
  · split at h
    · cases h
      rfl
    · cases h
  · cases h

/-- What is read from a text can be written: a second that is longer than others ends a minute,
because a distance from UTC is made up of minutes. -/
theorem isSound_of_ofText? {s : String} {t : Instant} (h : ofText? s = some t) : t.IsSound := by
  unfold ofText? at h
  obtain ⟨⟨y, cs⟩, -, h⟩ := Option.bind_eq_some_iff.mp h
  obtain ⟨cs, -, h⟩ := Option.bind_eq_some_iff.mp h
  obtain ⟨⟨month, cs⟩, -, h⟩ := Option.bind_eq_some_iff.mp h
  obtain ⟨cs, -, h⟩ := Option.bind_eq_some_iff.mp h
  obtain ⟨⟨day, cs⟩, -, h⟩ := Option.bind_eq_some_iff.mp h
  dsimp only at h
  split at h
  · split at h
    · obtain ⟨cs, -, h⟩ := Option.bind_eq_some_iff.mp h
      obtain ⟨⟨hour, cs⟩, -, h⟩ := Option.bind_eq_some_iff.mp h
      obtain ⟨cs, -, h⟩ := Option.bind_eq_some_iff.mp h
      obtain ⟨⟨minute, cs⟩, -, h⟩ := Option.bind_eq_some_iff.mp h
      obtain ⟨cs, -, h⟩ := Option.bind_eq_some_iff.mp h
      obtain ⟨⟨second, cs⟩, -, h⟩ := Option.bind_eq_some_iff.mp h
      obtain ⟨⟨nanos, cs⟩, hnanos, h⟩ := Option.bind_eq_some_iff.mp h
      obtain ⟨⟨offset, cs⟩, hoffset, h⟩ := Option.bind_eq_some_iff.mp h
      dsimp only at h
      split at h
      · obtain ⟨_, hnone, -⟩ := Option.bind_eq_some_iff.mp h
        cases hnone
      · next hfits =>
        split at h
        · next hyear =>
          cases h
          refine ⟨hyear, ?_⟩
          have hless := readFraction_lt hnanos
          have hminutes := readOffset_mod hoffset
          dsimp only
          split
          · next hleap =>
            refine .inr ⟨by omega, ?_⟩
            rw [hleap]
            omega
          · exact .inl hless
        · cases h
    · obtain ⟨_, hnone, -⟩ := Option.bind_eq_some_iff.mp h
      cases hnone
  · obtain ⟨_, hnone, -⟩ := Option.bind_eq_some_iff.mp h
    cases hnone

end Instant

end Recital

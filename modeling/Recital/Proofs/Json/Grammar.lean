import Mathlib.Data.List.TakeWhile
import Recital.Proofs.Decimal.Nearest
import Recital.Proofs.Json.Number
import Recital.Proofs.Json.Quoted

/-!
# The grammar of JSON texts

Which value a text stands for is said here without reading it (`Json.Denotes`): a text is put
together from the texts of its parts, with spaces around them, and arrays and objects nest so many
levels at most.  An object has the keys of its fields in their order, and of several fields with one
key the last one counts.

Two parts of the grammar are no matter of shape alone.  A number is the integer that it spells if a
64-bit word holds that one, and else the nearest binary number (`Json.Amounts`).  A character of a
quoted text may be written as one or two code units of sixteen bits (`Json.IsCharacter`).  The
readers of numbers and of quoted texts are compared with the grammar here.
-/

namespace Recital.Json

/-! ### Numbers -/

/-- Decimal digits, at least one. -/
structure IsDigits (ds : List Char) : Prop where
  ne_nil : ds ≠ []
  digits : ∀ c ∈ ds, c.isDigit = true

/-- The text of a point and digits, or of neither. -/
inductive IsFraction : List Char → List Char → Prop
  | absent : IsFraction [] []
  | present {ds : List Char} (h : IsDigits ds) : IsFraction ('.' :: ds) ds

/-- The text of an exponent, or of none. -/
inductive IsExponent : List Char → Option Int → Prop
  | absent : IsExponent [] none
  | positive {letter : Char} {sign ds : List Char} (hletter : letter = 'e' ∨ letter = 'E')
    (hsign : sign = [] ∨ sign = ['+']) (hds : IsDigits ds) :
    IsExponent (letter :: (sign ++ ds)) (some (Nat.ofDigitChars 10 ds 0))
  | negative {letter : Char} {ds : List Char} (hletter : letter = 'e' ∨ letter = 'E')
    (hds : IsDigits ds) :
    IsExponent (letter :: '-' :: ds) (some (-(Nat.ofDigitChars 10 ds 0 : Int)))

/-- The parts are those of an integer that a 64-bit word holds, and of no negative zero. -/
def IsInteger (negative : Bool) (whole fraction : List Char) (exponent : Option Int) (i : Int) :
    Prop :=
  fraction = [] ∧ exponent = none ∧
    i = (if negative then -(Nat.ofDigitChars 10 whole 0 : Int) else Nat.ofDigitChars 10 whole 0) ∧
    (negative = true → i ≠ 0) ∧ -2 ^ 63 ≤ i ∧ i < 2 ^ 64

/-- The number that has these parts. -/
inductive Amounts (negative : Bool) (whole fraction : List Char) (exponent : Option Int) :
    Number → Prop
  | integer {i : Int} (h : IsInteger negative whole fraction exponent i) :
    Amounts negative whole fraction exponent (.integer i)
  | real {x : Binary64} (h : ∀ i, ¬ IsInteger negative whole fraction exponent i)
    (hfinite : x.isFinite = true) (hsign : x.isNegative = negative)
    (hnearest : Binary64.IsNearest (Nat.ofDigitChars 10 (whole ++ fraction) 0 *
      (10 : ℚ) ^ (exponent.getD 0 - fraction.length)) x.magnitudeBits) :
    Amounts negative whole fraction exponent (.real x)

/-- The text is that of the number. -/
inductive IsNumber : List Char → Number → Prop
  | mk {negative : Bool} {whole point fraction power : List Char} {exponent : Option Int}
      {n : Number}
    (hwhole : IsDigits whole) (hleading : whole = ['0'] ∨ whole.head? ≠ some '0')
    (hpoint : IsFraction point fraction) (hpower : IsExponent power exponent)
    (hn : Amounts negative whole fraction exponent n) :
    IsNumber ((if negative then ['-'] else []) ++ (whole ++ (point ++ power))) n

/-! ### Quoted texts -/

/-- A hexadecimal digit of the given value. -/
def IsHexDigit (c : Char) (n : Nat) : Prop :=
  "0123456789abcdef".toList[n]? = some c ∨ "0123456789ABCDEF".toList[n]? = some c

/-- A code unit in four hexadecimal digits. -/
inductive IsUnit : List Char → Nat → Prop
  | mk {a b c d : Char} {k l m n : Nat} (ha : IsHexDigit a k) (hb : IsHexDigit b l)
    (hc : IsHexDigit c m) (hd : IsHexDigit d n) :
    IsUnit [a, b, c, d] (16 * (16 * (16 * k + l) + m) + n)

/-- The letters of escapes, with the characters that they stand for. -/
def letters : List (Char × Char) :=
  [('"', '"'), ('\\', '\\'), ('/', '/'), ('b', Char.ofNat 8), ('f', Char.ofNat 12), ('n', '\n'),
    ('r', '\r'), ('t', '\t')]

/-- The text of one character. -/
inductive IsCharacter : List Char → Char → Prop
  | plain {c : Char} (hc : 32 ≤ c.toNat) (hquote : c ≠ '"') (hescape : c ≠ '\\') : IsCharacter [c] c
  | letter {e c : Char} (h : (e, c) ∈ letters) : IsCharacter ['\\', e] c
  | unit {ds : List Char} {n : Nat} (h : IsUnit ds n) (hn : n < 0xD800 ∨ 0xE000 ≤ n) :
    IsCharacter ('\\' :: 'u' :: ds) (Char.ofNat n)
  | pair {ds es : List Char} {high low : Nat} (hds : IsUnit ds high) (hes : IsUnit es low)
    (hhigh : 0xD800 ≤ high ∧ high < 0xDC00) (hlow : 0xDC00 ≤ low ∧ low < 0xE000) :
    IsCharacter ('\\' :: 'u' :: (ds ++ '\\' :: 'u' :: es))
      (Char.ofNat (0x10000 + (high - 0xD800) * 0x400 + (low - 0xDC00)))

/-- The text between quotes of the characters. -/
inductive IsQuoted : List Char → List Char → Prop
  | nil : IsQuoted [] []
  | cons {cs ds text : List Char} {c : Char} (hc : IsCharacter cs c) (h : IsQuoted ds text) :
    IsQuoted (cs ++ ds) (c :: text)

/-! ### Values -/

/-- Characters that may stand around a value. -/
def IsSpaces (cs : List Char) : Prop := ∀ c ∈ cs, c = ' ' ∨ c = '\t' ∨ c = '\n' ∨ c = '\r'

/-- An item of an array with its text. -/
structure Item where
  before : List Char
  text : List Char
  after : List Char
  value : Json

/-- A field of an object with its text. -/
structure Field extends Item where
  margin : List Char
  quoted : List Char
  key : String
  gap : List Char

namespace Item

/-- The text of the item and of the spaces around it. -/
def chars (i : Item) : List Char := i.before ++ (i.text ++ i.after)

/-- There are only spaces around the item. -/
structure IsSpaced (i : Item) : Prop where
  before : IsSpaces i.before
  after : IsSpaces i.after

end Item

namespace Field

/-- The text of the key, of the colon and of the item, with the spaces around them. -/
def chars (f : Field) : List Char :=
  f.margin ++ ('"' :: (f.quoted ++ ('"' :: (f.gap ++ (':' :: f.toItem.chars)))))

/-- The key is quoted, and there are only spaces around it and the item. -/
structure IsKeyed (f : Field) : Prop where
  quoted : IsQuoted f.quoted f.key.toList
  margin : IsSpaces f.margin
  gap : IsSpaces f.gap
  item : f.toItem.IsSpaced

end Field

/-- The text is that of the value, in which arrays and objects nest at most so many levels. -/
inductive Denotes : Nat → List Char → Json → Prop
  | null {depth : Nat} : Denotes depth ['n', 'u', 'l', 'l'] .null
  | yes {depth : Nat} : Denotes depth ['t', 'r', 'u', 'e'] (.bool true)
  | no {depth : Nat} : Denotes depth ['f', 'a', 'l', 's', 'e'] (.bool false)
  | num {depth : Nat} {cs : List Char} {n : Number} (h : IsNumber cs n) : Denotes depth cs (.num n)
  | str {depth : Nat} {cs : List Char} {s : String} (h : IsQuoted cs s.toList) :
    Denotes depth ('"' :: (cs ++ ['"'])) (.str s)
  | noItems {depth : Nat} {ws : List Char} (hws : IsSpaces ws) :
    Denotes (depth + 1) ('[' :: (ws ++ [']'])) (.arr [])
  | items {depth : Nat} {items : List Item} (hne : items ≠ []) (hspaced : ∀ i ∈ items, i.IsSpaced)
    (h : ∀ i ∈ items, Denotes depth i.text i.value) :
    Denotes (depth + 1) ('[' :: ([','].intercalate (items.map Item.chars) ++ [']']))
      (.arr (items.map Item.value))
  | noFields {depth : Nat} {ws : List Char} (hws : IsSpaces ws) :
    Denotes (depth + 1) ('{' :: (ws ++ ['}'])) (.obj [])
  | fields {depth : Nat} {fields : List Field} {entries : List (String × Json)} (hne : fields ≠ [])
    (hkeyed : ∀ f ∈ fields, f.IsKeyed) (h : ∀ f ∈ fields, Denotes depth f.text f.value)
    (hincrease : KeysIncrease entries)
    (hentries : ∀ key, entries.lookup key =
      (fields.reverse.map fun f => (f.key, f.value)).lookup key) :
    Denotes (depth + 1) ('{' :: ([','].intercalate (fields.map Field.chars) ++ ['}']))
    (.obj entries)

/-- The text is that of one value. -/
def IsText (s : String) (j : Json) : Prop :=
  ∃ i : Item, i.IsSpaced ∧ s.toList = i.chars ∧ i.value = j ∧ Denotes 127 i.text j

/-! ### Numbers are read by the grammar -/

variable {negative : Bool} {ds cs whole fraction point power rest behind : List Char}
  {exponent : Option Int} {n : Number} {i : Int} {x : Binary64} {k : Nat} {e : Int}

open Binary64

/-- A decimal is read as the nearest number of its sign. -/
lemma ofDecimal_eq_iff : ofDecimal negative k e = x ↔
    x.isNegative = negative ∧ IsNearest (k * (10 : ℚ) ^ e) x.magnitudeBits := by
  have hle := decimalBits_le k e
  have hlt := infinityBits_lt
  have hsign : signBit = 2 ^ 63 := rfl
  have hnat : (ofDecimal negative k e).bits.toNat =
      (if negative then signBit else 0) + decimalBits k e := by
    rw [ofDecimal_eq, toNat_bits_ofNatBits]
    split <;> omega
  have hnegative : (ofDecimal negative k e).isNegative = negative := by
    unfold isNegative
    rw [hnat]
    cases negative with
    | true => simp
    | false => simpa using hle.trans_lt hlt
  have hmagnitude : (ofDecimal negative k e).magnitudeBits = decimalBits k e := by
    unfold magnitudeBits
    rw [hnat]
    cases negative with
    | true => simpa using Nat.mod_eq_of_lt (hle.trans_lt hlt)
    | false => simpa using Nat.mod_eq_of_lt (hle.trans_lt hlt)
  constructor
  · rintro rfl
    rw [hmagnitude]
    exact ⟨hnegative, isNearest_decimalBits k e⟩
  · rintro ⟨rfl, hnearest⟩
    rw [ofDecimal_eq, ← hnearest.unique (isNearest_decimalBits k e)]
    exact (eq_ofNatBits x).symm

lemma realNumber_eq_some_iff : realNumber negative k e = some n ↔
    ∃ x, n = .real x ∧ x.isFinite = true ∧ x.isNegative = negative ∧
      IsNearest (k * (10 : ℚ) ^ e) x.magnitudeBits := by
  unfold realNumber
  dsimp only
  constructor
  · intro h
    split at h
    · next hfinite =>
      cases h
      obtain ⟨hsign, hnearest⟩ := (ofDecimal_eq_iff (x := ofDecimal negative k e)).mp rfl
      exact ⟨_, rfl, hfinite, hsign, hnearest⟩
    · cases h
  · rintro ⟨x, rfl, hfinite, hsign, hnearest⟩
    rw [ofDecimal_eq_iff.mpr ⟨hsign, hnearest⟩, if_pos hfinite]

lemma digitsValue_eq (ds : List Char) : digitsValue ds = Nat.ofDigitChars 10 ds 0 := rfl

/-- Parts of an integer that a word holds are read as the integer. -/
lemma assemble_of_isInteger (h : IsInteger negative whole fraction exponent i) :
    assemble negative whole fraction exponent = some (.integer i) := by
  obtain ⟨rfl, rfl, hvalue, hzero, hleast, hgreatest⟩ := h
  have hassemble : assemble negative whole [] none = integerNumber negative (digitsValue whole) :=
    rfl
  have hhalf : Nat.pow 2 63 = 9223372036854775808 := rfl
  have hword : Nat.pow 2 64 = 18446744073709551616 := rfl
  rw [hassemble, digitsValue_eq]
  generalize Nat.ofDigitChars 10 whole 0 = v at hvalue ⊢
  unfold integerNumber
  cases negative with
  | true =>
    have hne : i ≠ 0 := hzero rfl
    rw [if_pos rfl] at hvalue ⊢
    rw [if_neg (by omega), hvalue]
  | false =>
    rw [if_neg Bool.false_ne_true] at hvalue ⊢
    rw [if_pos (by omega), hvalue]

/-- Parts of any other number are read as a binary number. -/
lemma assemble_of_not_isInteger (h : ∀ i, ¬ IsInteger negative whole fraction exponent i) :
    assemble negative whole fraction exponent =
      realNumber negative (digitsValue (whole ++ fraction))
      (exponent.getD 0 - fraction.length) := by
  unfold assemble
  split
  · next hinteger =>
    obtain ⟨rfl, rfl⟩ : fraction = [] ∧ exponent = none := by simpa using hinteger
    have hhalf : Nat.pow 2 63 = 9223372036854775808 := rfl
    have hword : Nat.pow 2 64 = 18446744073709551616 := rfl
    rw [List.append_nil, digitsValue_eq]
    have hnot := h (if negative then -(Nat.ofDigitChars 10 whole 0 : Int)
      else Nat.ofDigitChars 10 whole 0)
    unfold IsInteger at hnot
    generalize Nat.ofDigitChars 10 whole 0 = v at hnot ⊢
    unfold integerNumber
    cases negative with
    | true =>
      simp only [if_true, true_and, forall_const, ne_eq] at hnot ⊢
      rw [if_pos (by omega)]
      rfl
    | false =>
      simp only [Bool.false_eq_true, if_false, true_and, false_imp_iff] at hnot ⊢
      rw [if_neg (by omega)]
      rfl
  · rfl

/-- What is assembled from the parts of a number is the number that has them. -/
lemma assemble_eq_some_iff :
    assemble negative whole fraction exponent = some n ↔
      Amounts negative whole fraction exponent n := by
  by_cases hinteger : ∃ i, IsInteger negative whole fraction exponent i
  · obtain ⟨i, hi⟩ := hinteger
    rw [assemble_of_isInteger hi]
    constructor
    · rintro ⟨⟩
      exact .integer hi
    · rintro (h | h)
      · cases (assemble_of_isInteger h).symm.trans (assemble_of_isInteger hi)
        rfl
      · exact absurd hi (h i)
  · have hno := not_exists.mp hinteger
    rw [assemble_of_not_isInteger hno, realNumber_eq_some_iff]
    constructor
    · rintro ⟨x, rfl, hfinite, hsign, hnearest⟩
      exact .real hno hfinite hsign hnearest
    · rintro (h | ⟨-, hfinite, hsign, hnearest⟩)
      · exact absurd h (hno _)
      · exact ⟨_, rfl, hfinite, hsign, hnearest⟩

/-! ### The reader of numbers -/

lemma isDigits_of_readDigits1 (h : readDigits1 cs = some (ds, rest)) :
    IsDigits ds ∧ cs = ds ++ rest := by
  unfold readDigits1 at h
  split at h
  · cases h
  · next hne =>
    cases h
    refine ⟨⟨?_, fun c hc => ?_⟩, List.takeWhile_append_dropWhile.symm⟩
    · exact fun hnil => hne hnil
    · rw [← isDigit_eq]
      exact List.mem_takeWhile_imp hc

lemma IsDigits.readDigits1 (h : IsDigits ds) (hrest : ∀ c ∈ rest.head?, isDigit c = false) :
    readDigits1 (ds ++ rest) = some (ds, rest) :=
  readDigits1_append (fun c hc => by rw [isDigit_eq]; exact h.digits c hc) h.ne_nil hrest

lemma isFraction_of_readFraction (h : readFraction cs = some (fraction, rest)) :
    ∃ point, IsFraction point fraction ∧ cs = point ++ rest := by
  unfold readFraction at h
  split at h
  · obtain ⟨hdigits, rfl⟩ := isDigits_of_readDigits1 h
    exact ⟨_, .present hdigits, rfl⟩
  · cases h
    exact ⟨[], .absent, rfl⟩

lemma isExponent_of_readExponent (h : readExponent cs = some (exponent, rest)) :
    ∃ power, IsExponent power exponent ∧ cs = power ++ rest := by
  unfold readExponent at h
  split at h
  · next c tail =>
    split at h
    · next hletter =>
      dsimp only at h
      split at h
      all_goals
        obtain ⟨⟨ds, behind⟩, hdigits, heq⟩ := Option.map_eq_some_iff.mp h
        cases heq
        obtain ⟨hds, rfl⟩ := isDigits_of_readDigits1 hdigits
      · exact ⟨c :: '-' :: ds, .negative hletter hds, rfl⟩
      · exact ⟨c :: (['+'] ++ ds), .positive hletter (.inr rfl) hds, rfl⟩
      · exact ⟨c :: ([] ++ ds), .positive hletter (.inl rfl) hds, rfl⟩
    · cases h
      exact ⟨[], .absent, rfl⟩
  · cases h
    exact ⟨[], .absent, rfl⟩

lemma isDigits_of_readInteger (h : readInteger cs = some (whole, rest)) :
    IsDigits whole ∧ (whole = ['0'] ∨ whole.head? ≠ some '0') ∧ cs = whole ++ rest := by
  unfold readInteger at h
  simp only [bind, Option.bind_eq_some_iff] at h
  obtain ⟨⟨ds, behind⟩, hdigits, hleading⟩ := h
  obtain ⟨hds, rfl⟩ := isDigits_of_readDigits1 hdigits
  split at hleading
  · cases hleading
  · next hnot =>
    cases hleading
    refine ⟨hds, or_iff_not_imp_right.mpr fun hhead => ?_, rfl⟩
    rw [ne_eq, not_not] at hhead
    cases ds with
    | nil => cases hhead
    | cons c tail =>
      obtain rfl : c = '0' := Option.some.inj hhead
      cases tail with
      | nil => rfl
      | cons d tail => exact absurd rfl (hnot d tail)

/-- Nothing but the text of a number is read as one. -/
lemma isNumber_of_readNumber (h : readNumber cs = some (some n, rest)) :
    ∃ text, IsNumber text n ∧ cs = text ++ rest := by
  obtain ⟨negative, digits, hsign, hread⟩ : ∃ (negative : Bool) (digits : List Char),
      cs = (if negative then ['-'] else []) ++ digits ∧
        ((readInteger digits).bind fun whole => (readFraction whole.2).bind fun fraction =>
          (readExponent fraction.2).bind fun exponent =>
            some (assemble negative whole.1 fraction.1 exponent.1, exponent.2)) =
          some (some n, rest) := by
    unfold readNumber at h
    dsimp only at h
    split at h
    · next r => exact ⟨true, r, rfl, h⟩
    · exact ⟨false, cs, rfl, h⟩
  simp only [Option.bind_eq_some_iff] at hread
  obtain ⟨⟨whole, behind⟩, hwhole, ⟨fraction, tail⟩, hfraction, ⟨exponent, rest'⟩, hexponent,
    hparts⟩ := hread
  obtain ⟨hamounts, rfl⟩ : assemble negative whole fraction exponent = some n ∧ rest' = rest := by
    simpa using hparts
  obtain ⟨power, hpower, rfl⟩ := isExponent_of_readExponent hexponent
  obtain ⟨point, hpoint, rfl⟩ := isFraction_of_readFraction hfraction
  obtain ⟨hdigits, hleading, rfl⟩ := isDigits_of_readInteger hwhole
  refine ⟨_, .mk hdigits hleading hpoint hpower (assemble_eq_some_iff.mp hamounts), ?_⟩
  rw [hsign]
  simp only [List.append_assoc]

/-- A fraction or an exponent does not go on from digits. -/
lemma IsExponent.not_isDigit (h : IsExponent power exponent) (hrest : Stops rest) :
    ∀ c ∈ (power ++ rest).head?, isDigit c = false ∧ c ≠ '.' := by
  intro c hc
  cases h with
  | absent =>
    have hover := hrest c hc
    refine ⟨hrest.not_isDigit c hc, ?_⟩
    rintro rfl
    cases hover
  | positive hletter | negative hletter =>
    obtain rfl : c = _ := (Option.some.inj hc).symm
    rcases hletter with rfl | rfl <;> exact ⟨rfl, by decide⟩

lemma IsExponent.readExponent (h : IsExponent power exponent) (hrest : Stops rest) :
    readExponent (power ++ rest) = some (exponent, rest) := by
  cases h with
  | absent => exact hrest.readExponent
  | @positive letter sign ds hletter hsign hds =>
    have hread := hds.readDigits1 hrest.not_isDigit
    rcases hsign with rfl | rfl
    · -- Digits do not start with a sign.
      have hhead : ∀ r, ds ++ rest ≠ '-' :: r ∧ ds ++ rest ≠ '+' :: r := by
        intro r
        cases ds with
        | nil => exact absurd rfl hds.ne_nil
        | cons d tail =>
          have hd := hds.digits d List.mem_cons_self
          constructor <;> rintro ⟨⟩ <;> cases hd
      have hsplit : readExponent (letter :: (ds ++ rest)) =
          (readDigits1 (ds ++ rest)).map fun x => (some (digitsValue x.1 : Int), x.2) := by
        unfold Json.readExponent
        dsimp only
        rw [if_pos hletter]
        split
        · next r heq => exact absurd heq (hhead r).1
        · next r heq => exact absurd heq (hhead r).2
        · rfl
      rw [List.nil_append, List.cons_append, hsplit, hread]
      rfl
    · simp only [List.cons_append, List.nil_append, Json.readExponent, hletter, if_true, hread,
        Option.map_some]
      rfl
  | @negative letter ds hletter hds =>
    have hread := hds.readDigits1 hrest.not_isDigit
    simp only [List.cons_append, Json.readExponent, hletter, if_true, hread, Option.map_some]
    rfl

lemma IsFraction.readFraction (h : IsFraction point fraction)
    (hrest : ∀ c ∈ rest.head?, isDigit c = false ∧ c ≠ '.') :
    readFraction (point ++ rest) = some (fraction, rest) := by
  cases h with
  | absent => exact readFraction_of_ne fun hpoint => (hrest '.' hpoint).2 rfl
  | present hds => exact hds.readDigits1 fun c hc => (hrest c hc).1

/-- The text of a number is read as the number. -/
lemma IsNumber.readNumber {text : List Char} (h : IsNumber text n) (hrest : Stops rest) :
    readNumber (text ++ rest) = some (some n, rest) := by
  cases h with
  | @mk negative whole point fraction power exponent _ hwhole hleading hpoint hpower hn =>
    have hspells : Spells (whole ++ (point ++ (power ++ rest))) whole fraction exponent rest := by
      refine ⟨point ++ (power ++ rest), power ++ rest, ?_,
        hpoint.readFraction (hpower.not_isDigit hrest), hpower.readExponent hrest⟩
      have hwhole' : IsWhole whole :=
        ⟨fun c hc => by rw [isDigit_eq]; exact hwhole.digits c hc, hwhole.ne_nil, hleading⟩
      refine hwhole'.readInteger ?_
      cases hpoint with
      | absent => exact fun c hc => (hpower.not_isDigit hrest c hc).1
      | present =>
        intro c hc
        cases hc
        rfl
    have hread := hspells.readNumber negative
    rw [assemble_eq_some_iff.mpr hn] at hread
    simpa only [List.append_assoc] using hread

/-! ### The reader of quoted texts -/

variable {a b c d : Char} {held text : List Char} {q : Quote} {s : String}

lemma hexValue?_eq_some_iff : Text.hexValue? c = some k ↔ IsHexDigit c k := by
  have hall : ∀ i < 128, ∀ k < 16, Text.hexValue? (Char.ofNat i) = some k ↔
      ("0123456789abcdef".toList[k]? = some (Char.ofNat i) ∨
        "0123456789ABCDEF".toList[k]? = some (Char.ofNat i)) := by
    decide +kernel
  have hplain : c.toNat < 128 → k < 16 → (Text.hexValue? c = some k ↔ IsHexDigit c k) := by
    intro hc hk
    have hcase := hall c.toNat hc k hk
    rwa [Char.ofNat_toNat] at hcase
  constructor
  · intro h
    have hbounds : c.toNat < 128 ∧ k < 16 := by
      unfold Text.hexValue? at h
      split at h
      · next hc =>
        have hle : c.toNat ≤ 57 := hc.2
        obtain rfl : c.toNat - 48 = k := Option.some.inj h
        omega
      · split at h
        · next hc =>
          have hle : c.toNat ≤ 102 := hc.2
          obtain rfl : c.toNat - 97 + 10 = k := Option.some.inj h
          omega
        · split at h
          · next hc =>
            have hle : c.toNat ≤ 70 := hc.2
            obtain rfl : c.toNat - 65 + 10 = k := Option.some.inj h
            omega
          · cases h
    exact (hplain hbounds.1 hbounds.2).mp h
  · intro h
    have hdigits : ∀ c ∈ "0123456789abcdef".toList ++ "0123456789ABCDEF".toList, c.toNat < 128 := by
      simp
    have hbounds : c.toNat < 128 ∧ k < 16 := by
      rcases h with h | h
      · exact ⟨hdigits c (List.mem_append_left _ (List.mem_of_getElem? h)),
          (List.getElem?_eq_some_iff.mp h).1⟩
      · exact ⟨hdigits c (List.mem_append_right _ (List.mem_of_getElem? h)),
          (List.getElem?_eq_some_iff.mp h).1⟩
    exact (hplain hbounds.1 hbounds.2).mpr h

lemma hex4_eq_some_iff : hex4 a b c d = some k ↔ IsUnit [a, b, c, d] k := by
  unfold hex4
  simp only [Text.readHexDigits, Option.bind_eq_some_iff, hexValue?_eq_some_iff, Nat.mul_zero,
    Nat.zero_add, Option.some.injEq]
  constructor
  · rintro ⟨k, hk, l, hl, m, hm, n, hn, rfl⟩
    exact .mk hk hl hm hn
  · rintro ⟨hk, hl, hm, hn⟩
    exact ⟨_, hk, _, hl, _, hm, _, hn, rfl⟩

lemma simpleEscape_eq_some_iff : simpleEscape a = some c ↔ (a, c) ∈ letters := by
  simp only [letters, List.mem_cons, Prod.mk.injEq, List.not_mem_nil, or_false]
  constructor
  · intro h
    unfold simpleEscape at h
    split at h
    · next ha =>
      cases h
      rcases ha with rfl | rfl | rfl <;> simp
    · repeat' split at h
      all_goals cases h
      all_goals simp [*]
  · rintro (⟨rfl, rfl⟩ | ⟨rfl, rfl⟩ | ⟨rfl, rfl⟩ | ⟨rfl, rfl⟩ | ⟨rfl, rfl⟩ | ⟨rfl, rfl⟩ |
      ⟨rfl, rfl⟩ | ⟨rfl, rfl⟩) <;> rfl

lemma isHighSurrogate_iff : isHighSurrogate k = true ↔ 0xD800 ≤ k ∧ k < 0xDC00 := by
  simp [isHighSurrogate]

lemma isLowSurrogate_iff : isLowSurrogate k = true ↔ 0xDC00 ≤ k ∧ k < 0xE000 := by
  simp [isLowSurrogate]

/-- A code unit is read as such. -/
lemma IsUnit.readQuoted (h : IsUnit ds k) (q : Quote) :
    readQuoted q ('\\' :: 'u' :: (ds ++ rest)) = readQuoted (q.pushUnit k) rest := by
  obtain ⟨a, b, c, d, rfl⟩ : ∃ a b c d, ds = [a, b, c, d] := by
    cases h
    exact ⟨_, _, _, _, rfl⟩
  have hread : readQuoted q ('\\' :: 'u' :: a :: b :: c :: d :: rest) =
      readQuoted (q.pushUnit k) rest := by
    rw [Json.readQuoted, hex4_eq_some_iff.mpr h]
  exact hread

/-- The text of a character is read as the character. -/
lemma IsCharacter.readQuoted (h : IsCharacter cs c) :
    readQuoted (.whole held) (cs ++ rest) = readQuoted (.whole (c :: held)) rest := by
  cases h with
  | plain hc hquote hescape =>
    rw [List.singleton_append, Json.readQuoted, if_neg (not_or.mpr ⟨hescape, Nat.not_lt.mpr hc⟩)]
    · rfl
    · exact hquote
    · exact fun _ _ _ _ _ heq _ => hescape heq
    · exact fun _ _ heq _ => hescape heq
  | letter h =>
    simp only [letters, List.mem_cons, Prod.mk.injEq, List.not_mem_nil, or_false] at h
    rcases h with ⟨rfl, rfl⟩ | ⟨rfl, rfl⟩ | ⟨rfl, rfl⟩ | ⟨rfl, rfl⟩ | ⟨rfl, rfl⟩ | ⟨rfl, rfl⟩ |
      ⟨rfl, rfl⟩ | ⟨rfl, rfl⟩ <;> rfl
  | @unit ds n h hn =>
    have hhigh : isHighSurrogate n = false := by
      rw [← Bool.not_eq_true, isHighSurrogate_iff]
      omega
    have hlow : isLowSurrogate n = false := by
      rw [← Bool.not_eq_true, isLowSurrogate_iff]
      omega
    have hpush : (Quote.whole held).pushUnit n = .whole (Char.ofNat n :: held) := by
      unfold Quote.pushUnit
      rw [hhigh, hlow]
      rfl
    rw [List.cons_append, List.cons_append, h.readQuoted, hpush]
  | @pair ds es high low hds hes hhigh hlow =>
    have hfirst : (Quote.whole held).pushUnit high = ⟨some held, some high⟩ := by
      unfold Quote.pushUnit
      rw [if_pos (isHighSurrogate_iff.mpr hhigh)]
      rfl
    have hsecond : Quote.pushUnit ⟨some held, some high⟩ low =
        .whole (Char.ofNat (0x10000 + (high - 0xD800) * 0x400 + (low - 0xDC00)) :: held) := by
      have hnot : ¬ isHighSurrogate low = true := by
        rw [isHighSurrogate_iff]
        omega
      unfold Quote.pushUnit
      rw [if_neg hnot, if_pos (isLowSurrogate_iff.mpr hlow)]
      rfl
    rw [List.cons_append, List.cons_append, List.append_assoc, hds.readQuoted, hfirst,
      List.cons_append, List.cons_append, hes.readQuoted, hsecond]

/-- A quoted text is read up to the closing quote. -/
lemma IsQuoted.readText {s : String} (h : IsQuoted cs s.toList) :
    readText (cs ++ '"' :: rest) = some (some s, rest) := by
  have hall : ∀ {cs text held : List Char}, IsQuoted cs text →
      readQuoted (.whole held) (cs ++ '"' :: rest) =
        readQuoted (.whole (text.reverse ++ held)) ('"' :: rest) := by
    intro cs text held h
    induction h generalizing held with
    | nil => rfl
    | cons hc _ ih =>
      rw [List.append_assoc, hc.readQuoted, ih, List.reverse_cons, List.append_assoc]
      rfl
  have htext : (Quote.whole (s.toList.reverse ++ [])).text? = some s := by
    unfold Quote.whole Quote.text? Quote.settled
    simp
  have hread : Json.readText (cs ++ '"' :: rest) =
      readQuoted (.whole (s.toList.reverse ++ [])) ('"' :: rest) := hall h
  rw [hread, readQuoted, htext]

/-- The text in front of a closing quote goes on from what is read so far. -/
def Quote.Closes (q : Quote) (cs : List Char) (s : String) (rest : List Char) : Prop :=
  ∃ held text chars, q.chars = some held ∧ IsQuoted text chars ∧
    match q.high with
    | none => cs = text ++ '"' :: rest ∧ s = String.ofList (held.reverse ++ chars)
    | some high => ∃ ds low, IsUnit ds low ∧ (0xDC00 ≤ low ∧ low < 0xE000) ∧
        cs = '\\' :: 'u' :: (ds ++ (text ++ '"' :: rest)) ∧
        s = String.ofList (held.reverse ++ pairedChar high low :: chars)

namespace Quote

/-- A settled quote holds its characters, and no code unit waits. -/
lemma eq_whole_of_settled (h : q.settled = some held) : q = .whole held := by
  obtain ⟨chars, high⟩ := q
  cases high with
  | none =>
    obtain rfl : chars = some held := h
    rfl
  | some high => cases h

/-- The text of a character may stand in front. -/
lemma Closes.of_push (hc : IsCharacter text c) (h : (q.push c).Closes cs s rest) :
    q.Closes (text ++ cs) s rest := by
  obtain ⟨held, behind, chars, hheld, hbehind, rfl, rfl⟩ := h
  obtain ⟨held, hsettled, rfl⟩ := Option.map_eq_some_iff.mp hheld
  rw [eq_whole_of_settled hsettled]
  refine ⟨held, text ++ behind, c :: chars, rfl, .cons hc hbehind, ?_, ?_⟩
  · rw [List.append_assoc]
  · rw [List.reverse_cons, List.append_assoc, List.singleton_append]

/-- A code unit may stand in front: it is a character, or one half of a pair. -/
lemma Closes.of_pushUnit (hds : IsUnit ds k) (h : (q.pushUnit k).Closes cs s rest) :
    q.Closes ('\\' :: 'u' :: (ds ++ cs)) s rest := by
  unfold pushUnit at h
  split at h
  · next hhigh =>
    rw [isHighSurrogate_iff] at hhigh
    obtain ⟨held, behind, chars, hsettled, hbehind, es, low, hes, hlow, rfl, rfl⟩ := h
    rw [eq_whole_of_settled hsettled]
    refine ⟨held, _, _, rfl, .cons (.pair hds hes hhigh hlow) hbehind, ?_, rfl⟩
    simp only [List.cons_append, List.append_assoc]
  · next hhigh =>
    rw [isHighSurrogate_iff] at hhigh
    split at h
    · next hlow =>
      rw [isLowSurrogate_iff] at hlow
      obtain ⟨held, behind, chars, hheld, hbehind, rfl, rfl⟩ := h
      obtain ⟨high, hhalf, hheld⟩ := Option.bind_eq_some_iff.mp hheld
      obtain ⟨held, hchars, rfl⟩ := Option.map_eq_some_iff.mp hheld
      obtain ⟨_, _⟩ := q
      subst hhalf hchars
      refine ⟨held, behind, chars, rfl, hbehind, ds, k, hds, hlow, rfl, ?_⟩
      rw [List.reverse_cons, List.append_assoc, List.singleton_append]
    · next hlow =>
      rw [isLowSurrogate_iff] at hlow
      exact h.of_push (.unit hds (by omega))

end Quote

/-- Nothing but a quoted text is read as one. -/
lemma closes_of_readQuoted (h : readQuoted q cs = some (some s, rest)) : q.Closes cs s rest := by
  induction q, cs using readQuoted.induct with
  | case1 q => cases h
  | case2 q behind =>
    rw [readQuoted] at h
    obtain ⟨htext, rfl⟩ : q.text? = some s ∧ behind = rest := by simpa using h
    obtain ⟨held, hsettled, rfl⟩ := Option.map_eq_some_iff.mp htext
    rw [Quote.eq_whole_of_settled hsettled]
    refine ⟨held, [], [], rfl, .nil, rfl, ?_⟩
    rw [List.append_nil]
  | case3 q a b c d behind hnone =>
    rw [readQuoted, hnone] at h
    cases h
  | case4 q a b c d behind n hunit ih =>
    rw [readQuoted, hunit] at h
    exact (ih h).of_pushUnit (hex4_eq_some_iff.mp hunit)
  | case5 q e behind hnot hnone =>
    rw [readQuoted, hnone] at h
    · cases h
    · exact hnot
  | case6 q e behind hnot c hescape ih =>
    rw [readQuoted, hescape] at h
    · exact (ih h).of_push (.letter (simpleEscape_eq_some_iff.mp hescape))
    · exact hnot
  | case7 q c behind hquote hunit hescape hbad =>
    rw [readQuoted, if_pos hbad] at h
    · cases h
    all_goals assumption
  | case8 q c behind hquote hunit hescape hbad ih =>
    rw [readQuoted, if_neg hbad] at h
    · rw [not_or, Nat.not_lt] at hbad
      exact (ih h).of_push (.plain hbad.2 hquote hbad.1)
    all_goals assumption

/-- A text that is read up to the closing quote is the quoted one. -/
lemma isQuoted_of_readText (h : readText cs = some (some s, rest)) :
    ∃ text, IsQuoted text s.toList ∧ cs = text ++ '"' :: rest := by
  obtain ⟨held, text, chars, hheld, htext, rfl, rfl⟩ := closes_of_readQuoted h
  cases hheld
  refine ⟨text, ?_, rfl⟩
  rwa [List.reverse_nil, List.nil_append, String.toList_ofList]

end Recital.Json

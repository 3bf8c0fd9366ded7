import Recital.Proofs.Json.Grammar
import Recital.Proofs.Json.Normal

/-!
# Texts are read by the grammar

The reader finds the value that the grammar gives a text, and finds none in any other text
(`Json.parse?_eq_some_iff`).  The two directions are apart.  A text that denotes a value is read as
its draft whatever stands behind it (`Json.Denotes.isFound`), by induction on the derivation.  What
is read is the text of a value (`Json.readsValues`), by induction on the fuel of the reader,
and only where the draft is a value: the reader passes over numbers that are too large and halves of
pairs, and leaves them to the draft.
-/

namespace Recital.Json

open Draft

variable {cs ws text rest : List Char} {c : Char} {fuel depth n : Nat} {d : Draft} {j raw : Json}

/-! ### Spaces and separators -/

lemma isSpaces_iff : IsSpaces ws ↔ ∀ c ∈ ws, isSpace c = true := by
  unfold IsSpaces isSpace
  simp only [Bool.or_eq_true, beq_iff_eq, or_assoc]

/-- A separator or the end of an array or an object. -/
def Separates (cs : List Char) : Prop := ∃ c rest, cs = c :: rest ∧ (c = ',' ∨ c = ']' ∨ c = '}')

lemma Separates.skipSpace_append (hws : IsSpaces ws) (h : Separates cs) :
    skipSpace (ws ++ cs) = cs := by
  rw [Json.skipSpace_append (isSpaces_iff.mp hws)]
  obtain ⟨c, rest, rfl, rfl | rfl | rfl⟩ := h <;> exact skipSpace_cons rfl

/-- Spaces end a number. -/
lemma IsSpaces.stops (hws : IsSpaces ws) (h : Stops cs) : Stops (ws ++ cs) := by
  cases ws with
  | nil => exact h
  | cons w ws =>
    intro c hc
    cases hc
    rcases hws w List.mem_cons_self with rfl | rfl | rfl | rfl <;> rfl

lemma Separates.stops (h : Separates cs) : Stops cs := by
  obtain ⟨c, rest, rfl, rfl | rfl | rfl⟩ := h <;> intro c hc <;> cases hc <;> rfl

/-! ### What denotes a value is read -/

/-- The text is read as the draft, whatever stands behind it that does not belong to a number. -/
def IsDrafted (text : List Char) (d : Draft) : Prop :=
  ∀ fuel rest, text.length < fuel → Stops rest → readValue fuel (text ++ rest) = some (d, rest)

lemma isDrafted_of_succ (h : ∀ fuel rest, text.length ≤ fuel → Stops rest →
    readValue (fuel + 1) (text ++ rest) = some (d, rest)) : IsDrafted text d := by
  intro fuel rest hfuel hrest
  cases fuel with
  | zero => cases hfuel
  | succ fuel => exact h fuel rest (Nat.le_of_lt_succ hfuel) hrest

/-- The text is read as the draft of a value of which this is the normal form. -/
def IsFound (depth : Nat) (text : List Char) (j : Json) : Prop :=
  ∃ d raw, IsDrafted text d ∧ d.value? .all depth = some raw ∧ raw.normalize = j

/-- An item is read with the spaces before it. -/
lemma Item.readValue {i : Item} (hi : i.IsSpaced) (h : IsDrafted i.text d)
    (hfuel : i.text.length < fuel) (hcs : Separates cs) :
    Json.readValue fuel (i.chars ++ cs) = some (d, i.after ++ cs) := by
  unfold chars
  rw [List.append_assoc, List.append_assoc, readValue_space (isSpaces_iff.mp hi.before)]
  exact h fuel _ hfuel (hi.after.stops hcs.stops)

/-- The items of an array are read one after the other. -/
lemma readItems_of_isDrafted {i : Item} {items : List Item} {d : Item → Draft}
    (hspaced : ∀ x ∈ i :: items, x.IsSpaced) (h : ∀ x ∈ i :: items, IsDrafted x.text (d x))
    (held : List Draft) (hfuel : ([','].intercalate ((i :: items).map Item.chars)).length < fuel) :
    readItems (fuel + 1) held ([','].intercalate ((i :: items).map Item.chars) ++ ']' :: rest) =
      some (.arr (held.reverse ++ (i :: items).map d), rest) := by
  have hi := hspaced i List.mem_cons_self
  have hd := h i List.mem_cons_self
  induction items generalizing i held fuel with
  | nil =>
    have hclose : Separates (']' :: rest) := ⟨_, _, rfl, .inr (.inl rfl)⟩
    simp only [List.map_cons, List.map_nil, List.intercalate_singleton] at hfuel ⊢
    have hlength : i.text.length < fuel := by
      simp only [Item.chars, List.length_append] at hfuel
      omega
    rw [readItems, Item.readValue hi hd hlength hclose]
    simp only [bind, Option.bind_some]
    rw [hclose.skipSpace_append hi.after, List.reverse_cons]
    rfl
  | cons x items ih =>
    have hcomma : ∀ tail, Separates (',' :: tail) := fun tail => ⟨_, _, rfl, .inl rfl⟩
    simp only [List.map_cons, List.intercalate_cons_cons, List.append_assoc, List.cons_append,
      List.nil_append, List.length_append, List.length_cons] at hfuel ih ⊢
    have hlength : i.text.length < fuel := by
      simp only [Item.chars, List.length_append] at hfuel
      omega
    cases fuel with
    | zero => cases hlength
    | succ fuel =>
      rw [readItems, Item.readValue hi hd hlength (hcomma _)]
      simp only [bind, Option.bind_some]
      rw [(hcomma _).skipSpace_append hi.after]
      have hx := List.mem_cons_of_mem i (List.mem_cons_self (a := x) (l := items))
      refine (ih (fun y hy => hspaced y (.tail _ hy)) (fun y hy => h y (.tail _ hy)) (d i :: held)
        (by omega) (hspaced x hx) (h x hx)).trans ?_
      rw [List.reverse_cons, List.append_assoc, List.singleton_append]

lemma expect_append (hws : IsSpaces ws) (hc : isSpace c = false) :
    expect c (ws ++ c :: cs) = some cs := by
  rw [expect_space (isSpaces_iff.mp hws), expect_cons hc]

/-- One field is read, and what follows it decides how to go on. -/
lemma Field.readFields {f : Field} (hf : f.IsKeyed) (h : IsDrafted f.text d)
    (hfuel : f.text.length < fuel) (hc : c = ',' ∨ c = '}') (held : List (Option String × Draft)) :
    Json.readFields (fuel + 1) held (f.chars ++ c :: rest) =
      if c = ',' then Json.readFields fuel ((some f.key, d) :: held) rest
      else some (.obj ((some f.key, d) :: held).reverse, rest) := by
  have hcs : Separates (c :: rest) := ⟨c, rest, rfl, hc.imp_right .inr⟩
  unfold chars
  simp only [List.append_assoc, List.cons_append]
  rw [Json.readFields, expect_append hf.margin rfl]
  simp only [bind, Option.bind_some]
  rw [hf.quoted.readText]
  simp only [Option.bind_some]
  rw [expect_append hf.gap rfl]
  simp only [Option.bind_some]
  rw [Item.readValue hf.item h hfuel hcs]
  simp only [Option.bind_some]
  rw [hcs.skipSpace_append hf.item.after]
  rcases hc with rfl | rfl <;> rfl

/-- The fields of an object are read one after the other. -/
lemma readFields_of_isDrafted {f : Field} {fields : List Field} {d : Field → Draft}
    (hkeyed : ∀ x ∈ f :: fields, x.IsKeyed) (h : ∀ x ∈ f :: fields, IsDrafted x.text (d x))
    (held : List (Option String × Draft))
    (hfuel : ([','].intercalate ((f :: fields).map Field.chars)).length < fuel) :
    readFields (fuel + 1) held ([','].intercalate ((f :: fields).map Field.chars) ++ '}' :: rest) =
      some (.obj (held.reverse ++ (f :: fields).map fun x => (some x.key, d x)), rest) := by
  have hf := hkeyed f List.mem_cons_self
  have hd := h f List.mem_cons_self
  induction fields generalizing f held fuel with
  | nil =>
    simp only [List.map_cons, List.map_nil, List.intercalate_singleton] at hfuel ⊢
    have hlength : f.text.length < fuel := by
      simp only [Field.chars, Item.chars, List.length_append, List.length_cons] at hfuel
      omega
    rw [Field.readFields hf hd hlength (.inr rfl), List.reverse_cons]
    rfl
  | cons x fields ih =>
    simp only [List.map_cons, List.intercalate_cons_cons, List.append_assoc, List.cons_append,
      List.nil_append, List.length_append, List.length_cons] at hfuel ih ⊢
    have hlength : f.text.length < fuel := by
      simp only [Field.chars, Item.chars, List.length_append, List.length_cons] at hfuel
      omega
    cases fuel with
    | zero => cases hlength
    | succ fuel =>
      rw [Field.readFields hf hd hlength (.inl rfl), if_pos rfl]
      have hx := List.mem_cons_of_mem f (List.mem_cons_self (a := x) (l := fields))
      refine (ih (fun y hy => hkeyed y (.tail _ hy)) (fun y hy => h y (.tail _ hy))
        ((some f.key, d f) :: held) (by omega) (hkeyed x hx) (h x hx)).trans ?_
      rw [List.reverse_cons, List.append_assoc, List.singleton_append]

lemma items?_map {items : List Item} {d : Item → Draft} {raw : Item → Json}
    (h : ∀ i ∈ items, (d i).value? .all depth = some (raw i)) :
    items? (items.map d) .all n depth = some (items.map raw) := by
  induction items generalizing n with
  | nil => rfl
  | cons i items ih =>
    have hi : (d i).value? (Interest.all.item n) depth = some (raw i) := h i List.mem_cons_self
    rw [List.map_cons, items?, hi, ih fun x hx => h x (.tail _ hx)]
    rfl

lemma fields?_map {fields : List Field} {d : Field → Draft} {raw : Field → Json}
    (h : ∀ f ∈ fields, (d f).value? .all depth = some (raw f)) :
    fields? (fields.map fun f => (some f.key, d f)) .all depth =
      some (fields.map fun f => (f.key, raw f)) := by
  induction fields with
  | nil => rfl
  | cons f fields ih =>
    rw [List.map_cons, fields?]
    simp only [Interest.field?]
    rw [h f List.mem_cons_self, ih fun x hx => h x (.tail _ hx)]
    rfl

/-- Of several fields with one key the last one is kept. -/
lemma lookup_normalizeFields (fields done : List (String × Json)) (key : String) :
    (normalizeFields fields done).lookup key =
      ((fields.reverse.map fun e => (e.1, e.2.normalize)).lookup key).or (done.lookup key) := by
  induction fields generalizing done with
  | nil => rfl
  | cons e fields ih =>
    obtain ⟨k, x⟩ := e
    rw [normalizeFields, ih, Table.lookup_insertSorted, List.reverse_cons, List.map_append,
      List.lookup_append, Option.or_assoc]
    congr 1
    by_cases hkey : key = k
    · subst hkey
      simp
    · rw [if_neg hkey, List.map_cons, List.map_nil, Table.lookup_cons_of_ne _ _ hkey]
      rfl

/-- The entries of an object are those that the fields give. -/
lemma normalizeFields_eq_iff {fields : List (String × Json)} {entries : List (String × Json)} :
    normalizeFields fields [] = entries ↔ KeysIncrease entries ∧ ∀ key, entries.lookup key =
      (fields.reverse.map fun e => (e.1, e.2.normalize)).lookup key := by
  have hlookup : ∀ key, (normalizeFields fields []).lookup key =
      (fields.reverse.map fun e => (e.1, e.2.normalize)).lookup key := fun key => by
    rw [lookup_normalizeFields]
    exact Option.or_none
  have hsorted : KeysIncrease (normalizeFields fields []) := keysIncrease_normalizeFields .nil
  constructor
  · rintro rfl
    exact ⟨hsorted, hlookup⟩
  · rintro ⟨hincrease, hentries⟩
    exact Table.eq_of_lookup hsorted hincrease fun key => (hlookup key).trans (hentries key).symm

lemma readValue_string (cs : List Char) :
    readValue (fuel + 1) ('"' :: cs) = (readText cs).map fun r => (.str r.1, r.2) := by
  rw [readValue, skipSpace_cons rfl]
  rfl

lemma readValue_noItems (hws : IsSpaces ws) :
    readValue (fuel + 1) ('[' :: (ws ++ ']' :: rest)) = some (.arr [], rest) := by
  have hclose : Separates (']' :: rest) := ⟨_, _, rfl, .inr (.inl rfl)⟩
  rw [readValue, skipSpace_cons rfl]
  simp only [hclose.skipSpace_append hws]

lemma readValue_noFields (hws : IsSpaces ws) :
    readValue (fuel + 1) ('{' :: (ws ++ '}' :: rest)) = some (.obj [], rest) := by
  have hclose : Separates ('}' :: rest) := ⟨_, _, rfl, .inr (.inr rfl)⟩
  rw [readValue, skipSpace_cons rfl]
  simp only [hclose.skipSpace_append hws]

/-- The text of a value is read as one. -/
lemma Denotes.isFound (h : Denotes depth text j) : IsFound depth text j := by
  induction h with
  | null => exact ⟨.null, .null, isDrafted_of_succ fun _ _ _ _ => rfl, rfl, rfl⟩
  | yes => exact ⟨.bool true, .bool true, isDrafted_of_succ fun _ _ _ _ => rfl, rfl, rfl⟩
  | no => exact ⟨.bool false, .bool false, isDrafted_of_succ fun _ _ _ _ => rfl, rfl, rfl⟩
  | @num depth cs n h =>
    refine ⟨.num (some n), .num n, isDrafted_of_succ fun fuel rest _ hrest => ?_, rfl, rfl⟩
    exact readValue_of_readNumber (h.readNumber hrest)
  | @str depth cs s h =>
    refine ⟨.str (some s), .str s, isDrafted_of_succ fun fuel rest _ _ => ?_, rfl, rfl⟩
    rw [List.cons_append, List.append_assoc, List.singleton_append, readValue_string, h.readText]
    rfl
  | @noItems depth ws hws =>
    refine ⟨.arr [], .arr [], isDrafted_of_succ fun fuel rest _ _ => ?_, rfl, rfl⟩
    rw [List.cons_append, List.append_assoc, List.singleton_append, readValue_noItems hws]
  | @items depth items hne hspaced _ ih =>
    choose! d raw hdrafted hvalue hnormal using ih
    obtain ⟨i, items, rfl⟩ := List.exists_cons_of_ne_nil hne
    refine ⟨.arr ((i :: items).map d), .arr ((i :: items).map raw), ?_, ?_, ?_⟩
    · intro fuel rest hfuel _
      simp only [List.length_cons, List.length_append] at hfuel
      obtain ⟨fuel, rfl⟩ : ∃ m, fuel = m + 2 := ⟨fuel - 2, by omega⟩
      rw [List.cons_append, List.append_assoc, List.singleton_append]
      exact readValue_items (readItems_of_isDrafted hspaced hdrafted [] (by omega))
    · rw [value?, items?_map hvalue]
      rfl
    · rw [normalize, normalizeItems_eq, List.map_map]
      exact congrArg Json.arr (List.map_congr_left hnormal)
  | @noFields depth ws hws =>
    refine ⟨.obj [], .obj [], isDrafted_of_succ fun fuel rest _ _ => ?_, rfl, rfl⟩
    rw [List.cons_append, List.append_assoc, List.singleton_append, readValue_noFields hws]
  | @fields depth fields entries hne hkeyed _ hincrease hentries ih =>
    choose! d raw hdrafted hvalue hnormal using ih
    obtain ⟨f, fields, rfl⟩ := List.exists_cons_of_ne_nil hne
    refine ⟨.obj ((f :: fields).map fun f => (some f.key, d f)),
      .obj ((f :: fields).map fun f => (f.key, raw f)), ?_, ?_, ?_⟩
    · intro fuel rest hfuel _
      simp only [List.length_cons, List.length_append] at hfuel
      obtain ⟨fuel, rfl⟩ : ∃ m, fuel = m + 2 := ⟨fuel - 2, by omega⟩
      rw [List.cons_append, List.append_assoc, List.singleton_append]
      exact readValue_fields (readFields_of_isDrafted hkeyed hdrafted [] (by omega))
    · rw [value?, fields?_map hvalue]
      rfl
    · rw [normalize, normalizeFields_eq_iff.mpr ⟨hincrease, fun key => ?_⟩]
      rw [hentries, ← List.map_reverse, List.map_map]
      refine congrArg (List.lookup key) (List.map_congr_left fun f hf => ?_)
      exact Prod.ext rfl (hnormal f (List.mem_reverse.mp hf)).symm

/-! ### What is read denotes a value -/

/-- The characters start with spaces and the text of the value. -/
def Opens (depth : Nat) (cs : List Char) (j : Json) (rest : List Char) : Prop :=
  ∃ ws text, IsSpaces ws ∧ Denotes depth text j ∧ cs = ws ++ (text ++ rest)

/-- With the fuel nothing is read but the text of a value, if its draft is one. -/
def ReadsValues (fuel : Nat) : Prop :=
  ∀ ⦃cs rest d depth raw⦄, readValue fuel cs = some (d, rest) → d.value? .all depth = some raw →
    Opens depth cs raw.normalize rest

lemma exists_skipSpace (cs : List Char) : ∃ ws, IsSpaces ws ∧ cs = ws ++ skipSpace cs :=
  ⟨cs.takeWhile isSpace, isSpaces_iff.mpr fun _ hc => List.mem_takeWhile_imp hc,
    List.takeWhile_append_dropWhile.symm⟩

lemma exists_of_expect (h : expect c cs = some rest) :
    ∃ ws, IsSpaces ws ∧ cs = ws ++ c :: rest := by
  obtain ⟨ws, hws, hcs⟩ := exists_skipSpace cs
  unfold expect at h
  split at h
  · next d tail hskip =>
    split at h
    · next heq =>
      cases h
      rw [hskip, heq] at hcs
      exact ⟨ws, hws, hcs⟩
    · cases h
  · cases h

lemma eq_append_of_expectWord {word : List Char} (h : expectWord word cs = some rest) :
    cs = word ++ rest := by
  induction word generalizing cs with
  | nil => exact Option.some.inj h
  | cons w word ih =>
    cases cs with
    | nil => cases h
    | cons c cs =>
      rw [expectWord] at h
      split at h
      · next heq => rw [heq, ih h, List.cons_append]
      · cases h

lemma items?_cons_eq_some {ds : List Draft} {raws : List Json}
    (h : items? (d :: ds) .all n depth = some raws) : ∃ x xs, raws = x :: xs ∧
      d.value? .all depth = some x ∧ items? ds .all (n + 1) depth = some xs := by
  rw [items?] at h
  simp only [bind, Option.bind_eq_some_iff] at h
  obtain ⟨x, hx, xs, hxs, heq⟩ := h
  cases heq
  exact ⟨x, xs, rfl, hx, hxs⟩

/-- The characters are the items of an array with these values, and the end of the array. -/
def HoldItems (depth : Nat) (cs : List Char) (values : List Json) (rest : List Char) : Prop :=
  ∃ items : List Item, items ≠ [] ∧ (∀ i ∈ items, i.IsSpaced) ∧
    (∀ i ∈ items, Denotes depth i.text i.value) ∧ items.map Item.value = values ∧
    cs = [','].intercalate (items.map Item.chars) ++ ']' :: rest

/-- Items that are read are those of an array. -/
lemma holdItems_of_readItems {held : List Draft} (hvalues : ∀ m < fuel, ReadsValues m)
    (h : readItems fuel held cs = some (d, rest)) : ∃ ds, d = .arr (held.reverse ++ ds) ∧
      ∀ ⦃depth n raws⦄, items? ds .all n depth = some raws →
        HoldItems depth cs (raws.map normalize) rest := by
  induction fuel generalizing held cs with
  | zero => cases h
  | succ fuel ih =>
    rw [readItems] at h
    simp only [bind, Option.bind_eq_some_iff] at h
    obtain ⟨⟨d₀, behind⟩, hread, h⟩ := h
    obtain ⟨after, hafter, hbehind⟩ := exists_skipSpace behind
    dsimp only at h
    split at h
    · next tail hskip =>
      obtain ⟨ds, rfl, hds⟩ := ih (fun m hm => hvalues m (hm.trans (Nat.lt_succ_self _))) h
      refine ⟨d₀ :: ds, by simp, fun depth n raws hraws => ?_⟩
      obtain ⟨x, xs, rfl, hx, hxs⟩ := items?_cons_eq_some hraws
      obtain ⟨before, text, hbefore, htext, rfl⟩ := hvalues fuel (Nat.lt_succ_self _) hread hx
      obtain ⟨items, hne, hspaced, hitems, hmap, rfl⟩ := hds hxs
      obtain ⟨y, items, rfl⟩ := List.exists_cons_of_ne_nil hne
      refine ⟨⟨before, text, after, x.normalize⟩ :: y :: items, List.cons_ne_nil _ _,
        List.forall_mem_cons.mpr ⟨⟨hbefore, hafter⟩, hspaced⟩,
        List.forall_mem_cons.mpr ⟨htext, hitems⟩, congrArg (x.normalize :: ·) hmap, ?_⟩
      rw [hbehind, hskip]
      simp only [List.map_cons, List.intercalate_cons_cons, Item.chars, List.append_assoc,
        List.cons_append, List.nil_append]
    · next tail hskip =>
      cases h
      refine ⟨[d₀], congrArg Draft.arr List.reverse_cons, fun depth n raws hraws => ?_⟩
      obtain ⟨x, xs, rfl, hx, hxs⟩ := items?_cons_eq_some hraws
      cases hxs
      obtain ⟨before, text, hbefore, htext, rfl⟩ := hvalues fuel (Nat.lt_succ_self _) hread hx
      refine ⟨[⟨before, text, after, x.normalize⟩], List.cons_ne_nil _ _,
        List.forall_mem_singleton.mpr ⟨hbefore, hafter⟩,
        List.forall_mem_singleton.mpr htext, rfl, ?_⟩
      rw [hbehind, hskip]
      simp only [List.map_cons, List.map_nil, List.intercalate_singleton, Item.chars,
        List.append_assoc]
    · cases h

lemma fields?_cons_eq_some {key : Option String} {ds : List (Option String × Draft)}
    {raws : List (String × Json)} (h : fields? ((key, d) :: ds) .all depth = some raws) :
    ∃ name x xs, key = some name ∧ raws = (name, x) :: xs ∧ d.value? .all depth = some x ∧
      fields? ds .all depth = some xs := by
  cases key with
  | none => cases h
  | some name =>
    rw [fields?] at h
    simp only [Interest.field?, bind, Option.bind_eq_some_iff] at h
    obtain ⟨x, hx, xs, hxs, heq⟩ := h
    cases heq
    exact ⟨name, x, xs, rfl, rfl, hx, hxs⟩

/-- The characters are the fields of an object with these keys and values, and the end of the
object. -/
def HoldFields (depth : Nat) (cs : List Char) (entries : List (String × Json)) (rest : List Char) :
    Prop :=
  ∃ fields : List Field, fields ≠ [] ∧ (∀ f ∈ fields, f.IsKeyed) ∧
    (∀ f ∈ fields, Denotes depth f.text f.value) ∧
    (fields.map fun f => (f.key, f.value)) = entries ∧
    cs = [','].intercalate (fields.map Field.chars) ++ '}' :: rest

/-- Fields that are read are those of an object. -/
lemma holdFields_of_readFields {held : List (Option String × Draft)}
    (hvalues : ∀ m < fuel, ReadsValues m) (h : readFields fuel held cs = some (d, rest)) :
    ∃ ds, d = .obj (held.reverse ++ ds) ∧ ∀ ⦃depth raws⦄, fields? ds .all depth = some raws →
      HoldFields depth cs (raws.map fun e => (e.1, e.2.normalize)) rest := by
  induction fuel generalizing held cs with
  | zero => cases h
  | succ fuel ih =>
    rw [readFields] at h
    simp only [bind, Option.bind_eq_some_iff] at h
    obtain ⟨quoted, hquote, ⟨key, gapped⟩, hkey, valued, hcolon, ⟨d₀, behind⟩, hread, h⟩ := h
    obtain ⟨margin, hmargin, rfl⟩ := exists_of_expect hquote
    obtain ⟨gap, hgap, rfl⟩ := exists_of_expect hcolon
    obtain ⟨after, hafter, hbehind⟩ := exists_skipSpace behind
    dsimp only at h
    split at h
    · next tail hskip =>
      obtain ⟨ds, rfl, hds⟩ := ih (fun m hm => hvalues m (hm.trans (Nat.lt_succ_self _))) h
      refine ⟨(key, d₀) :: ds, by simp, fun depth raws hraws => ?_⟩
      obtain ⟨name, x, xs, rfl, rfl, hx, hxs⟩ := fields?_cons_eq_some hraws
      obtain ⟨before, text, hbefore, htext, rfl⟩ := hvalues fuel (Nat.lt_succ_self _) hread hx
      obtain ⟨word, hword, rfl⟩ := isQuoted_of_readText hkey
      obtain ⟨fields, hne, hkeyed, hfields, hmap, rfl⟩ := hds hxs
      obtain ⟨y, fields, rfl⟩ := List.exists_cons_of_ne_nil hne
      refine ⟨⟨⟨before, text, after, x.normalize⟩, margin, word, name, gap⟩ :: y :: fields,
        List.cons_ne_nil _ _,
        List.forall_mem_cons.mpr ⟨⟨hword, hmargin, hgap, ⟨hbefore, hafter⟩⟩, hkeyed⟩,
        List.forall_mem_cons.mpr ⟨htext, hfields⟩, congrArg ((name, x.normalize) :: ·) hmap, ?_⟩
      rw [hbehind, hskip]
      simp only [List.map_cons, List.intercalate_cons_cons, Field.chars, Item.chars,
        List.append_assoc, List.cons_append, List.nil_append]
    · next tail hskip =>
      cases h
      refine ⟨[(key, d₀)], congrArg Draft.obj List.reverse_cons, fun depth raws hraws => ?_⟩
      obtain ⟨name, x, xs, rfl, rfl, hx, hxs⟩ := fields?_cons_eq_some hraws
      cases hxs
      obtain ⟨before, text, hbefore, htext, rfl⟩ := hvalues fuel (Nat.lt_succ_self _) hread hx
      obtain ⟨word, hword, rfl⟩ := isQuoted_of_readText hkey
      refine ⟨[⟨⟨before, text, after, x.normalize⟩, margin, word, name, gap⟩], List.cons_ne_nil _ _,
        List.forall_mem_singleton.mpr ⟨hword, hmargin, hgap, ⟨hbefore, hafter⟩⟩,
        List.forall_mem_singleton.mpr htext, rfl, ?_⟩
      rw [hbehind, hskip]
      simp only [List.map_cons, List.map_nil, List.intercalate_singleton, Field.chars, Item.chars,
        List.append_assoc, List.cons_append]
    · cases h

lemma value?_arr_eq_some {ds : List Draft} (h : (Draft.arr ds).value? .all depth = some raw) :
    ∃ level raws, depth = level + 1 ∧ items? ds .all 0 level = some raws ∧ raw = .arr raws := by
  cases depth with
  | zero => cases h
  | succ level =>
    obtain ⟨raws, hraws, heq⟩ := Option.map_eq_some_iff.mp h
    exact ⟨level, raws, rfl, hraws, heq.symm⟩

lemma value?_obj_eq_some {ds : List (Option String × Draft)}
    (h : (Draft.obj ds).value? .all depth = some raw) :
    ∃ level raws, depth = level + 1 ∧ fields? ds .all level = some raws ∧ raw = .obj raws := by
  cases depth with
  | zero => cases h
  | succ level =>
    obtain ⟨raws, hraws, heq⟩ := Option.map_eq_some_iff.mp h
    exact ⟨level, raws, rfl, hraws, heq.symm⟩

/-- Items are the inside of an array. -/
lemma HoldItems.denotes {raws : List Json} (h : HoldItems depth cs (raws.map normalize) rest) :
    ∃ text, Denotes (depth + 1) text (normalize (.arr raws)) ∧ '[' :: cs = text ++ rest := by
  obtain ⟨items, hne, hspaced, hitems, hmap, rfl⟩ := h
  have hdenotes := Denotes.items hne hspaced hitems
  rw [hmap, ← normalizeItems_eq] at hdenotes
  refine ⟨_, hdenotes, ?_⟩
  simp only [List.cons_append, List.append_assoc, List.nil_append]

/-- Fields are the inside of an object. -/
lemma HoldFields.denotes {raws : List (String × Json)}
    (h : HoldFields depth cs (raws.map fun e => (e.1, e.2.normalize)) rest) :
    ∃ text, Denotes (depth + 1) text (normalize (.obj raws)) ∧ '{' :: cs = text ++ rest := by
  obtain ⟨fields, hne, hkeyed, hfields, hmap, rfl⟩ := h
  obtain ⟨hincrease, hentries⟩ := normalizeFields_eq_iff.mp (Eq.refl (normalizeFields raws []))
  refine ⟨_, .fields hne hkeyed hfields hincrease fun key => ?_, ?_⟩
  · rw [hentries, List.map_reverse, List.map_reverse, hmap]
  · simp only [List.cons_append, List.append_assoc, List.nil_append]

/-- What is read is the text of a value. -/
lemma readsValues (fuel : Nat) : ReadsValues fuel := by
  induction fuel using Nat.strong_induction_on with
  | _ fuel ih =>
  intro cs rest d depth raw h hraw
  suffices htext : ∃ text, Denotes depth text raw.normalize ∧ skipSpace cs = text ++ rest by
    obtain ⟨text, hdenotes, hskip⟩ := htext
    obtain ⟨ws, hws, hcs⟩ := exists_skipSpace cs
    exact ⟨ws, text, hws, hdenotes, hcs.trans (congrArg (ws ++ ·) hskip)⟩
  cases fuel with
  | zero => cases h
  | succ fuel =>
    have hvalues : ∀ m < fuel, ReadsValues m := fun m hm => ih m (hm.trans (Nat.lt_succ_self _))
    rw [readValue] at h
    split at h
    next => cases h
    next tail hskip =>
      obtain ⟨⟨s?, behind⟩, htext, heq⟩ := Option.map_eq_some_iff.mp h
      cases heq
      obtain ⟨s, rfl, rfl⟩ := Option.map_eq_some_iff.mp hraw
      obtain ⟨text, hquoted, rfl⟩ := isQuoted_of_readText htext
      refine ⟨_, .str hquoted, hskip.trans ?_⟩
      simp only [List.cons_append, List.append_assoc, List.nil_append]
    next tail hskip =>
      rw [hskip]
      split at h
      · next hclose =>
        cases h
        obtain ⟨level, raws, rfl, hraws, rfl⟩ := value?_arr_eq_some hraw
        cases hraws
        obtain ⟨inner, hinner, htail⟩ := exists_skipSpace tail
        refine ⟨_, .noItems hinner, ?_⟩
        rw [htail, hclose]
        simp only [List.cons_append, List.append_assoc, List.nil_append]
      · rw [readItems_skipSpace] at h
        obtain ⟨ds, rfl, hds⟩ := holdItems_of_readItems hvalues h
        obtain ⟨level, raws, rfl, hraws, rfl⟩ := value?_arr_eq_some hraw
        exact (hds hraws).denotes
    next tail hskip =>
      rw [hskip]
      split at h
      · next hclose =>
        cases h
        obtain ⟨level, raws, rfl, hraws, rfl⟩ := value?_obj_eq_some hraw
        cases hraws
        obtain ⟨inner, hinner, htail⟩ := exists_skipSpace tail
        refine ⟨_, .noFields hinner, ?_⟩
        rw [htail, hclose]
        simp only [List.cons_append, List.append_assoc, List.nil_append]
      · rw [readFields_skipSpace] at h
        obtain ⟨ds, rfl, hds⟩ := holdFields_of_readFields hvalues h
        obtain ⟨level, raws, rfl, hraws, rfl⟩ := value?_obj_eq_some hraw
        exact (hds hraws).denotes
    next tail hskip =>
      obtain ⟨behind, hword, heq⟩ := Option.map_eq_some_iff.mp h
      cases heq
      cases hraw
      exact ⟨_, .null, hskip.trans (congrArg ('n' :: ·) (eq_append_of_expectWord hword))⟩
    next tail hskip =>
      obtain ⟨behind, hword, heq⟩ := Option.map_eq_some_iff.mp h
      cases heq
      cases hraw
      exact ⟨_, .yes, hskip.trans (congrArg ('t' :: ·) (eq_append_of_expectWord hword))⟩
    next tail hskip =>
      obtain ⟨behind, hword, heq⟩ := Option.map_eq_some_iff.mp h
      cases heq
      cases hraw
      exact ⟨_, .no, hskip.trans (congrArg ('f' :: ·) (eq_append_of_expectWord hword))⟩
    next =>
      obtain ⟨⟨n?, behind⟩, hnumber, heq⟩ := Option.map_eq_some_iff.mp h
      cases heq
      obtain ⟨n, rfl, rfl⟩ := Option.map_eq_some_iff.mp hraw
      obtain ⟨text, hn, htext⟩ := isNumber_of_readNumber hnumber
      exact ⟨text, .num hn, htext⟩

/-! ### Texts -/

/-- A text is read as the value that the grammar gives it, and as nothing if there is none. -/
theorem parse?_eq_some_iff {s : String} : parse? s = some j ↔ IsText s j := by
  unfold parse? read? readFor? draft?
  simp only [Option.map_eq_some_iff, Option.bind_eq_some_iff, bind]
  constructor
  · rintro ⟨raw, ⟨d, ⟨⟨d', rest⟩, hread, hover⟩, hraw⟩, rfl⟩
    obtain ⟨hempty, rfl⟩ : (skipSpace rest).isEmpty = true ∧ d' = d := by simpa using hover
    obtain ⟨ws, text, hws, htext, hs⟩ := readsValues _ hread hraw
    obtain ⟨after, hafter, hrest⟩ := exists_skipSpace rest
    rw [List.isEmpty_iff.mp hempty, List.append_nil] at hrest
    exact ⟨⟨ws, text, rest, raw.normalize⟩, ⟨hws, hrest ▸ hafter⟩, hs, rfl, htext⟩
  · rintro ⟨i, ⟨hbefore, hafter⟩, hs, rfl, htext⟩
    obtain ⟨d, raw, hdrafted, hraw, hnormal⟩ := htext.isFound
    have hstops : Stops i.after := by
      rw [← List.append_nil i.after]
      exact hafter.stops fun c hc => by cases hc
    have hlength : i.text.length < s.toList.length + 1 := by
      rw [hs]
      simp only [Item.chars, List.length_append]
      omega
    have hread : ∀ fuel, i.text.length < fuel → readValue fuel s.toList = some (d, i.after) := by
      intro fuel hfuel
      rw [hs, Item.chars, readValue_space (isSpaces_iff.mp hbefore)]
      exact hdrafted fuel _ hfuel hstops
    have hover : skipSpace i.after = [] := List.dropWhile_eq_nil_iff.mpr (isSpaces_iff.mp hafter)
    refine ⟨raw, ⟨d, ⟨(d, i.after), hread _ hlength, ?_⟩, hraw⟩, hnormal⟩
    simp [hover]

end Recital.Json

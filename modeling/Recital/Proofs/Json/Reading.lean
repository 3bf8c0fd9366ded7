import Mathlib.Data.List.DropRight
import Recital.Proofs.Json.Number
import Recital.Proofs.Json.Quoted

/-!
# Values read back

The spread text of a value is read back as the draft of the value.  A value is read to its end,
whatever follows that cannot belong to a number (`readValue_spread`), and the reader's fuel lasts
because every item and every field takes up at least one character.
-/

namespace Recital.Json

/-- Arrays and objects nest at most so many levels in the value, and its numbers can be written. -/
inductive Fits : Nat → Json → Prop
  | null {depth : Nat} : Fits depth .null
  | bool {depth : Nat} {b : Bool} : Fits depth (.bool b)
  | num {depth : Nat} {n : Number} (h : n.IsProper) : Fits depth (.num n)
  | str {depth : Nat} {s : String} : Fits depth (.str s)
  | arr {depth : Nat} {items : List Json} (h : ∀ j ∈ items, Fits depth j) :
    Fits (depth + 1) (.arr items)
  | obj {depth : Nat} {fields : List (String × Json)} (h : ∀ e ∈ fields, Fits depth e.2) :
    Fits (depth + 1) (.obj fields)

mutual

/-- The draft of a value. -/
def drafted : Json → Draft
  | .null => .null
  | .bool b => .bool b
  | .num n => .num (some n)
  | .str s => .str (some s)
  | .arr items => .arr (draftedItems items)
  | .obj fields => .obj (draftedFields fields)

/-- The drafts of the items of an array. -/
def draftedItems : List Json → List Draft
  | [] => []
  | j :: rest => drafted j :: draftedItems rest

/-- The drafts of the fields of an object. -/
def draftedFields : List (String × Json) → List (Option String × Draft)
  | [] => []
  | (k, j) :: rest => (some k, drafted j) :: draftedFields rest

end

variable {cs ws rest : List Char} {c : Char} {fuel depth level : Nat} {j : Json}

/-! ### Spaces -/

lemma skipSpace_append (h : ∀ c ∈ ws, isSpace c = true) : skipSpace (ws ++ cs) = skipSpace cs :=
  List.dropWhile_append_of_pos h

lemma skipSpace_cons (h : isSpace c = false) : skipSpace (c :: cs) = c :: cs := by
  unfold skipSpace
  rw [List.dropWhile_cons_of_neg (by rw [h]; exact Bool.false_ne_true)]

lemma isSpace_newline (level : Nat) : ∀ c ∈ newline level, isSpace c = true := by
  intro c hc
  rcases List.mem_cons.mp hc with rfl | hc
  · rfl
  · rw [List.eq_of_mem_replicate hc]
    rfl

lemma readValue_space (h : ∀ c ∈ ws, isSpace c = true) :
    readValue fuel (ws ++ cs) = readValue fuel cs := by
  cases fuel with
  | zero => rfl
  | succ fuel => rw [readValue, readValue, skipSpace_append h]

lemma expect_space (h : ∀ c ∈ ws, isSpace c = true) : expect c (ws ++ cs) = expect c cs := by
  unfold expect
  rw [skipSpace_append h]

lemma expect_cons (h : isSpace c = false) : expect c (c :: cs) = some cs := by
  unfold expect
  rw [skipSpace_cons h]
  exact if_pos rfl

/-! ### Values without parts -/

lemma readValue_quote (s : String) : readValue (fuel + 1) (quote s ++ rest) =
    some (.str (some s), rest) := by
  have hstep : ∀ cs, readValue (fuel + 1) ('"' :: cs) =
      (readText cs).map fun r => (.str r.1, r.2) := fun cs => by
    rw [readValue, skipSpace_cons rfl]
    rfl
  unfold quote
  rw [List.append_assoc, List.cons_append, hstep, List.singleton_append, readText_quote]
  rfl

/-- A number starts with its sign or with a digit. -/
lemma head_of_readNumber {r : Option Number × List Char} (h : readNumber cs = some r) :
    ∃ c tail, cs = c :: tail ∧ (c = '-' ∨ isDigit c = true) := by
  cases cs with
  | nil => cases h
  | cons c tail =>
    refine ⟨c, tail, rfl, or_iff_not_imp_left.mpr fun hsign => ?_⟩
    by_contra hdigit
    have hnone : readInteger (c :: tail) = none := by
      unfold readInteger readDigits1
      rw [List.takeWhile_cons_of_neg hdigit]
      rfl
    unfold readNumber at h
    split at h
    next heq =>
      split at heq
      · next hcons => exact hsign (List.cons.inj hcons).1
      · cases heq
        rw [hnone] at h
        cases h

lemma readValue_of_readNumber {r : Option Number × List Char} (h : readNumber cs = some r) :
    readValue (fuel + 1) cs = some (.num r.1, r.2) := by
  obtain ⟨c, tail, rfl, hhead⟩ := head_of_readNumber h
  have hnot : ∀ d : Char, d ≠ '-' → isDigit d = false → c ≠ d := by
    rintro d hsign hdigit rfl
    rcases hhead with rfl | hhead
    · exact hsign rfl
    · rw [hdigit] at hhead
      cases hhead
  have hspace : isSpace c = false := by
    unfold isSpace
    simp only [Bool.or_eq_false_iff, beq_eq_false_iff_ne]
    refine ⟨⟨⟨?_, ?_⟩, ?_⟩, ?_⟩ <;> exact hnot _ (by decide) rfl
  rw [readValue, skipSpace_cons hspace]
  split
  next heq => cases heq
  next heq => exact absurd (List.cons.inj heq).1 (hnot _ (by decide) rfl)
  next heq => exact absurd (List.cons.inj heq).1 (hnot _ (by decide) rfl)
  next heq => exact absurd (List.cons.inj heq).1 (hnot _ (by decide) rfl)
  next heq => exact absurd (List.cons.inj heq).1 (hnot _ (by decide) rfl)
  next heq => exact absurd (List.cons.inj heq).1 (hnot _ (by decide) rfl)
  next heq => exact absurd (List.cons.inj heq).1 (hnot _ (by decide) rfl)
  next =>
    rw [h]
    rfl

/-! ### Arrays and objects -/

/-- Behind a value in an array or an object there is nothing that could belong to a number. -/
lemma stops_newline (level : Nat) : Stops (newline level ++ cs) := by
  intro c hc
  cases hc
  rfl

lemma stops_comma : Stops (',' :: cs) := by
  intro c hc
  cases hc
  rfl

lemma skipSpace_skipSpace (cs : List Char) : skipSpace (skipSpace cs) = skipSpace cs :=
  List.dropWhile_idempotent isSpace cs

lemma readItems_skipSpace {held : List Draft} :
    readItems fuel held (skipSpace cs) = readItems fuel held cs := by
  cases fuel with
  | zero => rfl
  | succ fuel =>
    have hvalue : readValue fuel (skipSpace cs) = readValue fuel cs := by
      cases fuel with
      | zero => rfl
      | succ fuel => rw [readValue, readValue, skipSpace_skipSpace]
    rw [readItems, readItems, hvalue]

lemma readFields_skipSpace {held : List (Option String × Draft)} :
    readFields fuel held (skipSpace cs) = readFields fuel held cs := by
  cases fuel with
  | zero => rfl
  | succ fuel =>
    rw [readFields, readFields]
    unfold expect
    rw [skipSpace_skipSpace]

/-- Items that are read are the items of an array. -/
lemma readValue_items {r : Draft × List Char} (h : readItems fuel [] cs = some r) :
    readValue (fuel + 1) ('[' :: cs) = some r := by
  cases fuel with
  | zero => cases h
  | succ fuel =>
    have hitems : readItems (fuel + 1) [] (skipSpace cs) = some r := readItems_skipSpace.trans h
    rw [readValue, skipSpace_cons rfl]
    split
    next heq => cases heq
    next heq => exact absurd (List.cons.inj heq).1 (by decide)
    next heq =>
      rw [← (List.cons.inj heq).2]
      split
      · next hclose =>
        -- A closing bracket is no value.
        rw [hclose, readItems] at hitems
        cases fuel <;> cases hitems
      · exact hitems
    next heq => exact absurd (List.cons.inj heq).1 (by decide)
    next heq => exact absurd (List.cons.inj heq).1 (by decide)
    next heq => exact absurd (List.cons.inj heq).1 (by decide)
    next heq => exact absurd (List.cons.inj heq).1 (by decide)
    next hnot _ _ _ _ => exact (hnot _ rfl).elim

/-- Fields that are read are the fields of an object. -/
lemma readValue_fields {r : Draft × List Char} (h : readFields fuel [] cs = some r) :
    readValue (fuel + 1) ('{' :: cs) = some r := by
  cases fuel with
  | zero => cases h
  | succ fuel =>
    have hfields : readFields (fuel + 1) [] (skipSpace cs) = some r := readFields_skipSpace.trans h
    rw [readValue, skipSpace_cons rfl]
    split
    next heq => cases heq
    next heq => exact absurd (List.cons.inj heq).1 (by decide)
    next heq => exact absurd (List.cons.inj heq).1 (by decide)
    next heq =>
      rw [← (List.cons.inj heq).2]
      split
      · next hclose =>
        rw [hclose] at hfields
        cases hfields
      · exact hfields
    next heq => exact absurd (List.cons.inj heq).1 (by decide)
    next heq => exact absurd (List.cons.inj heq).1 (by decide)
    next heq => exact absurd (List.cons.inj heq).1 (by decide)
    next hnot _ _ _ => exact (hnot _ rfl).elim

/-- The value is read at every level, provided that the fuel exceeds the length of its text. -/
def IsRead (j : Json) : Prop :=
  ∀ fuel level rest, (spreadChars level j).length < fuel → Stops rest →
    readValue fuel (spreadChars level j ++ rest) = some (j.drafted, rest)

lemma IsRead.readValue (h : IsRead j) (hws : ∀ c ∈ ws, isSpace c = true)
    (hfuel : (spreadChars level j).length < fuel) (hrest : Stops rest) :
    Json.readValue fuel (ws ++ (spreadChars level j ++ rest)) = some (j.drafted, rest) := by
  rw [readValue_space hws]
  exact h fuel level rest hfuel hrest

lemma readItems_spread {items : List Json} (h : ∀ x ∈ j :: items, IsRead x) (held : List Draft)
    (hfuel : (spreadChars (level + 1) j ++ spreadItems level items).length < fuel) :
    readItems fuel held
        (newline (level + 1) ++ (spreadChars (level + 1) j ++ (spreadItems level items ++ rest))) =
      some (.arr (held.reverse ++ draftedItems (j :: items)), rest) := by
  induction items generalizing j held fuel with
  | nil =>
    cases fuel with
    | zero => cases hfuel
    | succ fuel =>
      have hlength : (spreadChars (level + 1) j).length < fuel := by
        simp only [spreadItems, List.length_append, List.length_singleton] at hfuel
        omega
      have hclose : skipSpace (newline level ++ [']'] ++ rest) = ']' :: rest := by
        rw [List.append_assoc, skipSpace_append (isSpace_newline level)]
        rfl
      have hstops : Stops (newline level ++ [']'] ++ rest) := by
        rw [List.append_assoc]
        exact stops_newline level
      rw [readItems, spreadItems,
        (h j List.mem_cons_self).readValue (isSpace_newline _) hlength hstops]
      simp only [bind, Option.bind_some]
      rw [hclose]
      simp [draftedItems]
  | cons x items ih =>
    cases fuel with
    | zero => cases hfuel
    | succ fuel =>
      have hlength : (spreadChars (level + 1) j).length < fuel ∧
          (spreadChars (level + 1) x ++ spreadItems level items).length < fuel := by
        simp only [spreadItems, List.length_append, List.length_cons] at hfuel ⊢
        omega
      rw [readItems, spreadItems, List.append_assoc, List.cons_append, List.cons_append,
        List.append_assoc, (h j List.mem_cons_self).readValue (isSpace_newline _) hlength.1
        stops_comma]
      simp only [bind, Option.bind_some]
      rw [skipSpace_cons rfl]
      refine (ih (fun y hy => h y (.tail _ hy)) (j.drafted :: held) hlength.2).trans ?_
      simp [draftedItems]

lemma expect_quote (hws : ∀ c ∈ ws, isSpace c = true) (k : String) :
    expect '"' (ws ++ (quote k ++ cs)) = some (k.toList.flatMap escape ++ '"' :: cs) := by
  unfold quote
  rw [expect_space hws, List.append_assoc, List.cons_append, expect_cons rfl]
  rfl

/-- One field is read, and what follows it decides how to go on. -/
lemma readFields_field {k : String} (h : IsRead j) (held : List (Option String × Draft))
    (hfuel : (spreadChars (level + 1) j).length < fuel) (hstops : Stops cs) :
    readFields (fuel + 1) held
        (newline (level + 1) ++ (quote k ++
          (':' :: ([' '] ++ (spreadChars (level + 1) j ++ cs))))) =
      match skipSpace cs with
      | ',' :: rest => readFields fuel ((some k, j.drafted) :: held) rest
      | '}' :: rest => some (.obj ((some k, j.drafted) :: held).reverse, rest)
      | _ => none := by
  have hblank : ∀ c ∈ [' '], isSpace c = true := fun c hc => by
    rw [List.mem_singleton.mp hc]
    rfl
  rw [readFields, expect_quote (isSpace_newline _)]
  simp only [bind, Option.bind_some]
  rw [readText_quote]
  simp only [Option.bind_some]
  rw [expect_cons rfl]
  simp only [Option.bind_some]
  rw [h.readValue hblank hfuel hstops]
  rfl

lemma readFields_spread {k : String} {fields : List (String × Json)}
    (h : ∀ e ∈ (k, j) :: fields, IsRead e.2) (held : List (Option String × Draft))
    (hfuel : (spreadChars (level + 1) j ++ spreadFields level fields).length < fuel) :
    readFields fuel held
        (newline (level + 1) ++ (quote k ++ (':' :: ([' '] ++ (spreadChars (level + 1) j ++
          (spreadFields level fields ++ rest)))))) =
      some (.obj (held.reverse ++ draftedFields ((k, j) :: fields)), rest) := by
  induction fields generalizing k j held fuel with
  | nil =>
    cases fuel with
    | zero => cases hfuel
    | succ fuel =>
      have hlength : (spreadChars (level + 1) j).length < fuel := by
        simp only [spreadFields, List.length_append, List.length_singleton] at hfuel
        omega
      have hclose : skipSpace (newline level ++ ['}'] ++ rest) = '}' :: rest := by
        rw [List.append_assoc, skipSpace_append (isSpace_newline level)]
        rfl
      have hstops : Stops (newline level ++ ['}'] ++ rest) := by
        rw [List.append_assoc]
        exact stops_newline level
      rw [spreadFields, readFields_field (h (k, j) List.mem_cons_self) held hlength hstops, hclose]
      simp [draftedFields]
  | cons e fields ih =>
    obtain ⟨k', x⟩ := e
    cases fuel with
    | zero => cases hfuel
    | succ fuel =>
      have hlength : (spreadChars (level + 1) j).length < fuel ∧
          (spreadChars (level + 1) x ++ spreadFields level fields).length < fuel := by
        simp only [spreadFields, List.length_append, List.length_cons] at hfuel ⊢
        omega
      have htail : spreadFields level ((k', x) :: fields) ++ rest =
          ',' :: (newline (level + 1) ++ (quote k' ++ (':' :: ([' '] ++
            (spreadChars (level + 1) x ++ (spreadFields level fields ++ rest)))))) := by
        simp only [spreadFields, List.append_assoc, List.cons_append, List.nil_append]
      rw [htail, readFields_field (h (k, j) List.mem_cons_self) held hlength.1 stops_comma,
        skipSpace_cons rfl]
      refine (ih (fun y hy => h y (.tail _ hy)) ((some k, j.drafted) :: held) hlength.2).trans ?_
      simp [draftedFields]

/-- A value is read back from its spread text. -/
lemma isRead_of_fits (h : Fits depth j) : IsRead j := by
  intro fuel level rest hfuel hrest
  induction h generalizing fuel level rest with
  | null =>
    cases fuel with
    | zero => cases hfuel
    | succ fuel => rfl
  | @bool _ b =>
    cases fuel with
    | zero => cases hfuel
    | succ fuel => cases b <;> rfl
  | @num _ n h =>
    cases fuel with
    | zero => cases hfuel
    | succ fuel => exact readValue_of_readNumber (readNumber_render h hrest)
  | @str _ s =>
    cases fuel with
    | zero => cases hfuel
    | succ fuel => exact readValue_quote s
  | @arr _ items h ih =>
    cases fuel with
    | zero => cases hfuel
    | succ fuel =>
      cases items with
      | nil => rfl
      | cons x items =>
        simp only [spreadChars, List.append_assoc, List.cons_append, List.length_cons,
          List.length_append] at hfuel ⊢
        exact readValue_items (readItems_spread
          (fun y hy fuel level rest => ih y hy fuel level rest)
          [] (by rw [List.length_append]; omega))
  | @obj _ fields h ih =>
    cases fuel with
    | zero => cases hfuel
    | succ fuel =>
      cases fields with
      | nil => rfl
      | cons e fields =>
        obtain ⟨k, x⟩ := e
        simp only [spreadChars, List.append_assoc, List.cons_append, List.length_cons,
          List.length_append] at hfuel ⊢
        exact readValue_fields (readFields_spread
          (fun y hy fuel level rest => ih y hy fuel level rest)
          [] (by rw [List.length_append]; omega))

/-- The spread text of a value is read as the draft of the value. -/
lemma draft?_spread (h : Fits depth j) : draft? (spread j) = some j.drafted := by
  have hread := isRead_of_fits h ((spreadChars 0 j).length + 1) 0 [] (Nat.lt_succ_self _)
    (fun c hc => by cases hc)
  unfold draft? spread
  simp only [String.toList_ofList, bind]
  rw [List.append_nil] at hread
  rw [hread]
  rfl

/-! ### Drafts turned into values -/

open Draft

lemma items?_drafted {interest : Interest} {items : List Json} {n : Nat}
    (h : ∀ j ∈ items, ∀ i, value? j.drafted (interest.item i) depth = some j) :
    items? (draftedItems items) interest n depth = some items := by
  induction items generalizing n with
  | nil => rfl
  | cons j items ih =>
    rw [draftedItems, items?, h j List.mem_cons_self n, ih fun x hx => h x (.tail _ hx)]
    rfl

lemma fields?_drafted {interest : Interest} {fields : List (String × Json)}
    (h : ∀ e ∈ fields, ∃ part, interest.field? e.1 = some part ∧
      value? e.2.drafted part depth = some e.2) :
    fields? (draftedFields fields) interest depth = some fields := by
  induction fields with
  | nil => rfl
  | cons e fields ih =>
    obtain ⟨k, j⟩ := e
    obtain ⟨part, hpart, hvalue⟩ := h (k, j) List.mem_cons_self
    rw [draftedFields, fields?, hpart]
    dsimp only
    rw [hvalue, ih fun x hx => h x (.tail _ hx)]
    rfl

/-- A value that is looked at as a whole is the one that was drafted. -/
lemma value?_drafted (h : Fits depth j) : value? j.drafted .all depth = some j := by
  induction h with
  | null => rfl
  | bool => rfl
  | num => rfl
  | str => rfl
  | arr _ ih =>
    have hitems : ∀ j ∈ _, ∀ i, value? j.drafted (Interest.all.item i) _ = some j :=
      fun j hj _ => ih j hj
    rw [drafted, value?, items?_drafted hitems]
    rfl
  | obj _ ih =>
    rw [drafted, value?, fields?_drafted fun e he => ⟨.all, rfl, ih e he⟩]
    rfl

/-- A value is read back from its spread text. -/
theorem read?_spread (h : Fits depthLimit j) : read? (spread j) = some j := by
  unfold read? readFor?
  rw [draft?_spread h]
  exact value?_drafted h

/-- Values with one spread text are equal. -/
lemma eq_of_spread {k : Json} (hj : Fits depthLimit j) (hk : Fits depthLimit k)
    (h : j.spread = k.spread) : j = k := by
  have hread : some j = some k := by rw [← read?_spread hj, h, read?_spread hk]
  exact Option.some.inj hread

lemma field?_record {names : List String} {k : String} (hk : k ∈ names) :
    (Interest.record names).field? k = some .all := by
  change (names.map fun n => (n, Interest.all)).lookup k = some .all
  induction names with
  | nil => cases hk
  | cons n names ih =>
    rw [List.map_cons, List.lookup_cons]
    split
    · rfl
    · next hne =>
      rcases List.mem_cons.mp hk with rfl | hk
      · cases hne.symm.trans (beq_self_eq_true k)
      · exact ih hk

/-- A record is read back from its spread text, if all its fields are of interest. -/
theorem readFor?_spread {names : List String} {fields : List (String × Json)}
    (hnames : ∀ e ∈ fields, e.1 ∈ names) (h : Fits depthLimit (.obj fields)) :
    readFor? (.record names) (spread (.obj fields)) = some (.obj fields) := by
  unfold readFor?
  rw [draft?_spread h]
  cases h with
  | obj h =>
    refine (congrArg (Option.map Json.obj) (fields?_drafted fun e he =>
      ⟨.all, field?_record (hnames e he), value?_drafted (h e he)⟩)).trans ?_
    rfl

end Recital.Json

import Recital.Proofs.Json.Normal
import Mathlib.Data.List.Nodup

/-!
# Records that are written and read

A record is written as the list of its fields, some of which are left out when they hold nothing.
It is read field by field, so what a field is read as depends on nothing but its own value: a field
that is there is read as that, and one that was left out as what stands for nothing.

Two laws are kept for each type of data.  What fits the type is read back from what is written
(`Json.Keeps.reads`), and whatever is read fits the type (`Json.Keeps.yields`).  Both are put
together from the laws of the fields.
-/

namespace Recital.Json

variable {α β : Type}

/-- The reader gives nothing but values of a kind. -/
def Yields (read : Json → Option α) (P : α → Prop) : Prop := ∀ j a, read j = some a → P a

/-- Values that fit are read back from what is written, and whatever is read fits. -/
structure Keeps (write : α → Json) (read : Json → Option α) (fits : α → Prop) : Prop where
  reads : ∀ a, fits a → read (write a) = some a
  yields : Yields read fits

/-- What fits is decoded from its code.  Whatever is decoded fits, is decoded from its own code as
the same, and is then encoded as before. -/
structure Lossless (write : α → Json) (read : Json → Option α) (fits : α → Prop) : Prop where
  decodes : ∀ a, fits a → read (write a) = some a
  settles : ∀ j a, read j = some a →
    fits a ∧ read (write a) = some a ∧ (read (write a)).map write = some (write a)

variable {read : Json → Option α} {write : α → Json} {P : α → Prop} {name : String} {j : Json}
  {r : Record} {a missing : α} {o : Option α} {names : List String} {fields : List (String × Json)}

lemma Keeps.lossless (h : Keeps write read P) : Lossless write read P where
  decodes := h.reads
  settles j a ha := by
    have hagain : read (write a) = some a := h.reads a (h.yields j a ha)
    exact ⟨h.yields j a ha, hagain, by rw [hagain, Option.map_some]⟩

/-! ### Numbers, arrays and tables -/

lemma natUpTo?_nat {limit n : Nat} (h : n ≤ limit) : natUpTo? limit (nat n) = some n :=
  if_pos ⟨Int.natCast_nonneg n, h⟩

lemma word?_nat {n : Nat} (h : n ≤ Text.wordMax) : word? (nat n) = some n := natUpTo?_nat h

lemma float?_float {x : Binary64} (hx : x.isFinite = true) : float? (float x) = some x := by
  rw [float, if_pos hx]
  rfl

/-- Items that are read one by one are read together. -/
lemma mapM_map_of_forall {f : α → β} {g : β → Option α} {items : List α}
    (h : ∀ a ∈ items, g (f a) = some a) : (items.map f).mapM g = some items := by
  induction items with
  | nil => rfl
  | cons a items ih =>
    rw [List.map_cons, List.mapM_cons, h a List.mem_cons_self,
      ih fun x hx => h x (.tail _ hx)]
    rfl

lemma list?_map {f : α → Json} {g : Json → Option α} {items : List α}
    (h : ∀ a ∈ items, g (f a) = some a) : list? g (.arr (items.map f)) = some items :=
  mapM_map_of_forall h

/-- A table is read back from the object of its entries. -/
lemma table?_ofTable {f : α → Json} {g : Json → Option α} {t : Table α}
    (h : ∀ e ∈ t.entries, g (f e.2) = some e.2) : table? g (ofTable f t) = some t := by
  have hentries : (t.entries.map fun e => (e.1, f e.2)).mapM
      (fun e => (g e.2).map fun a => (e.1, a)) = some t.entries :=
    mapM_map_of_forall fun e he => by rw [h e he]; rfl
  change ((t.entries.map fun e => (e.1, f e.2)).mapM
    fun e => (g e.2).map fun a => (e.1, a)).map Table.ofList = some t
  rw [hentries, Option.map_some, Table.ofList_entries]

lemma mem_of_mapM {f : α → Option β} {as : List α} {bs : List β} {b : β} (h : as.mapM f = some bs)
    (hb : b ∈ bs) : ∃ a ∈ as, f a = some b := by
  induction as generalizing bs with
  | nil =>
    cases h
    cases hb
  | cons a as ih =>
    rw [List.mapM_cons] at h
    simp only [Option.bind_eq_bind, Option.bind_eq_some_iff] at h
    obtain ⟨x, hx, xs, hxs, heq⟩ := h
    cases heq
    rcases List.mem_cons.mp hb with rfl | hb
    · exact ⟨a, List.mem_cons_self, hx⟩
    · obtain ⟨c, hc, hcb⟩ := ih hxs hb
      exact ⟨c, .tail _ hc, hcb⟩

/-- Each value of a table was read from a field. -/
lemma exists_of_table? {f : Json → Option α} {j : Json} {t : Table α} (h : table? f j = some t) :
    ∃ fields, j = .obj fields ∧ ∀ e ∈ t.entries, ∃ x ∈ fields, f x.2 = some e.2 := by
  cases j with
  | null | bool | num | str | arr => cases h
  | obj fields =>
    refine ⟨fields, rfl, ?_⟩
    simp only [table?] at h
    obtain ⟨entries, hentries, rfl⟩ := Option.map_eq_some_iff.mp h
    intro e he
    rw [Table.entries_ofList] at he
    have hmem : e ∈ entries := by
      have hfold : ∀ (es done : List (String × α)),
          e ∈ es.foldl (fun d e => Table.insertSorted e.1 e.2 d) done → e ∈ done ∨ e ∈ es := by
        intro es
        induction es with
        | nil => exact fun _ h => .inl h
        | cons x es ih =>
          intro done h
          rcases ih _ h with h | h
          · rcases Table.mem_insertSorted h with rfl | h
            · exact .inr List.mem_cons_self
            · exact .inl h
          · exact .inr (.tail _ h)
      exact (hfold entries [] he).resolve_left List.not_mem_nil
    obtain ⟨x, hx, hread⟩ := mem_of_mapM hentries hmem
    obtain ⟨a, ha, heq⟩ := Option.map_eq_some_iff.mp hread
    cases heq
    exact ⟨x, hx, ha⟩

/-! ### The fields of a record -/

lemma mem_of_lookup {fields : List (String × α)} {key : String} {a : α}
    (h : fields.lookup key = some a) : (key, a) ∈ fields := by
  induction fields with
  | nil => cases h
  | cons e fields ih =>
    obtain ⟨k, b⟩ := e
    rw [List.lookup_cons] at h
    split at h
    · next heq =>
      cases h
      rw [beq_iff_eq.mp heq]
      exact List.mem_cons_self
    · exact .tail _ (ih h)

lemma distinctKeys_of_nodup (h : (fields.map Prod.fst).Nodup) : distinctKeys fields = true := by
  induction fields with
  | nil => rfl
  | cons e fields ih =>
    rw [List.map_cons, List.nodup_cons] at h
    have hnew : fields.any (·.1 == e.1) = false := by
      rw [List.any_eq_false]
      intro x hx heq
      exact h.1 (List.mem_map.mpr ⟨x, hx, beq_iff_eq.mp heq⟩)
    rw [distinctKeys, hnew, ih h.2]
    rfl

/-- An object whose fields stand in the order of a record is opened as they are. -/
lemma record?_obj (h : (fields.map Prod.fst).Sublist names) (hnames : names.Nodup) :
    record? names (.obj fields) = some ⟨false, fields⟩ := by
  have hknown : (fields.filter fun e => names.contains e.1) = fields := by
    rw [List.filter_eq_self]
    intro e he
    exact List.contains_iff_mem.mpr (h.subset (List.mem_map_of_mem he))
  unfold record?
  dsimp only
  rw [hknown, if_pos (distinctKeys_of_nodup (hnames.sublist h))]

/-- A tag is taken off a record whose fields have other names. -/
lemma tagged?_obj {tag : String} (h : tag ∉ fields.map Prod.fst) :
    tagged? tag (.obj ((tag, .str name) :: fields)) = some (name, .obj fields) := by
  have hnone : (fields.filter fun e => e.1 == tag) = [] := by
    rw [List.filter_eq_nil_iff]
    exact fun e he heq => h (List.mem_map.mpr ⟨e, he, beq_iff_eq.mp heq⟩)
  have hall : (fields.filter fun e => e.1 != tag) = fields := by
    rw [List.filter_eq_self]
    exact fun e he => bne_iff_ne.mpr fun heq => h (List.mem_map.mpr ⟨e, he, heq⟩)
  simp [tagged?, hnone, hall]

@[simp] lemma lookup_field {key : String} {x : Json} : ((name, x) :: fields).lookup key =
    if key = name then some x else fields.lookup key := by
  by_cases h : key = name
  · simp [h]
  · rw [List.lookup_cons, beq_eq_false_iff_ne.mpr h, if_neg h]

/-- A field that is left out when there is no value. -/
@[simp] lemma lookup_fieldIfSome {key : String} :
    (fieldIfSome name write o).lookup key = if key = name then o.map write else none := by
  cases o with
  | none => simp [fieldIfSome]
  | some a => simp [fieldIfSome]

/-- A field that is left out under a condition. -/
@[simp] lemma lookup_ite {key : String} {p : Prop} [Decidable p] {x : Json} :
    (if p then [] else [(name, x)]).lookup key =
      if key = name then if p then none else some x else none := by
  by_cases h : p
  · simp [h]
  · simp [h]

lemma keys_fieldIfSome : ((fieldIfSome name write o).map Prod.fst).Sublist [name] := by
  cases o with
  | none => exact List.nil_sublist _
  | some a => exact List.Sublist.refl _

lemma keys_ite {p : Prop} [Decidable p] {x : Json} :
    ((if p then [] else [(name, x)]).map Prod.fst).Sublist [name] := by
  by_cases h : p
  · simp [h]
  · simp [h]

namespace Record

lemma required_of_lookup (h : r.fields.lookup name = some j) (hread : read j = some a) :
    r.required name read = some a := by
  rw [required, h, Option.bind_some, hread]

lemma defaulted_of_lookup (h : r.fields.lookup name = some j) (hread : read j = some a) :
    r.defaulted name read missing = some a := by
  rw [defaulted, h]
  exact hread

/-- A field that is left out when it holds what stands for it. -/
lemma defaulted_of_lookup_ite {p : Prop} [Decidable p]
    (h : r.fields.lookup name = if p then none else some j) (hread : read j = some a)
    (hmissing : p → a = missing) : r.defaulted name read missing = some a := by
  by_cases hp : p
  · rw [if_pos hp] at h
    rw [defaulted, h, hmissing hp]
  · rw [if_neg hp] at h
    exact defaulted_of_lookup h hread

/-- A value that is not written as `null` is told from none. -/
lemma option?_of_ne_null (hne : write a ≠ .null) (hread : read (write a) = some a) :
    option? read (write a) = some (some a) := by
  unfold option?
  split
  · next h => exact absurd h hne
  · rw [hread, Option.map_some]

/-- A field that is left out when there is no value is read as what it holds. -/
lemma optional_of_lookup (hlisted : r.listed = false) (h : r.fields.lookup name = o.map write)
    (hne : ∀ a, write a ≠ .null) (hread : ∀ a ∈ o, read (write a) = some a) :
    r.optional name read = some o := by
  cases o with
  | none =>
    rw [Option.map_none] at h
    rw [optional, h, hlisted]
    rfl
  | some a =>
    rw [Option.map_some] at h
    rw [optional, h]
    exact option?_of_ne_null (hne a) (hread a rfl)

/-- The same field, where none is what it holds when it is missing. -/
lemma defaulted_option_of_lookup (h : r.fields.lookup name = o.map write)
    (hne : ∀ a, write a ≠ .null) (hread : ∀ a ∈ o, read (write a) = some a) :
    r.defaulted name (option? read) none = some o := by
  cases o with
  | none => rw [defaulted, h, Option.map_none]
  | some a => exact defaulted_of_lookup h (option?_of_ne_null (hne a) (hread a rfl))

end Record

/-- A record of one field. -/
lemma bind_record?_one {x : Json} {f : α → β} (hread : read x = some a) :
    ((record? [name] (.obj [(name, x)])).bind fun r =>
      (r.required name read).bind fun a => some (f a)) = some (f a) := by
  have hrecord : record? [name] (.obj [(name, x)]) = some ⟨false, [(name, x)]⟩ :=
    record?_obj (.refl _) (List.nodup_singleton name)
  have hfield : ([(name, x)] : List (String × Json)).lookup name = some x := by simp
  rw [hrecord, Option.bind_some, Record.required_of_lookup hfield hread, Option.bind_some]

/-- A record of two fields. -/
lemma bind_record?_two {γ : Type} {read' : Json → Option β} {name' : String} {x y : Json} {b : β}
    {f : α → β → γ} (hne : name' ≠ name) (hread : read x = some a) (hread' : read' y = some b) :
    ((record? [name, name'] (.obj [(name, x), (name', y)])).bind fun r =>
      (r.required name read).bind fun a => (r.required name' read').bind fun b => some (f a b)) =
      some (f a b) := by
  have hrecord : record? [name, name'] (.obj [(name, x), (name', y)]) =
      some ⟨false, [(name, x), (name', y)]⟩ :=
    record?_obj (.refl _) (by simp [hne.symm])
  have hfirst : ([(name, x), (name', y)] : List (String × Json)).lookup name = some x := by simp
  have hsecond : ([(name, x), (name', y)] : List (String × Json)).lookup name' = some y := by
    simp [hne]
  rw [hrecord, Option.bind_some, Record.required_of_lookup hfirst hread, Option.bind_some,
    Record.required_of_lookup hsecond hread', Option.bind_some]

/-! ### What readers yield -/

namespace Yields

lemma required (h : Yields read P) (hr : r.required name read = some a) : P a := by
  obtain ⟨j, -, hj⟩ := Option.bind_eq_some_iff.mp hr
  exact h j a hj

lemma option (h : Yields read P) : Yields (option? read) fun o => ∀ a ∈ o, P a := by
  intro j o ho a ha
  obtain rfl := Option.mem_def.mp ha
  unfold option? at ho
  split at ho
  · cases ho
  · obtain ⟨b, hb, heq⟩ := Option.map_eq_some_iff.mp ho
    cases heq
    exact h j a hb

lemma defaulted (h : Yields read P) (hmissing : P missing)
    (hr : r.defaulted name read missing = some a) : P a := by
  unfold Record.defaulted at hr
  split at hr
  · cases hr
    exact hmissing
  · exact h _ a hr

lemma optional (h : Yields read P) (hr : r.optional name read = some o) : ∀ a ∈ o, P a := by
  unfold Record.optional at hr
  split at hr
  · split at hr
    · cases hr
    · cases hr
      exact fun _ ha => nomatch ha
  · exact h.option _ _ hr

lemma map {f : α → β} {Q : β → Prop} (h : ∀ a, read j = some a → Q (f a)) {b : β}
    (hb : (read j).map f = some b) : Q b := by
  obtain ⟨a, ha, rfl⟩ := Option.map_eq_some_iff.mp hb
  exact h a ha

lemma list (h : Yields read P) : Yields (list? read) fun as => ∀ a ∈ as, P a := by
  intro j as has a ha
  unfold list? at has
  split at has
  · obtain ⟨x, -, hx⟩ := mem_of_mapM has ha
    exact h x a hx
  · cases has

/-- A value of a record may be of any kind. -/
lemma trivial : Yields read fun _ => True := fun _ _ _ => True.intro

end Yields

lemma yields_natUpTo (limit : Nat) : Yields (natUpTo? limit) (· ≤ limit) := by
  intro j n hn
  unfold natUpTo? at hn
  split at hn
  · split at hn
    · next h =>
      cases hn
      exact h.2
    · cases hn
  · cases hn

lemma yields_word : Yields word? (· ≤ Text.wordMax) := yields_natUpTo _

lemma yields_word32 : Yields word32? (· ≤ Nat.pow 2 32 - 1) := yields_natUpTo _

end Recital.Json

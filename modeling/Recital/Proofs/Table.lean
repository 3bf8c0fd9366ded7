import Mathlib.Data.List.Nodup
import Mathlib.Tactic.Common
import Recital.Table

/-!
# Tables by their keys

Sorted entries are known by what is found under each key (`Table.eq_of_lookup`), so the operations
on a table are described by what is found afterwards.  Entries that are inserted one after another
in their order stay as they are, and so a table is made again from its entries.
-/

namespace Recital

namespace Table

variable {α β : Type} {key : String} {value : α} {entries done : List (String × α)}

/-! ### What is found -/

/-- An entry under another key does not matter. -/
lemma lookup_cons_of_ne {key name : String} (value : α) (entries : List (String × α))
    (h : name ≠ key) : ((key, value) :: entries).lookup name = entries.lookup name := by
  have hbeq : (name == key) = false := beq_eq_false_iff_ne.mpr h
  simp [List.lookup_cons, hbeq]

/-- What is found among sorted entries after an insertion. -/
lemma lookup_insertSorted (key name : String) (value : α) (entries : List (String × α)) :
    (insertSorted key value entries).lookup name =
      if name = key then some value else entries.lookup name := by
  by_cases h : name = key
  · subst h
    induction entries with
    | nil => simp [insertSorted]
    | cons head rest ih =>
      unfold insertSorted
      split
      · simp
      · split
        · simp
        · next hne => simpa [lookup_cons_of_ne _ _ hne] using ih
  · rw [if_neg h]
    induction entries with
    | nil => simp [insertSorted, lookup_cons_of_ne _ _ h]
    | cons head rest ih =>
      obtain ⟨k, v⟩ := head
      unfold insertSorted
      split
      · rw [lookup_cons_of_ne _ _ h]
      · split
        · next heq => rw [lookup_cons_of_ne _ _ h, lookup_cons_of_ne _ _ (heq ▸ h)]
        · simp only [List.lookup_cons, ih]

/-- What is found in a table after an insertion. -/
@[simp] lemma get?_insert (t : Table α) (key name : String) (value : α) :
    (t.insert key value).get? name = if name = key then some value else t.get? name :=
  lookup_insertSorted key name value t.entries

lemma lookup_filter_ne (key name : String) (entries : List (String × α)) :
    (entries.filter (·.1 != key)).lookup name =
      if name = key then none else entries.lookup name := by
  induction entries with
  | nil => simp
  | cons e entries ih =>
    obtain ⟨k, a⟩ := e
    by_cases hk : k = key
    · rw [List.filter_cons_of_neg (by simp [hk]), ih]
      split
      · rfl
      · next hne => rw [lookup_cons_of_ne _ _ (hk ▸ hne)]
    · rw [List.filter_cons_of_pos (by simpa using hk)]
      by_cases hname : name = k
      · rw [hname, if_neg hk, List.lookup_cons_self, List.lookup_cons_self]
      · rw [lookup_cons_of_ne _ _ hname, lookup_cons_of_ne _ _ hname, ih]

/-- What is found in a table after a removal. -/
@[simp] lemma get?_erase (t : Table α) (key name : String) :
    (t.erase key).get? name = if name = key then none else t.get? name :=
  lookup_filter_ne key name t.entries

/-- The keys are those under which something is found. -/
lemma mem_keys (t : Table α) (name : String) : name ∈ t.keys ↔ t.get? name ≠ none := by
  unfold keys get?
  rw [Ne, List.lookup_eq_none_iff]
  simp

lemma sorted_keys (t : Table α) : t.keys.Pairwise (· < ·) := List.pairwise_map.mpr t.increasing

/-- Among sorted entries each one is found under its key. -/
lemma mem_iff_lookup (h : KeysIncrease entries) :
    (key, value) ∈ entries ↔ entries.lookup key = some value := by
  rw [List.lookup_eq_some_iff]
  constructor
  · intro hmem
    obtain ⟨before, after, rfl⟩ := List.append_of_mem hmem
    refine ⟨before, after, rfl, fun e he => ?_⟩
    have hlt : e.1 < key := (List.pairwise_append.mp h).2.2 e he _ List.mem_cons_self
    exact bne_iff_ne.mpr fun heq => String.lt_irrefl _ (heq ▸ hlt)
  · rintro ⟨before, after, rfl, -⟩
    simp

/-- Sorted entries are known by what is found among them. -/
lemma eq_of_lookup {others : List (String × α)} (h : KeysIncrease entries)
    (hothers : KeysIncrease others) (heq : ∀ key, entries.lookup key = others.lookup key) :
    entries = others := by
  have hnodup : ∀ {l : List (String × α)}, KeysIncrease l → l.Nodup := by
    intro l hl
    refine List.Pairwise.imp ?_ hl
    rintro a b hlt rfl
    exact String.lt_irrefl _ hlt
  have hperm : entries.Perm others := by
    rw [List.perm_ext_iff_of_nodup (hnodup h) (hnodup hothers)]
    rintro ⟨k, v⟩
    rw [mem_iff_lookup h, mem_iff_lookup hothers, heq]
  exact hperm.eq_of_pairwise (fun a b _ _ hab hba => absurd hba (String.lt_asymm hab)) h hothers

/-! ### Insertions in order -/

/-- Under a key that has no entry, an insertion adds one. -/
lemma size_insert {t : Table α} {key : String} {value : α}
    (h : t.get? key = none) : (t.insert key value).size = t.size + 1 := by
  obtain ⟨entries, hincreasing⟩ := t
  simp only [size, insert, get?] at h ⊢
  clear hincreasing
  induction entries with
  | nil => rfl
  | cons head rest ih =>
    obtain ⟨k, v⟩ := head
    have hne : key ≠ k := by
      rintro rfl
      simp at h
    rw [lookup_cons_of_ne _ _ hne] at h
    unfold insertSorted
    split
    · rfl
    · rw [List.length_cons, ih h, List.length_cons]

/-- An entry behind all others goes to the end. -/
lemma insertSorted_append (h : ∀ e ∈ done, e.1 < key) :
    insertSorted key value done = done ++ [(key, value)] := by
  induction done with
  | nil => rfl
  | cons e done ih =>
    have hlt : e.1 < key := h e List.mem_cons_self
    unfold insertSorted
    rw [if_neg (String.lt_asymm hlt), if_neg (fun heq => String.lt_irrefl _ (heq ▸ hlt)),
      ih fun x hx => h x (.tail _ hx)]
    rfl

/-- Entries in order stay in their order. -/
lemma foldl_insertSorted (f : α → β) {entries : List (String × α)} {done : List (String × β)}
    (h : KeysIncrease (done ++ entries.map fun e => (e.1, f e.2))) :
    entries.foldl (fun d e => insertSorted e.1 (f e.2) d) done =
      done ++ entries.map fun e => (e.1, f e.2) := by
  induction entries generalizing done with
  | nil => exact (List.append_nil done).symm
  | cons e entries ih =>
    have hlast : ∀ x ∈ done, x.1 < e.1 := fun x hx =>
      (List.pairwise_append.mp h).2.2 x hx (e.1, f e.2) List.mem_cons_self
    have hassoc : done ++ (e :: entries).map (fun e => (e.1, f e.2)) =
        (done ++ [(e.1, f e.2)]) ++ entries.map fun e => (e.1, f e.2) := by
      rw [List.map_cons, List.append_assoc, List.singleton_append]
    rw [hassoc] at h ⊢
    rw [List.foldl_cons, insertSorted_append hlast, ih h]

lemma entries_ofList (entries : List (String × α)) :
    (ofList entries).entries = entries.foldl (fun d e => insertSorted e.1 e.2 d) [] := by
  have hfold : ∀ t : Table α, (entries.foldl (fun t e => t.insert e.1 e.2) t).entries =
      entries.foldl (fun d e => insertSorted e.1 e.2 d) t.entries := by
    induction entries with
    | nil => exact fun _ => rfl
    | cons e entries ih => exact fun t => ih (t.insert e.1 e.2)
  exact hfold empty

/-- A table is made again from its entries. -/
lemma ofList_entries (t : Table α) : ofList t.entries = t := by
  have hincrease : KeysIncrease ([] ++ t.entries.map fun e => (e.1, id e.2)) := by
    rw [List.nil_append]
    have hsame : (t.entries.map fun e => (e.1, id e.2)) = t.entries := List.map_id _
    rw [hsame]
    exact t.increasing
  refine ext ?_
  rw [entries_ofList]
  exact (foldl_insertSorted id hincrease).trans (List.map_id _)

end Table

end Recital

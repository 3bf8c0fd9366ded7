/-!
# Key-sorted tables

A table maps texts to values and keeps its entries in increasing order of their keys, so two tables
with the same contents are equal.  Order is by code point.
-/

namespace Recital

/-- Entries in strictly increasing order of their keys. -/
def KeysIncrease {α : Type} (entries : List (String × α)) : Prop :=
  entries.Pairwise fun a b => a.1 < b.1

namespace Table

/-- Puts an entry in its place among sorted entries; an entry with the same key is replaced. -/
def insertSorted {α : Type} (key : String) (value : α) : List (String × α) → List (String × α)
  | [] => [(key, value)]
  | (k, v) :: rest =>
    if key < k then (key, value) :: (k, v) :: rest
    else if key = k then (key, value) :: rest
    else (k, v) :: insertSorted key value rest

/-- A member after an insertion is the new entry or an old one. -/
theorem mem_insertSorted {α : Type} {key : String} {value : α} {entries : List (String × α)}
    {e : String × α} (h : e ∈ insertSorted key value entries) :
    e = (key, value) ∨ e ∈ entries := by
  induction entries with
  | nil => simpa [insertSorted] using h
  | cons head rest ih =>
    obtain ⟨k, v⟩ := head
    unfold insertSorted at h
    split at h
    · simpa using h
    · split at h
      · rcases List.mem_cons.1 h with h | h
        · exact Or.inl h
        · exact Or.inr (List.mem_cons_of_mem _ h)
      · rcases List.mem_cons.1 h with h | h
        · exact Or.inr (h ▸ List.mem_cons_self)
        · rcases ih h with h | h
          · exact Or.inl h
          · exact Or.inr (List.mem_cons_of_mem _ h)

/-- Insertion keeps the order. -/
theorem keysIncrease_insertSorted {α : Type} (key : String) (value : α)
    {entries : List (String × α)} (h : KeysIncrease entries) :
    KeysIncrease (insertSorted key value entries) := by
  induction entries with
  | nil => simp [insertSorted, KeysIncrease]
  | cons head rest ih =>
    obtain ⟨k, v⟩ := head
    have hhead := (List.pairwise_cons.1 h).1
    have hrest := (List.pairwise_cons.1 h).2
    unfold insertSorted
    split
    · next hlt =>
      refine List.pairwise_cons.2 ⟨fun e he => ?_, h⟩
      rcases List.mem_cons.1 he with he | he
      · exact he ▸ hlt
      · exact String.lt_trans hlt (hhead e he)
    · split
      · next heq =>
        exact List.pairwise_cons.2 ⟨fun e he => heq ▸ hhead e he, hrest⟩
      · next hlt hne =>
        refine List.pairwise_cons.2 ⟨fun e he => ?_, ih hrest⟩
        rcases mem_insertSorted he with he | he
        · rw [he]
          exact Std.lt_of_le_of_ne (String.not_lt.1 hlt) (Ne.symm hne)
        · exact hhead e he

end Table

/-- A finite map from texts to values, its entries sorted by key. -/
structure Table (α : Type) where
  /-- The entries in increasing order of their keys. -/
  entries : List (String × α)
  /-- The keys increase strictly. -/
  increasing : KeysIncrease entries

namespace Table

variable {α : Type}

/-- Tables with the same entries are equal. -/
@[ext]
theorem ext {s t : Table α} (h : s.entries = t.entries) : s = t := by
  cases s; cases t; cases h; rfl

/-- The table without entries. -/
def empty : Table α := ⟨[], List.Pairwise.nil⟩

instance : Inhabited (Table α) := ⟨empty⟩

instance : EmptyCollection (Table α) := ⟨empty⟩

/-- The value under a key. -/
def get? (t : Table α) (key : String) : Option α :=
  t.entries.lookup key

/-- There is a value under the key. -/
def contains (t : Table α) (key : String) : Bool :=
  (t.get? key).isSome

/-- Sets the value under a key. -/
def insert (t : Table α) (key : String) (value : α) : Table α :=
  ⟨insertSorted key value t.entries, keysIncrease_insertSorted key value t.increasing⟩

/-- Removes the value under a key. -/
def erase (t : Table α) (key : String) : Table α :=
  ⟨t.entries.filter (·.1 != key), t.increasing.filter _⟩

/-- The table of a list of entries; of two entries with one key the later counts. -/
def ofList (entries : List (String × α)) : Table α :=
  entries.foldl (fun t e => t.insert e.1 e.2) empty

/-- The keys in increasing order. -/
def keys (t : Table α) : List String :=
  t.entries.map (·.1)

/-- The number of entries. -/
def size (t : Table α) : Nat := t.entries.length

/-- There are no entries. -/
def isEmpty (t : Table α) : Bool := t.entries.isEmpty

end Table

end Recital

import Recital.Json.Shape
import Recital.Proofs.Json.Reading
import Recital.Proofs.Table

/-!
# Normal values

A value is normal if the keys of each of its objects increase (`Json.IsNormal`).  Normalizing makes
any value normal and leaves a normal one as it is.  It never nests a value more deeply, so what can
be written can still be written when it is normal.
-/

namespace Recital

namespace Json

/-- The keys of each object increase. -/
inductive IsNormal : Json → Prop
  | null : IsNormal .null
  | bool {b : Bool} : IsNormal (.bool b)
  | num {n : Number} : IsNormal (.num n)
  | str {s : String} : IsNormal (.str s)
  | arr {items : List Json} (h : ∀ j ∈ items, IsNormal j) : IsNormal (.arr items)
  | obj {fields : List (String × Json)} (hkeys : KeysIncrease fields)
    (h : ∀ e ∈ fields, IsNormal e.2) : IsNormal (.obj fields)

variable {depth : Nat} {j : Json} {items : List Json} {fields done : List (String × Json)}

lemma normalizeItems_eq (items : List Json) : normalizeItems items = items.map normalize := by
  induction items with
  | nil => rfl
  | cons j items ih => rw [normalizeItems, ih, List.map_cons]

lemma normalizeFields_eq (fields done : List (String × Json)) : normalizeFields fields done =
    fields.foldl (fun d e => Table.insertSorted e.1 (normalize e.2) d) done := by
  induction fields generalizing done with
  | nil => rfl
  | cons e fields ih =>
    obtain ⟨k, j⟩ := e
    exact ih _

/-- A normal value stays as it is. -/
lemma IsNormal.normalize_eq (h : IsNormal j) : j.normalize = j := by
  induction h with
  | null | bool | num | str => rfl
  | @arr items _ ih =>
    rw [normalize, normalizeItems_eq, List.map_congr_left ih]
    exact congrArg Json.arr (List.map_id _)
  | @obj fields hkeys _ ih =>
    have hsame : (fields.map fun e => (e.1, e.2.normalize)) = fields := by
      conv_rhs => rw [← List.map_id fields]
      exact List.map_congr_left fun e he => Prod.ext rfl (ih e he)
    have hincrease : KeysIncrease ([] ++ fields.map fun e => (e.1, e.2.normalize)) := by
      rw [List.nil_append, hsame]
      exact hkeys
    rw [normalize, normalizeFields_eq, Table.foldl_insertSorted normalize hincrease, hsame,
      List.nil_append]

/-- The fields of a normal object are those that were there. -/
lemma mem_normalizeFields {e : String × Json} (h : e ∈ normalizeFields fields done) :
    e ∈ done ∨ ∃ f ∈ fields, e = (f.1, f.2.normalize) := by
  induction fields generalizing done with
  | nil => exact .inl h
  | cons f fields ih =>
    obtain ⟨k, j⟩ := f
    rcases ih h with h | ⟨f, hf, heq⟩
    · rcases Table.mem_insertSorted h with rfl | h
      · exact .inr ⟨(k, j), List.mem_cons_self, rfl⟩
      · exact .inl h
    · exact .inr ⟨f, .tail _ hf, heq⟩

lemma keysIncrease_normalizeFields (h : KeysIncrease done) :
    KeysIncrease (normalizeFields fields done) := by
  induction fields generalizing done with
  | nil => exact h
  | cons f fields ih => exact ih (Table.keysIncrease_insertSorted f.1 f.2.normalize h)

mutual

/-- Normalizing makes any value normal. -/
lemma isNormal_normalize : (j : Json) → IsNormal j.normalize
  | .null => .null
  | .bool _ => .bool
  | .num _ => .num
  | .str _ => .str
  | .arr items => .arr (isNormal_normalizeItems items)
  | .obj fields => .obj (keysIncrease_normalizeFields .nil)
      (isNormal_normalizeFields fields [] (fun _ h => nomatch h))

lemma isNormal_normalizeItems : (items : List Json) → ∀ j ∈ normalizeItems items, IsNormal j
  | [] => fun _ h => nomatch h
  | j :: items => List.forall_mem_cons.mpr ⟨isNormal_normalize j, isNormal_normalizeItems items⟩

lemma isNormal_normalizeFields : (fields done : List (String × Json)) →
    (∀ e ∈ done, IsNormal e.2) → ∀ e ∈ normalizeFields fields done, IsNormal e.2
  | [], _, h => h
  | (k, j) :: fields, _, h => isNormal_normalizeFields fields _ fun e he => by
    rcases Table.mem_insertSorted he with rfl | he
    · exact isNormal_normalize j
    · exact h e he

end

/-- Normalizing nests nothing more deeply. -/
lemma Fits.normalize (h : Fits depth j) : Fits depth j.normalize := by
  induction h with
  | null => exact .null
  | bool => exact .bool
  | num h => exact .num h
  | str => exact .str
  | arr _ ih =>
    refine .arr fun j hj => ?_
    rw [normalizeItems_eq] at hj
    obtain ⟨x, hx, rfl⟩ := List.mem_map.mp hj
    exact ih x hx
  | obj _ ih =>
    refine .obj fun e he => ?_
    rcases mem_normalizeFields he with he | ⟨f, hf, rfl⟩
    · cases he
    · exact ih f hf

end Json

end Recital

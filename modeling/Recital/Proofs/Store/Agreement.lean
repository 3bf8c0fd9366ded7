import Recital.Proofs.Store.Mirror
import Recital.Proofs.Table

/-!
# A directory answers like memory

Whoever saves, loads, removes and lists documents cannot tell a directory that started without files
from a store in memory that started empty, as long as keys are short enough for their files and
values are not nested too deeply for the reader.  The directory mirrors the table in memory after
every operation (`matches_perform`), so the answers are the same ones.
-/

namespace Recital

namespace Store

/-- Something that is asked of a store. -/
inductive Operation
  | save (key : String) (value : Json)
  | load (key : String)
  | delete (key : String)
  | keys

/-- What a store answers. -/
inductive Reply
  | done
  | found (value : Option Json)
  | keys (names : List String)
  | failed (cause : StoreError)

/-- Carries out an operation. -/
def perform (s : Store) : Operation → Reply × Store
  | .save key value => match s.save key value with
    | (.ok (), s) => (.done, s)
    | (.error e, s) => (.failed e, s)
  | .load key => match s.load key with
    | .ok found => (.found found, s)
    | .error e => (.failed e, s)
  | .delete key => match s.delete key with
    | (.ok (), s) => (.done, s)
    | (.error e, s) => (.failed e, s)
  | .keys => match s.keys with
    | .ok names => (.keys names, s)
    | .error e => (.failed e, s)

/-- The answers to operations that are carried out one after the other. -/
def replies : Store → List Operation → List Reply
  | _, [] => []
  | s, o :: rest => (s.perform o).1 :: (s.perform o).2.replies rest

namespace Operation

/-- The key that the operation is about. -/
def key? : Operation → Option String
  | .save key _ | .load key | .delete key => some key
  | .keys => none

/-- The value that the operation brings. -/
def value? : Operation → Option Json
  | .save _ value => some value
  | _ => none

/-- How many bytes a key may have, so that its temporary file can have its name. -/
def keyLimit : Nat := 251

/-- The key is short and can be the name of a file, if it is not refused, and the value can be
written and read back. -/
structure IsAdmissible (o : Operation) : Prop where
  short : ∀ key ∈ o.key?, key.utf8ByteSize ≤ keyLimit
  noNull : ∀ key ∈ o.key?, key.toList.contains FileTree.nullChar = false
  document : ∀ j ∈ o.value?, IsDocument j

end Operation

/-- Documents in memory that could be read back from files. -/
def Memory.IsReadable (m : Memory) : Prop :=
  ∀ key j, m.documents.get? key = some j → IsDocument j

variable {d : Directory} {t : FileTree} {m : Memory} {key : String} {j : Json} {o : Operation}

lemma isSavable_of_short (hallowed : keyRefusal? key = none)
    (hnull : key.toList.contains FileTree.nullChar = false)
    (hshort : key.utf8ByteSize ≤ Operation.keyLimit) : IsSavable key := by
  refine ⟨hallowed, hnull, ?_⟩
  have hlimit : Operation.keyLimit = 251 := rfl
  have hending : temporaryEnding.utf8ByteSize = 4 := rfl
  have hname : FileTree.nameLimit = 255 := rfl
  simp only [FileTree.isLongName, Directory.temporaryName, String.utf8ByteSize_append,
    decide_eq_false_iff_not]
  omega

/-- Lists in increasing order that have the same members are the same. -/
lemma eq_of_sorted {ns ms : List String} (hns : ns.Pairwise (· < ·)) (hms : ms.Pairwise (· < ·))
    (h : ∀ name, name ∈ ns ↔ name ∈ ms) : ns = ms := by
  have hperm : ns.Perm ms :=
    (List.perm_ext_iff_of_nodup (hns.imp fun hlt => ne_of_lt hlt)
      (hms.imp fun hlt => ne_of_lt hlt)).mpr h
  exact hperm.eq_of_pairwise (fun a b _ _ hab hba => absurd hab (lt_asymm hba)) hns hms

/-- What is held can be read back when one document is replaced by one that can, or removed. -/
lemma Memory.IsReadable.of_update {n : Memory} {found : Option Json} (hheld : m.IsReadable)
    (hn : n.documents.get? = Function.update m.documents.get? key found)
    (hfound : ∀ j ∈ found, IsDocument j) : n.IsReadable := by
  intro name j hj
  rw [hn] at hj
  exact Function.forall_update_iff m.documents.get? (fun _ found => ∀ j ∈ found, IsDocument j)
    |>.mpr ⟨hfound, fun name _ => hheld name⟩ name j hj

/-- A directory and a store in memory answer an operation alike, and the directory mirrors the
memory again. -/
def Matches (d : Directory) (t : FileTree) (m : Memory) (o : Operation) : Prop :=
  ∃ reply u n, perform (.directory d t) o = (reply, .directory d u) ∧
    perform (.memory m) o = (reply, .memory n) ∧ d.Mirrors n.documents.get? u ∧ n.IsReadable

section Matches

variable (h : d.Mirrors m.documents.get? t) (hheld : m.IsReadable)
  (hkey : keyRefusal? key = none → IsSavable key)

include h hheld hkey

lemma matches_save (hj : IsDocument j) : Matches d t m (.save key j) := by
  unfold Matches
  simp only [perform, Store.save, Memory.save]
  cases hcheck : checkKey key with
  | error e =>
    have hrefused : d.save t key j = (.error e, t) := by
      unfold Directory.save
      rw [hcheck]
    rw [hrefused]
    exact ⟨_, _, _, rfl, rfl, h, hheld⟩
  | ok =>
    have hsavable := hkey (checkKey_eq_ok_iff.mp hcheck)
    have hok := h.save_ok hsavable j
    rcases h.save key j with ⟨⟨e, hfails⟩, -⟩ | ⟨-, -, hmirrors⟩
    · cases hok.symm.trans hfails
    · generalize d.save t key j = saved at hok hmirrors ⊢
      obtain ⟨result, u⟩ := saved
      cases hok
      have hget : Table.get? (m.documents.insert key j) =
          Function.update m.documents.get? key (some j) := by
        funext name
        rw [Table.get?_insert, Function.update_apply]
      refine ⟨_, _, _, rfl, rfl, ?_, hheld.of_update hget fun i hi => Option.some.inj hi ▸ hj⟩
      rw [hget]
      exact hmirrors

lemma matches_load : Matches d t m (.load key) := by
  unfold Matches
  simp only [perform, Store.load, Memory.load]
  cases hcheck : checkKey key with
  | error e =>
    have hrefused : d.load t key = .error e := by
      unfold Directory.load Directory.envelope
      rw [hcheck]
      rfl
    rw [hrefused]
    exact ⟨_, _, _, rfl, rfl, h, hheld⟩
  | ok =>
    have hsavable := hkey (checkKey_eq_ok_iff.mp hcheck)
    rw [h.load hsavable.isFileKey (hheld key)]
    exact ⟨_, _, _, rfl, rfl, h, hheld⟩

lemma matches_delete : Matches d t m (.delete key) := by
  unfold Matches
  simp only [perform, Store.delete, Memory.delete]
  cases hcheck : checkKey key with
  | error e =>
    have hrefused : d.delete t key = .error e := by
      unfold Directory.delete
      rw [hcheck]
      rfl
    rw [hrefused]
    exact ⟨_, _, _, rfl, rfl, h, hheld⟩
  | ok =>
    have hsavable := hkey (checkKey_eq_ok_iff.mp hcheck)
    obtain ⟨u, hdelete, hmirrors⟩ := h.delete hsavable.isFileKey
    rw [hdelete]
    have hget : Table.get? (m.documents.erase key) =
        Function.update m.documents.get? key none := by
      funext name
      rw [Table.get?_erase, Function.update_apply]
    refine ⟨_, _, _, rfl, rfl, ?_, hheld.of_update hget fun i hi => absurd hi
      (Option.not_mem_none i)⟩
    rw [hget]
    exact hmirrors

end Matches

lemma matches_keys (h : d.Mirrors m.documents.get? t) (hheld : m.IsReadable) :
    Matches d t m .keys := by
  obtain ⟨names, hnames, hsorted, hmem⟩ := h.keys
  have heq : names = m.keys := eq_of_sorted hsorted (m.documents.sorted_keys) fun name =>
    (hmem name).trans (m.documents.mem_keys name).symm
  unfold Matches
  simp only [perform, Store.keys, hnames, heq]
  exact ⟨_, _, _, rfl, rfl, h, hheld⟩

/-- A directory that mirrors the table in memory answers like it, and mirrors it again. -/
lemma matches_perform (h : d.Mirrors m.documents.get? t) (hheld : m.IsReadable)
    (ho : o.IsAdmissible) : Matches d t m o := by
  have hkeys : ∀ key ∈ o.key?, keyRefusal? key = none → IsSavable key := fun key hkey hallowed =>
    isSavable_of_short hallowed (ho.noNull key hkey) (ho.short key hkey)
  cases o with
  | save key value => exact matches_save h hheld (hkeys key rfl) (ho.document value rfl)
  | load key => exact matches_load h hheld (hkeys key rfl)
  | delete key => exact matches_delete h hheld (hkeys key rfl)
  | keys => exact matches_keys h hheld

/-- A directory that starts without files gives the same answers as a store in memory that starts
empty, to any operations with short keys and with values that can be read back. -/
theorem directory_agrees_with_memory (h : d.IsVacant t) {operations : List Operation}
    (hadmissible : ∀ o ∈ operations, o.IsAdmissible) :
    replies (.directory d t) operations = replies (.memory {}) operations := by
  have hmirrors : ∀ {t : FileTree} {m : Memory}, d.Mirrors m.documents.get? t → m.IsReadable →
      replies (.directory d t) operations = replies (.memory m) operations := by
    clear h
    induction operations with
    | nil => exact fun _ _ => rfl
    | cons o operations ih =>
      intro t m hmirrors hheld
      obtain ⟨reply, u, n, hdirectory, hmemory, hnext, hreadable⟩ :=
        matches_perform hmirrors hheld (hadmissible o List.mem_cons_self)
      rw [replies, replies, hdirectory, hmemory]
      exact congrArg (reply :: ·) (ih (fun o ho => hadmissible o (.tail _ ho)) hnext hreadable)
  exact hmirrors h.mirrors fun _ _ hnone => absurd hnone (Option.some_ne_none _).symm

/-! ### A library -/

/-- Two scores are kept and one of them is removed; a third has no place in a directory. -/
def lending : List Operation :=
  [.save "waltz" (.nat 3), .save "march" (.arr [.nat 2, .nat 4]), .save "../polka" .null, .keys,
    .load "waltz", .delete "waltz", .load "waltz", .save "march.tmp" .null, .keys]

lemma isVacant_new (place : Location) : Directory.IsVacant ⟨place⟩ ⟨[]⟩ := by
  have hnone : ∀ l : Location, l ≠ [] → FileTree.entry? ⟨[]⟩ l = none := fun l hl => by
    rw [FileTree.entry?_of_ne_nil hl]
    rfl
  refine ⟨⟨List.nodup_nil, fun l name hentry => ?_⟩, fun l _ => ?_, fun name => hnone _ (by simp)⟩
  · exact absurd (hnone _ (by simp)) hentry
  · unfold FileTree.file?
    by_cases hl : l = []
    · rw [hl]
      rfl
    · rw [hnone l hl]

/-- What the directory answers. -/
theorem lending_answered : (∀ o ∈ lending, o.IsAdmissible) ∧
    replies (.directory ⟨["scores"]⟩ ⟨[]⟩) lending =
      [.done, .done, .failed (.invalidKey "../polka" "key contains a path separator"),
        .keys ["march", "waltz"], .found (some (.nat 3)), .done, .found none,
        .failed (.invalidKey "march.tmp" "key uses the reserved .tmp suffix"),
        .keys ["march"]] := by
  have hadmissible : ∀ o ∈ lending, o.IsAdmissible := by
    have hnat : ∀ n ≤ Text.wordMax, (Json.nat n).Fits 125 := fun n hn => .num (Json.isProper_nat hn)
    have hdocuments : ∀ o ∈ lending, ∀ j ∈ o.value?, IsDocument j := by
      simp only [lending, List.forall_mem_cons, Operation.value?, Option.mem_def, Option.some.injEq,
        forall_eq', reduceCtorEq, false_implies, implies_true, true_and]
      refine ⟨⟨.num, .num (Json.isProper_nat (by decide))⟩, ⟨.arr ?_, .arr ?_⟩, ⟨.null, .null⟩,
        ⟨.null, .null⟩, fun _ ho => absurd ho List.not_mem_nil⟩
      · simp only [List.forall_mem_cons]
        exact ⟨.num, .num, fun _ hj => absurd hj List.not_mem_nil⟩
      · simp only [List.forall_mem_cons]
        exact ⟨hnat 2 (by decide), hnat 4 (by decide), fun _ hj => absurd hj List.not_mem_nil⟩
    have hkeys : lending.all (fun o => o.key?.all fun key =>
        decide (key.utf8ByteSize ≤ Operation.keyLimit) &&
          !key.toList.contains FileTree.nullChar) = true := by decide
    intro o ho
    have hkey := List.all_eq_true.mp hkeys o ho
    refine ⟨fun key hmem => ?_, fun key hmem => ?_, hdocuments o ho⟩ <;>
      rw [Option.mem_def.mp hmem] at hkey <;> simp at hkey
    · exact hkey.1
    · simpa using hkey.2
  refine ⟨hadmissible, ?_⟩
  rw [directory_agrees_with_memory (isVacant_new _) hadmissible]
  rfl

end Store

end Recital

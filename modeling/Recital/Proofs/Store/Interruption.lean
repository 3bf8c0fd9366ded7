import Recital.Proofs.Store.Agreement
import Mathlib.Data.String.Basic

/-!
# Saves that are cut off

A save may be cut off anywhere: while the directory is made, while the temporary file is written, or
when the file has been renamed and nobody learns of it.  The renaming is the moment that counts.
Each renaming and each removal leaves a mark, and what is held under a key is what the last mark of
the key says (`kept`), whatever else was cut off before (`Mirrors.suffer`).

A temporary file that was left behind is in nobody's way: it is written anew by the next save of its
key, and no key leads to it.
-/

namespace Recital.Store

/-- Where a save is cut off before its file is renamed. -/
inductive Cut
  /-- So many directories on the way were made, if the last one was missing. -/
  | making (directories : Nat)
  /-- So many bytes of the temporary file were written. -/
  | writing (bytes : Nat)

/-- What happens to a directory of documents. -/
inductive Incident
  /-- An operation was carried out. -/
  | whole (o : Operation)
  /-- A save was cut off before its file was renamed. -/
  | cut (key : String) (value : Json) (c : Cut)
  /-- A save was cut off after that. -/
  | landed (key : String) (value : Json)

/-- The file of a key got its name, with a value, or it was removed. -/
structure Mark where
  key : String
  value : Option Json

/-- What the last mark of a key says, where the last mark of all comes first. -/
def kept : List Mark → String → Option Json
  | [], _ => none
  | mark :: earlier, key => if key = mark.key then mark.value else kept earlier key

lemma kept_cons (mark : Mark) (marks : List Mark) :
    kept (mark :: marks) = Function.update (kept marks) mark.key mark.value := by
  funext key
  rw [Function.update_apply]
  rfl

namespace Directory

/-- What a save leaves behind that was cut off before its file was renamed. -/
def leftover (d : Directory) (t : FileTree) (key : String) (value : Json) : Cut → FileTree
  | .making n => match t.entry? d.place with
    | some _ => t
    | none => match t.makeDirectories [] (d.place.take n) with
      | .ok u => u
      | .error _ => t
  | .writing n =>
    (d.performAll t [.prepare, .write key ((fileText key value).toUTF8.extract 0 n)]).2

/-- What an incident makes of the files, and the mark that it leaves.  A save succeeds when its last
step is done, the renaming. -/
def befall (d : Directory) (t : FileTree) : Incident → FileTree × List Mark
  | .whole (.save key value) | .landed key value => match d.save t key value with
    | (.ok (), u) => (u, [⟨key, some value⟩])
    | (.error _, u) => (u, [])
  | .whole (.delete key) => match d.delete t key with
    | .ok u => (u, [⟨key, none⟩])
    | .error _ => (t, [])
  | .whole (.load _) | .whole .keys => (t, [])
  | .cut key value c => match checkKey key with
    | .ok () => (d.leftover t key value c, [])
    | .error _ => (t, [])

/-- What many incidents make of the files, and all marks, the last one first. -/
def suffer (d : Directory) : FileTree → List Mark → List Incident → FileTree × List Mark
  | t, marks, [] => (t, marks)
  | t, marks, i :: rest => d.suffer (d.befall t i).1 ((d.befall t i).2 ++ marks) rest

variable {d : Directory} {t u : FileTree} {marks : List Mark} {key : String} {value : Json}

namespace Mirrors

/-- What was done before the renaming changes nothing that is held. -/
lemma leftover {held : String → Option Json} (h : d.Mirrors held t) (key : String) (value : Json)
    (c : Cut) : d.Mirrors held (d.leftover t key value c) := by
  cases c with
  | making n =>
    simp only [Directory.leftover]
    split
    · exact h
    · split
      · next hmade => exact h.making (List.take_prefix n d.place) hmade
      · exact h
  | writing n => exact h.draft key _

/-- What is held is what the marks say, whatever happens. -/
lemma befall (h : d.Mirrors (kept marks) t) (i : Incident) :
    d.Mirrors (kept ((d.befall t i).2 ++ marks)) (d.befall t i).1 := by
  have hsaved : ∀ key value, d.Mirrors (kept ((d.befall t (.landed key value)).2 ++ marks))
      (d.befall t (.landed key value)).1 := fun key value => by
    have hsave := h.save key value
    simp only [Directory.befall]
    generalize d.save t key value = saved at hsave ⊢
    obtain ⟨result, u⟩ := saved
    rcases hsave with ⟨⟨e, he⟩, hmirrors⟩ | ⟨hok, -, hmirrors⟩
    · cases he
      exact hmirrors
    · cases hok
      exact (kept_cons ⟨key, some value⟩ marks).symm ▸ hmirrors
  cases i with
  | whole o =>
    cases o with
    | save key value => exact hsaved key value
    | load => exact h
    | delete key =>
      simp only [Directory.befall]
      cases hdelete : d.delete t key with
      | error e => exact h
      | ok u => exact (kept_cons ⟨key, none⟩ marks).symm ▸ h.of_delete hdelete
    | keys => exact h
  | cut key value c =>
    simp only [Directory.befall]
    split
    · exact h.leftover key value c
    · exact h
  | landed key value => exact hsaved key value

lemma suffer (h : d.Mirrors (kept marks) t) (incidents : List Incident) :
    d.Mirrors (kept (d.suffer t marks incidents).2) (d.suffer t marks incidents).1 := by
  induction incidents generalizing t marks with
  | nil => exact h
  | cons i incidents ih => exact ih (h.befall i)

end Mirrors

/-- Looking up a key that is not refused and that no file can have: the null character is an error
before the directory is looked at, and a name that is too long is one where there is a directory. -/
lemma Mirrors.load_of_not_isFileKey {held : String → Option Json} (h : d.Mirrors held t)
    (hallowed : keyRefusal? key = none) (hkey : ¬ IsFileKey key) :
    d.load t key =
      if key.toList.contains FileTree.nullChar then .error (.files .nullCharacter)
      else if (t.entry? d.place).isSome then .error (.files .tooLong) else .ok none := by
  have hlong : key.toList.contains FileTree.nullChar = false → FileTree.isLongName key = true := by
    intro hnull
    by_contra hshort
    exact hkey ⟨hallowed, hnull, Bool.eq_false_of_not_eq_true hshort⟩
  have hfile : ∀ content, t.entry? d.place ≠ some (.file content) := by
    intro content hentry
    have hnone := h.way d.place (List.prefix_refl _)
    unfold FileTree.file? at hnone
    rw [hentry] at hnone
    cases hnone
  unfold Directory.load envelope FileTree.child
  simp only [checkKey_eq_ok_iff.mpr hallowed, bind, Except.bind]
  cases hnull : key.toList.contains FileTree.nullChar with
  | true => rfl
  | false =>
    cases hentry : t.entry? d.place with
    | none => rfl
    | some entry =>
      cases entry with
      | file content => exact absurd hentry (hfile content)
      | directory =>
        simp only [Bool.false_eq_true, if_false, hlong hnull, if_true, Option.isSome_some]
        rfl

/-- After any operations and any saves that were cut off, what is loaded is what was saved last, by
a save that got to the renaming, and was not removed since; and those keys are listed.  Nothing of
the saves that were cut off is found, and they are in nobody's way.  A key that no file can have
holds nothing, and looking it up is an error unless the directory is missing and the name is just
too long. -/
theorem interrupted_saves_are_atomic (h : d.IsVacant t) (incidents : List Incident) :
    (∀ key, IsFileKey key → (∀ j, kept (d.suffer t [] incidents).2 key = some j → IsDocument j) →
      d.load (d.suffer t [] incidents).1 key = .ok (kept (d.suffer t [] incidents).2 key)) ∧
    (∀ key, keyRefusal? key = none → ¬ IsFileKey key → kept (d.suffer t [] incidents).2 key = none ∧
      d.load (d.suffer t [] incidents).1 key =
        if key.toList.contains FileTree.nullChar then .error (.files .nullCharacter)
        else if (FileTree.entry? (d.suffer t [] incidents).1 d.place).isSome then
          .error (.files .tooLong)
        else .ok none) ∧
    (∃ names, d.keys (d.suffer t [] incidents).1 = .ok names ∧ names.Pairwise (· < ·) ∧
      ∀ name, name ∈ names ↔ kept (d.suffer t [] incidents).2 name ≠ none) ∧
    (∀ key, IsFileKey key → ∃ u, d.delete (d.suffer t [] incidents).1 key = .ok u) ∧
    (∀ key value, IsSavable key →
      (d.save (d.suffer t [] incidents).1 key value).1 = .ok ()) := by
  have hmirrors : d.Mirrors (kept (d.suffer t [] incidents).2) (d.suffer t [] incidents).1 :=
    Mirrors.suffer (show d.Mirrors (kept []) t from h.mirrors) incidents
  refine ⟨fun key hkey hdocument => hmirrors.load hkey hdocument, fun key hallowed hkey => ?_,
    hmirrors.keys, fun key hkey => ?_, fun key value hkey => hmirrors.save_ok hkey value⟩
  · refine ⟨?_, hmirrors.load_of_not_isFileKey hallowed hkey⟩
    by_contra hheld
    exact hkey (hmirrors.named key hheld)
  · obtain ⟨u, hdelete, -⟩ := hmirrors.delete hkey
    exact ⟨u, hdelete⟩

/-! ### A rehearsal -/

/-- One score is saved, and a new version of it and another score are not saved to the end. -/
def rehearsal : List Incident :=
  [.whole (.save "waltz" (.nat 3)), .cut "march" (.nat 2) (.writing 20),
    .cut "waltz" (.nat 4) (.writing 10), .landed "polka" .null, .whole (.delete "polka"),
    .cut "polka" .null (.making 1)]

lemma marks_rehearsal : (suffer ⟨["scores"]⟩ ⟨[]⟩ [] rehearsal).2 =
    [⟨"polka", none⟩, ⟨"polka", some .null⟩, ⟨"waltz", some (.nat 3)⟩] := rfl

/-- A name that is too long for a file. -/
def endlessName : String := String.ofList (List.replicate 256 'a')

lemma toList_endlessName : endlessName.toList = List.replicate 256 'a' := String.toList_ofList

/-- A name that is too long for a file is allowed all the same. -/
lemma keyRefusal?_endlessName : keyRefusal? endlessName = none := by
  unfold keyRefusal? isTemporary
  rw [toList_endlessName]
  decide +kernel

lemma not_isFileKey_endlessName : ¬ IsFileKey endlessName := by
  have hlong : FileTree.isLongName endlessName = true := by
    unfold FileTree.isLongName endlessName
    rw [String.utf8ByteSize_ofList]
    decide +kernel
  rintro ⟨-, -, hshort⟩
  cases hshort.symm.trans hlong

/-- What is found afterwards.  A name that is too long for a file cannot be looked up. -/
theorem rehearsal_is_kept : IsVacant ⟨["scores"]⟩ ⟨[]⟩ ∧
    load ⟨["scores"]⟩ (suffer ⟨["scores"]⟩ ⟨[]⟩ [] rehearsal).1 "waltz" = .ok (some (.nat 3)) ∧
    load ⟨["scores"]⟩ (suffer ⟨["scores"]⟩ ⟨[]⟩ [] rehearsal).1 "march" = .ok none ∧
    load ⟨["scores"]⟩ (suffer ⟨["scores"]⟩ ⟨[]⟩ [] rehearsal).1 endlessName =
      .error (.files .tooLong) ∧
    ∃ names, Directory.keys ⟨["scores"]⟩ (suffer ⟨["scores"]⟩ ⟨[]⟩ [] rehearsal).1 = .ok names ∧
      ∀ name, name ∈ names ↔ name = "waltz" := by
  have hvacant : IsVacant ⟨["scores"]⟩ ⟨[]⟩ := isVacant_new _
  have hnull : endlessName.toList.contains FileTree.nullChar = false := by
    rw [toList_endlessName]
    decide +kernel
  have hmade : (FileTree.entry? (suffer ⟨["scores"]⟩ ⟨[]⟩ [] rehearsal).1 ["scores"]).isSome =
      true := rfl
  obtain ⟨hload, hunnamed, ⟨names, hnames, -, hmem⟩, -⟩ :=
    interrupted_saves_are_atomic hvacant rehearsal
  obtain ⟨-, hendless⟩ := hunnamed endlessName keyRefusal?_endlessName not_isFileKey_endlessName
  rw [hnull, hmade] at hendless
  rw [marks_rehearsal] at hload hmem
  refine ⟨hvacant, hload "waltz" ⟨rfl, rfl, rfl⟩ fun j hj => ?_,
    hload "march" ⟨rfl, rfl, rfl⟩ fun j hj => absurd hj (Option.some_ne_none j).symm,
    hendless, names, hnames, fun name => ?_⟩
  · cases hj
    exact ⟨.num, .num (Json.isProper_nat (by decide))⟩
  · rw [hmem]
    simp only [kept]
    by_cases hpolka : name = "polka"
    · simp [hpolka]
    · simp [hpolka]

end Directory

end Recital.Store

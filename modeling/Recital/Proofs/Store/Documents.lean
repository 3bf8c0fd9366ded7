import Recital.Store.Basic
import Recital.Proofs.Store.Tree
import Mathlib.Data.List.Sort
import Mathlib.Data.String.Basic

/-!
# The documents of a store

What a store holds is seen through the documents that are found under its keys, and through its keys
(`Store.document?`, `Store.keys`).  In a directory the document under a key is a matter of one file.
A save that succeeds changes that file and no other one that belongs to a key; a save that fails
leaves all documents and all keys as they were, whatever became of its temporary file.
-/

namespace Recital

namespace Store

variable {t u : FileTree} {key name : String} {value : Json} {d : Directory}

/-- The document that is found under a key. -/
def document? (s : Store) (key : String) : Option Json :=
  match s.load key with
  | .ok found => found
  | .error _ => none

/-- The files of a store stand in a sound tree. -/
def IsSound : Store → Prop
  | .memory _ => True
  | .directory _ t => t.IsSound

/-- Two stores show the same. -/
structure Agrees (a b : Store) : Prop where
  documents : ∀ key, b.document? key = a.document? key
  keys : b.keys = a.keys

lemma Agrees.refl (s : Store) : Agrees s s := ⟨fun _ => rfl, rfl⟩

/-- A file can have the name, and it names a document. -/
def IsFileKey (key : String) : Prop :=
  keyRefusal? key = none ∧ key.toList.contains FileTree.nullChar = false ∧
    FileTree.isLongName key = false

lemma checkKey_eq_ok_iff : checkKey key = .ok () ↔ keyRefusal? key = none := by
  unfold checkKey
  split <;> simp_all

/-- The name of a document does not end like that of a temporary file. -/
lemma not_isTemporary_of_keyRefusal? (h : keyRefusal? key = none) : isTemporary key = false := by
  unfold keyRefusal? at h
  dsimp only at h
  split at h
  · cases h
  · split at h
    · cases h
    · split at h
      · cases h
      · split at h
        · cases h
        · next htemporary => simpa using htemporary

namespace Directory

/-! ### The file of a key -/

/-- The document in the content of a file. -/
def contentDocument? (content : ByteArray) : Option Json := do
  let text ← String.fromUTF8? content
  let e ← Envelope.read? text
  if StoreError.knownVersion < e.version then none else some e.data

lemma isTemporary_temporaryName (key : String) : isTemporary (temporaryName key) = true := by
  simp [isTemporary, temporaryName]

lemma temporaryName_ne (hkey : isTemporary name = false) : name ≠ temporaryName key := by
  rintro rfl
  cases (isTemporary_temporaryName key).symm.trans hkey

/-- Locations in one directory differ if their names do. -/
lemma location_ne {dir : Location} {a b : String} (h : a ≠ b) : dir ++ [a] ≠ dir ++ [b] := by
  simpa using h

/-- The document under a key is what its file holds, if a file can have the name. -/
lemma document?_eq (ht : t.IsSound) (hkey : IsFileKey key) :
    document? (.directory d t) key = (t.file? (d.place ++ [key])).bind contentDocument? := by
  obtain ⟨hallowed, hnull, hlong⟩ := hkey
  have hcheck : checkKey key = .ok () := checkKey_eq_ok_iff.mpr hallowed
  have hload : document? (.directory d t) key = match d.envelope t key with
      | .ok found => found.map Envelope.data
      | .error _ => none := by
    simp only [document?, Store.load, Directory.load]
    cases d.envelope t key <;> rfl
  rw [hload]
  unfold envelope
  simp only [hcheck, bind, Except.bind, throw, throwThe, MonadExceptOf.throw]
  cases hdir : t.entry? d.place with
  | none =>
    have hchild : t.child d.place key = .error .missing := by
      unfold FileTree.child
      rw [hnull, if_neg Bool.false_ne_true, hdir]
    rw [ht.file?_eq_none (by rw [hdir]; simp), hchild]
    rfl
  | some e =>
    cases e with
    | file content =>
      have hchild : t.child d.place key = .error .notDirectory := by
        unfold FileTree.child
        rw [hnull, if_neg Bool.false_ne_true, hdir]
      rw [ht.file?_eq_none (by rw [hdir]; simp), hchild]
      rfl
    | directory =>
      have hchild : t.child d.place key = .ok (d.place ++ [key]) :=
        FileTree.child_eq_ok_iff.mpr ⟨hnull, hdir, hlong, rfl⟩
      rw [hchild]
      dsimp only
      unfold FileTree.readText FileTree.read FileTree.file?
      cases hentry : t.entry? (d.place ++ [key]) with
      | none => rfl
      | some e =>
        cases e with
        | directory => rfl
        | file content =>
          simp only [Option.bind_some]
          unfold contentDocument?
          cases String.fromUTF8? content with
          | none => rfl
          | some text =>
            simp only [bind, Option.bind_some]
            cases Envelope.read? text with
            | none => rfl
            | some e =>
              simp only [Option.bind_some]
              by_cases hlater : StoreError.knownVersion < e.version
              · rw [if_pos hlater, if_pos hlater]
              · rw [if_neg hlater, if_neg hlater]
                rfl

/-- What has a place in the directory under a key that is not refused is a file of the key. -/
lemma isFileKey_of_child {l : Location} (hallowed : keyRefusal? key = none)
    (hchild : t.child d.place key = .ok l) : IsFileKey key := by
  obtain ⟨hnull, -, hlong, -⟩ := FileTree.child_eq_ok_iff.mp hchild
  exact ⟨hallowed, hnull, hlong⟩

lemma exists_child_error (hallowed : keyRefusal? key = none) (hkey : ¬ IsFileKey key) :
    ∃ e, t.child d.place key = .error e := by
  cases hchild : t.child d.place key with
  | error e => exact ⟨e, rfl⟩
  | ok l => exact absurd (isFileKey_of_child hallowed hchild) hkey

/-- Under any other key there is no document. -/
lemma document?_eq_none (hkey : ¬ IsFileKey key) : document? (.directory d t) key = none := by
  unfold document? Store.load Directory.load envelope
  by_cases hallowed : keyRefusal? key = none
  · obtain ⟨e, hchild⟩ := exists_child_error (t := t) (d := d) hallowed hkey
    simp only [checkKey_eq_ok_iff.mpr hallowed, bind, Except.bind, hchild]
    cases e <;> rfl
  · have hcheck : ∃ e, checkKey key = .error e := by
      unfold checkKey
      split
      · exact ⟨_, rfl⟩
      · next hnone => exact absurd hnone hallowed
    obtain ⟨e, hcheck⟩ := hcheck
    simp only [hcheck, bind, Except.bind]
    rfl

/-- The document under a key depends on its file only. -/
lemma document?_congr (ht : t.IsSound) (hu : u.IsSound)
    (h : isTemporary key = false → u.file? (d.place ++ [key]) = t.file? (d.place ++ [key])) :
    document? (.directory d u) key = document? (.directory d t) key := by
  by_cases hkey : IsFileKey key
  · rw [document?_eq hu hkey, document?_eq ht hkey, h (not_isTemporary_of_keyRefusal? hkey.1)]
  · rw [document?_eq_none hkey, document?_eq_none hkey]

/-! ### The keys -/

lemma sorted_mergeSort (names : List String) :
    (names.mergeSort fun a b => a ≤ b).Pairwise (· ≤ ·) := by
  have hpairwise : (names.mergeSort fun a b => decide (a ≤ b)).Pairwise
      fun a b => decide (a ≤ b) = true :=
    List.pairwise_mergeSort
      (fun a b c hab hbc => by
        simp only [decide_eq_true_eq] at hab hbc ⊢
        exact hab.trans hbc)
      (fun a b => by
        simp only [Bool.or_eq_true, decide_eq_true_eq]
        exact le_total a b) names
  exact hpairwise.imp fun h => of_decide_eq_true h

/-- Lists without repetitions that have the same members are the same when they are sorted. -/
lemma mergeSort_congr {ns ms : List String} (hns : ns.Nodup) (hms : ms.Nodup)
    (h : ∀ name, name ∈ ns ↔ name ∈ ms) :
    ns.mergeSort (fun a b => a ≤ b) = ms.mergeSort fun a b => a ≤ b := by
  refine List.Perm.eq_of_pairwise (fun a b _ _ hab hba => le_antisymm hab hba)
    (sorted_mergeSort ns) (sorted_mergeSort ms) ?_
  exact ((List.mergeSort_perm ns _).trans ((List.perm_ext_iff_of_nodup hns hms).mpr h)).trans
    (List.mergeSort_perm ms _).symm

/-- The keys depend on the files that are not temporary.  A directory without any may be missing. -/
lemma keys_congr (ht : t.IsSound) (hu : u.IsSound)
    (hfiles : ∀ name, isTemporary name = false →
      u.file? (d.place ++ [name]) = t.file? (d.place ++ [name]))
    (hplace : u.entry? d.place = t.entry? d.place ∨
      t.entry? d.place = none ∧ u.entry? d.place = some .directory) : d.keys u = d.keys t := by
  have hlisted : ∀ {v : FileTree}, v.entry? d.place = some .directory →
      ∃ names, v.fileNames d.place = .ok names := by
    intro v hv
    unfold FileTree.fileNames
    rw [hv]
    exact ⟨_, rfl⟩
  unfold keys
  rcases hplace with hsame | ⟨hmissing, hmade⟩
  · cases hdir : t.entry? d.place with
    | none =>
      rw [hdir] at hsame
      simp only [FileTree.fileNames, hdir, hsame]
    | some e =>
      rw [hdir] at hsame
      cases e with
      | file => simp only [FileTree.fileNames, hdir, hsame]
      | directory =>
        obtain ⟨ns, hns⟩ := hlisted hsame
        obtain ⟨ms, hms⟩ := hlisted hdir
        rw [hns, hms]
        dsimp only
        congr 1
        refine mergeSort_congr ((FileTree.nodup_fileNames hu hns).filter _)
          ((FileTree.nodup_fileNames ht hms).filter _) fun name => ?_
        rw [List.mem_filter, List.mem_filter, FileTree.mem_fileNames hu hns,
          FileTree.mem_fileNames ht hms]
        by_cases htemporary : isTemporary name = false
        · rw [hfiles name htemporary]
        · simp [htemporary]
  · obtain ⟨ns, hns⟩ := hlisted hmade
    have hnone : ns.filter (fun n => !isTemporary n) = [] := by
      refine List.filter_eq_nil_iff.mpr fun name hname => ?_
      by_contra htemporary
      have hfile : t.file? (d.place ++ [name]) ≠ none := by
        rw [← hfiles name (by simpa using htemporary)]
        exact (FileTree.mem_fileNames hu hns).mp hname
      exact hfile (ht.file?_eq_none (by rw [hmissing]; simp))
    have hempty : t.fileNames d.place = .error .missing := by
      unfold FileTree.fileNames
      rw [hmissing]
    rw [hns, hempty]
    dsimp only
    rw [hnone, List.mergeSort_nil]

/-! ### Saving -/

/-- Only the temporary file of a key was touched, and the directory made if it was missing. -/
structure Drafts (d : Directory) (key : String) (t u : FileTree) : Prop where
  files : ∀ l, l ≠ d.place ++ [temporaryName key] → u.file? l = t.file? l
  place : u.entry? d.place = t.entry? d.place ∨
    t.entry? d.place = none ∧ u.entry? d.place = some .directory
  sound : t.IsSound → u.IsSound

lemma Drafts.refl (d : Directory) (key : String) (t : FileTree) : Drafts d key t t :=
  ⟨fun _ _ => rfl, .inl rfl, id⟩

/-- The directory is made where it is missing. -/
lemma drafts_prepare (h : d.perform t .prepare = .ok u) : Drafts d key t u := by
  simp only [perform] at h
  split at h
  · cases h
    exact .refl d key _
  · next hnone =>
    obtain ⟨hwidens, hdir⟩ := FileTree.makeDirectories_spec (fun _ _ hnil => by simp at hnil) h
    exact ⟨fun l _ => hwidens.files l, .inr ⟨hnone, hdir⟩, hwidens.sound⟩

/-- A file that was renamed has a name that a file can have. -/
lemma isFileKey_of_commit (hallowed : keyRefusal? key = none)
    (h : d.perform t (.commit key) = .ok u) : IsFileKey key := by
  simp only [perform, FileTree.rename, bind, Except.bind] at h
  cases hsource : t.child d.place (temporaryName key) with
  | error e => simp [hsource] at h
  | ok here =>
    cases htarget : t.child d.place key with
    | error e => simp [hsource, htarget] at h
    | ok there => exact isFileKey_of_child hallowed htarget

/-- What becomes of a save. -/
inductive Saves (d : Directory) (t : FileTree) (key : String) (value : Json) :
    Except StoreError Unit × FileTree → Prop
  | fails {e : StoreError} {u : FileTree} (hdrafts : Drafts d key t u) :
    Saves d t key value (.error e, u)
  /-- The file of the key is the only one changed that belongs to a key. -/
  | saves {u : FileTree} (hkey : IsFileKey key)
    (hfile : u.file? (d.place ++ [key]) = some (fileText key value).toUTF8)
    (hothers : ∀ l, l ≠ d.place ++ [key] → l ≠ d.place ++ [temporaryName key] →
      u.file? l = t.file? l)
    (hsound : t.IsSound → u.IsSound) : Saves d t key value (.ok (), u)

/-- Saving a document changes the file of its key, unless it fails. -/
lemma saves_save (d : Directory) (t : FileTree) (key : String) (value : Json) :
    Saves d t key value (d.save t key value) := by
  unfold save
  cases hcheck : checkKey key with
  | error e => exact .fails (.refl d key t)
  | ok =>
    have hallowed : keyRefusal? key = none := checkKey_eq_ok_iff.mp hcheck
    have hne : d.place ++ [key] ≠ d.place ++ [temporaryName key] :=
      location_ne (temporaryName_ne (not_isTemporary_of_keyRefusal? hallowed))
    dsimp only
    simp only [saveSteps, performAll]
    cases hprepare : d.perform t .prepare with
    | error e => exact .fails (.refl d key t)
    | ok v =>
      have hdrafts : Drafts d key t v := drafts_prepare hprepare
      dsimp only
      cases hwrite : d.perform v (.write key (fileText key value).toUTF8) with
      | error e => exact .fails hdrafts
      | ok w =>
        obtain ⟨hrewrites, hwritten⟩ := FileTree.write_spec hwrite
        have hplace : w.entry? d.place = v.entry? d.place := by
          have hdir : v.entry? d.place = some .directory := by
            simp only [perform, FileTree.write, bind, Except.bind] at hwrite
            cases hchild : v.child d.place (temporaryName key) with
            | error e => simp [hchild] at hwrite
            | ok l => exact (FileTree.child_eq_ok_iff.mp hchild).2.1
          rw [hdir, hrewrites.directories, hdir]
        have hdrafted : Drafts d key t w :=
          ⟨fun l hl => (hrewrites.files l hl).trans (hdrafts.files l hl),
            by rw [hplace]; exact hdrafts.place, fun ht => hrewrites.sound (hdrafts.sound ht)⟩
        dsimp only
        cases hcommit : d.perform w (.commit key) with
        | error e => exact .fails hdrafted
        | ok u =>
          obtain ⟨hothers, -, hsound, hmoved, -⟩ := FileTree.rename_spec hcommit
          refine .saves (isFileKey_of_commit hallowed hcommit) (hmoved.trans hwritten)
            (fun l hl htemporary => ?_)
            fun ht => hsound (hdrafted.sound ht)
          exact (hothers l htemporary hl).trans (hdrafted.files l htemporary)

end Directory

/-! ### Saves that fail, and saves under other keys -/

/-- Saving keeps the tree sound. -/
lemma IsSound.save {s : Store} (hs : s.IsSound) (key : String) (value : Json) :
    (s.save key value).2.IsSound := by
  cases s with
  | memory m =>
    simp only [Store.save]
    split <;> trivial
  | directory d t =>
    have hsaves := d.saves_save t key value
    simp only [Store.save]
    generalize d.save t key value = saved at hsaves ⊢
    cases hsaves with
    | fails hdrafts => exact hdrafts.sound hs
    | saves _ _ _ hsound => exact hsound hs

/-- A save that fails leaves all documents and all keys as they were. -/
lemma agrees_of_save_error {s : Store} {e : StoreError} (hs : s.IsSound)
    (h : (s.save key value).1 = .error e) : Agrees s (s.save key value).2 := by
  cases s with
  | memory m =>
    simp only [Store.save] at h ⊢
    split at h
    · cases h
    · exact .refl _
  | directory d t =>
    have hsaves := d.saves_save t key value
    simp only [Store.save] at h ⊢
    generalize d.save t key value = saved at hsaves h ⊢
    cases hsaves with
    | @fails _ u hdrafts =>
      have ht : t.IsSound := hs
      have hfiles : ∀ name, isTemporary name = false →
          u.file? (d.place ++ [name]) = t.file? (d.place ++ [name]) := fun name hname =>
        hdrafts.files _ (Directory.location_ne (Directory.temporaryName_ne hname))
      exact ⟨fun name => Directory.document?_congr ht (hdrafts.sound ht) (hfiles name),
        Directory.keys_congr ht (hdrafts.sound ht) hfiles hdrafts.place⟩
    | saves => cases h

end Store

end Recital

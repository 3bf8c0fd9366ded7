import Recital.Proofs.Script.Labels
import Recital.Proofs.Store.Snapshots

/-!
# What a directory holds

Whatever happened to a directory of documents, its files that are not temporary are the whole files
of the documents that it holds (`Directory.Mirrors`): loading a key gives what is held under it, and
the keys are those under which something is held.  Temporary files may hold anything.  One step of a
save, a save and a removal each keep this up: a save changes what is held when its last step, the
renaming, is done.

Nothing stands in the way of a save: no file where the directory is to be, and no directory where a
file is to be.
-/

namespace Recital.Store

/-- A document can be saved under the key: the temporary file can have its name, which is the longer
one. -/
structure IsSavable (key : String) : Prop where
  allowed : keyRefusal? key = none
  noNull : key.toList.contains FileTree.nullChar = false
  short : FileTree.isLongName (Directory.temporaryName key) = false

/-- The value can be written to the file of a document and read back. -/
structure IsDocument (j : Json) : Prop where
  normal : j.IsNormal
  fits : j.Fits (Json.depthLimit - 1)

lemma IsSavable.isFileKey {key : String} (h : IsSavable key) : IsFileKey key := by
  refine ⟨h.allowed, h.noNull, ?_⟩
  have hshort := h.short
  simp only [FileTree.isLongName, Directory.temporaryName, String.utf8ByteSize_append,
    decide_eq_false_iff_not] at hshort ⊢
  omega

lemma IsSavable.noNull_temporaryName {key : String} (h : IsSavable key) :
    (Directory.temporaryName key).toList.contains FileTree.nullChar = false := by
  have hending : temporaryEnding.toList.contains FileTree.nullChar = false := rfl
  have hkey := h.noNull
  simp only [Directory.temporaryName, String.toList_append, List.contains_eq_mem, List.mem_append,
    decide_eq_false_iff_not] at hkey hending ⊢
  exact fun hmem => hmem.elim hkey hending

namespace Directory

variable {d : Directory} {t u : FileTree} {l : Location} {held : String → Option Json}
  {key name : String} {j : Json} {content : ByteArray}

/-- A directory without files, or one that is yet to be made. -/
structure IsVacant (d : Directory) (t : FileTree) : Prop where
  sound : t.IsSound
  way : ∀ l, l <+: d.place → t.file? l = none
  vacant : ∀ name, t.entry? (d.place ++ [name]) = none

/-- The files of a directory are those of the documents that are held, and temporary ones. -/
structure Mirrors (d : Directory) (held : String → Option Json) (t : FileTree) : Prop where
  sound : t.IsSound
  way : ∀ l, l <+: d.place → t.file? l = none
  flat : ∀ name, t.entry? (d.place ++ [name]) ≠ some .directory
  files : ∀ name, isTemporary name = false →
    t.file? (d.place ++ [name]) = (held name).map fun j => (fileText name j).toUTF8
  named : ∀ name, held name ≠ none → IsFileKey name

lemma IsVacant.mirrors (h : d.IsVacant t) : d.Mirrors (fun _ => none) t where
  sound := h.sound
  way := h.way
  flat name := by
    rw [h.vacant name]
    exact (Option.some_ne_none _).symm
  files name _ := by
    unfold FileTree.file?
    rw [h.vacant name]
    rfl
  named _ hheld := absurd rfl hheld

/-- A location in a directory is not on the way to it. -/
lemma not_prefix_of_location (hl : l <+: d.place) (name : String) : ¬ d.place ++ [name] <+: l := by
  intro hbehind
  have hlength := (hbehind.trans hl).length_le
  rw [List.length_append, List.length_singleton] at hlength
  omega

lemma ne_location_on_way (hl : l <+: d.place) (name : String) : l ≠ d.place ++ [name] := by
  rintro rfl
  exact not_prefix_of_location hl name (List.prefix_refl _)

namespace Mirrors

variable (h : d.Mirrors held t)

include h

/-- Where the directory is, a directory is or nothing. -/
lemma place : t.entry? d.place = none ∨ t.entry? d.place = some .directory := by
  have hfile := h.way d.place (List.prefix_refl _)
  cases hentry : t.entry? d.place with
  | none => exact .inl rfl
  | some e =>
    cases e with
    | directory => exact .inr rfl
    | file => cases hfile.symm.trans (FileTree.file?_eq_some_iff.mpr hentry)

/-- Only files in the directory were changed. -/
lemma of_files {held' : String → Option Json} (hsound : u.IsSound)
    (hflat : ∀ name, u.entry? (d.place ++ [name]) ≠ some .directory)
    (hothers : ∀ l, (∀ name, l ≠ d.place ++ [name]) → u.file? l = t.file? l)
    (hfiles : ∀ name, isTemporary name = false →
      u.file? (d.place ++ [name]) = (held' name).map fun j => (fileText name j).toUTF8)
    (hnamed : ∀ name, held' name ≠ none → IsFileKey name) : d.Mirrors held' u where
  sound := hsound
  way l hl := (hothers l (ne_location_on_way hl)).trans (h.way l hl)
  flat := hflat
  files := hfiles
  named := hnamed

/-- The file of a key holds the document, if there is one. -/
lemma file?_eq (hkey : keyRefusal? key = none) :
    t.file? (d.place ++ [key]) = (held key).map fun j => (fileText key j).toUTF8 :=
  h.files key (not_isTemporary_of_keyRefusal? hkey)

/-- Where there is no directory, nothing is held. -/
lemma held_eq_none (hmissing : t.entry? d.place = none) (name : String) : held name = none := by
  by_contra hheld
  have hfile := h.file?_eq (h.named name hheld).1
  rw [h.sound.file?_eq_none (by rw [hmissing]; exact (Option.some_ne_none _).symm)] at hfile
  exact hheld (Option.map_eq_none_iff.mp hfile.symm)

/-! ### Reading -/

/-- Loading gives what is held, if it can be read. -/
lemma load (hkey : IsFileKey key) (hdocument : ∀ j, held key = some j → IsDocument j) :
    d.load t key = .ok (held key) := by
  obtain ⟨hallowed, hnull, hlong⟩ := hkey
  have hfile := h.file?_eq hallowed
  unfold Directory.load envelope
  simp only [checkKey_eq_ok_iff.mpr hallowed, bind, Except.bind]
  rcases h.place with hmissing | hdir
  · have hchild : t.child d.place key = .error .missing := by
      unfold FileTree.child
      rw [hnull, if_neg Bool.false_ne_true, hmissing]
    rw [h.held_eq_none hmissing, hchild]
    rfl
  · rw [FileTree.child_eq hdir hnull hlong]
    dsimp only
    unfold FileTree.readText FileTree.read
    cases hheld : held key with
    | none =>
      have hentry : t.entry? (d.place ++ [key]) = none := by
        rw [hheld] at hfile
        cases hentry : t.entry? (d.place ++ [key]) with
        | none => rfl
        | some e =>
          cases e with
          | directory => exact absurd hentry (h.flat key)
          | file => cases hfile.symm.trans (FileTree.file?_eq_some_iff.mpr hentry)
      rw [hentry]
      rfl
    | some j =>
      have hj := hdocument j hheld
      rw [hheld] at hfile
      rw [FileTree.file?_eq_some_iff.mp hfile]
      have htext : String.fromUTF8? (fileText key j).toUTF8 = some (fileText key j) :=
        dif_pos (fileText key j).isValidUTF8
      have henvelope : Envelope.read? (fileText key j) = some { key, data := j } :=
        Envelope.read?_spread hj.normal hj.fits
      simp only [htext, henvelope]
      rfl

/-- The keys are those under which something is held, in increasing order. -/
lemma keys : ∃ names, d.keys t = .ok names ∧ names.Pairwise (· < ·) ∧
    ∀ name, name ∈ names ↔ held name ≠ none := by
  unfold Directory.keys
  rcases h.place with hmissing | hdir
  · have hnames : t.fileNames d.place = .error .missing := by
      unfold FileTree.fileNames
      rw [hmissing]
    rw [hnames]
    refine ⟨[], rfl, .nil, fun name => iff_of_false List.not_mem_nil ?_⟩
    exact fun hne => hne (h.held_eq_none hmissing name)
  · obtain ⟨names, hnames⟩ : ∃ names, t.fileNames d.place = .ok names := by
      unfold FileTree.fileNames
      rw [hdir]
      exact ⟨_, rfl⟩
    rw [hnames]
    refine ⟨_, rfl, ?_, fun name => ?_⟩
    · have hnodup : (names.filter fun n => !isTemporary n).Nodup :=
        (FileTree.nodup_fileNames h.sound hnames).filter _
      have hne := (List.mergeSort_perm (names.filter fun n => !isTemporary n)
        fun a b => decide (a ≤ b)).nodup_iff.mpr hnodup
      refine ((sorted_mergeSort _).and hne).imp fun hboth => ?_
      exact lt_of_le_of_ne hboth.1 hboth.2
    · rw [List.mem_mergeSort, List.mem_filter, FileTree.mem_fileNames h.sound hnames]
      cases htemporary : isTemporary name with
      | true =>
        refine iff_of_false (fun hboth => absurd hboth.2 (by decide)) fun hheld => ?_
        have hkey := not_isTemporary_of_keyRefusal? (h.named name hheld).1
        cases htemporary.symm.trans hkey
      | false =>
        rw [h.files name htemporary]
        simp

/-! ### Steps -/

/-- Directories were made on the way to the directory. -/
lemma making (hl : l <+: d.place) (hmade : t.makeDirectories [] l = .ok u) : d.Mirrors held u := by
  obtain ⟨hwidens, -⟩ := FileTree.makeDirectories_spec (fun _ _ hnil => by simp at hnil) hmade
  refine ⟨hwidens.sound h.sound, fun m hm => (hwidens.files m).trans (h.way m hm), fun name => ?_,
    fun name hname => (hwidens.files _).trans (h.files name hname), h.named⟩
  rw [FileTree.entry?_makeDirectories hmade (not_prefix_of_location hl name)]
  exact h.flat name

/-- The directory is made where it is missing. -/
lemma prepare : ∃ u, d.perform t .prepare = .ok u ∧ d.Mirrors held u ∧
    u.entry? d.place = some .directory := by
  simp only [perform]
  rcases h.place with hmissing | hdir
  · obtain ⟨u, hu⟩ : ∃ u, t.makeDirectories [] d.place = .ok u :=
      FileTree.exists_makeDirectories fun l _ hl => h.way l hl
    obtain ⟨-, hplace⟩ := FileTree.makeDirectories_spec (fun _ _ hnil => by simp at hnil) hu
    rw [hmissing]
    exact ⟨u, hu, h.making (List.prefix_refl _) hu, hplace⟩
  · rw [hdir]
    exact ⟨t, rfl, h, hdir⟩

/-- A temporary file may hold anything. -/
lemma write (hwrite : d.perform t (.write key content) = .ok u) :
    d.Mirrors held u ∧ u.file? (d.place ++ [temporaryName key]) = some content ∧
      (t.entry? d.place = some .directory → u.entry? d.place = some .directory) := by
  obtain ⟨hrewrites, hwritten⟩ := FileTree.write_spec hwrite
  refine ⟨h.of_files (hrewrites.sound h.sound) (fun name => ?_)
    (fun l hl => hrewrites.files l (hl _))
    (fun name hname => ?_) h.named, hwritten, (hrewrites.directories _).mpr⟩
  · rw [Ne, hrewrites.directories]
    exact h.flat name
  · rw [hrewrites.files _ (location_ne (temporaryName_ne hname))]
    exact h.files name hname

lemma exists_write (hdir : t.entry? d.place = some .directory) (hkey : IsSavable key)
    (content : ByteArray) : ∃ u, d.perform t (.write key content) = .ok u :=
  FileTree.exists_write hdir hkey.noNull_temporaryName hkey.short (h.flat _) content

/-- A document is held once its temporary file has got the name of the key. -/
lemma commit (hkey : keyRefusal? key = none)
    (hwritten : t.file? (d.place ++ [temporaryName key]) = some (fileText key j).toUTF8)
    (hcommit : d.perform t (.commit key) = .ok u) :
    IsFileKey key ∧ d.Mirrors (Function.update held key (some j)) u := by
  obtain ⟨hothers, hdirectories, hsound, hmoved, -⟩ := FileTree.rename_spec hcommit
  have hfileKey := isFileKey_of_commit hkey hcommit
  refine ⟨hfileKey, h.of_files (hsound h.sound) (fun name => ?_)
    (fun l hl => hothers l (hl _) (hl _)) (fun name hname => ?_) fun name hx => ?_⟩
  · rw [Ne, hdirectories]
    exact h.flat name
  · by_cases heq : name = key
    · rw [heq, Function.update_self, hmoved, hwritten]
      rfl
    · rw [Function.update_of_ne heq,
        hothers _ (location_ne (temporaryName_ne hname)) (location_ne heq)]
      exact h.files name hname
  · by_cases heq : name = key
    · exact heq ▸ hfileKey
    · rw [Function.update_of_ne heq] at hx
      exact h.named name hx

/-! ### Saving and removing -/

/-- Whatever was written of a temporary file, nothing else is held than before. -/
lemma draft (key : String) (content : ByteArray) :
    d.Mirrors held (d.performAll t [.prepare, .write key content]).2 := by
  obtain ⟨u, hprepared, hu, -⟩ := h.prepare
  simp only [performAll, hprepared]
  split
  · exact hu
  · next hwrite => exact (hu.write hwrite).1

/-- A save changes what is held under its key, or it fails and changes nothing. -/
lemma save (key : String) (j : Json) :
    (∃ e, (d.save t key j).1 = .error e) ∧ d.Mirrors held (d.save t key j).2 ∨
      (d.save t key j).1 = .ok () ∧ IsFileKey key ∧
        d.Mirrors (Function.update held key (some j)) (d.save t key j).2 := by
  unfold Directory.save
  cases hcheck : checkKey key with
  | error e => exact .inl ⟨⟨e, rfl⟩, h⟩
  | ok =>
    obtain ⟨u, hprepared, hu, -⟩ := h.prepare
    simp only [saveSteps, performAll, hprepared]
    cases hwrite : d.perform u (.write key (fileText key j).toUTF8) with
    | error e => exact .inl ⟨⟨_, rfl⟩, hu⟩
    | ok v =>
      obtain ⟨hv, hwritten, -⟩ := hu.write hwrite
      dsimp only
      cases hcommit : d.perform v (.commit key) with
      | error e => exact .inl ⟨⟨_, rfl⟩, hv⟩
      | ok w => exact .inr ⟨rfl, hv.commit (checkKey_eq_ok_iff.mp hcheck) hwritten hcommit⟩

/-- A save under a key that leaves room for the temporary file succeeds. -/
lemma save_ok (hkey : IsSavable key) (j : Json) : (d.save t key j).1 = .ok () := by
  obtain ⟨u, hprepared, hu, hdir⟩ := h.prepare
  obtain ⟨v, hwrite⟩ := hu.exists_write hdir hkey (fileText key j).toUTF8
  obtain ⟨hv, hwritten, hstill⟩ := hu.write hwrite
  obtain ⟨w, hcommit⟩ : ∃ w, d.perform v (.commit key) = .ok w :=
    FileTree.exists_rename (hstill hdir) hkey.noNull hkey.isFileKey.2.2 hkey.noNull_temporaryName
      hkey.short hwritten (hv.flat key)
  unfold Directory.save
  simp only [checkKey_eq_ok_iff.mpr hkey.allowed, saveSteps, performAll, hprepared, hwrite, hcommit]

/-- Nothing is held any more under a key that is removed. -/
lemma delete (hkey : IsFileKey key) :
    ∃ u, d.delete t key = .ok u ∧ d.Mirrors (Function.update held key none) u := by
  obtain ⟨hallowed, hnull, hlong⟩ := hkey
  have hfile := h.file?_eq hallowed
  have hsame : held key = none → Function.update held key none = held := fun hnone => by
    rw [← hnone, Function.update_eq_self]
  unfold Directory.delete
  simp only [checkKey_eq_ok_iff.mpr hallowed, bind, Except.bind]
  rcases h.place with hmissing | hdir
  · have hremove : t.remove d.place key = .error .missing := by
      unfold FileTree.remove FileTree.child
      rw [hnull, if_neg Bool.false_ne_true, hmissing]
      rfl
    rw [hremove, hsame (h.held_eq_none hmissing key)]
    exact ⟨t, rfl, h⟩
  · rw [FileTree.remove_eq hdir hnull hlong (h.flat key)]
    cases hheld : held key with
    | none =>
      rw [hheld] at hfile
      rw [hfile, hsame hheld]
      exact ⟨t, rfl, h⟩
    | some j =>
      rw [hheld] at hfile
      have hsound := h.sound.erase hfile
      have hne : ∀ name : String, d.place ++ [name] ≠ [] := fun name =>
        List.append_ne_nil_of_right_ne_nil _ (List.cons_ne_nil _ _)
      have hfiles : ∀ l, l ≠ d.place ++ [key] →
          FileTree.file? (t.erase (d.place ++ [key])) l = t.file? l := fun l hl => by
        by_cases hnil : l = []
        · rw [hnil]
          rfl
        · unfold FileTree.file?
          rw [FileTree.entry?_erase hnil, if_neg hl]
      rw [hfile]
      refine ⟨_, rfl, h.of_files hsound (fun name => ?_) (fun l hl => hfiles l (hl _))
        (fun name hname => ?_) fun name hx => ?_⟩
      · rw [FileTree.entry?_erase (hne name)]
        split
        · exact (Option.some_ne_none _).symm
        · exact h.flat name
      · by_cases heq : name = key
        · unfold FileTree.file?
          rw [heq, Function.update_self, FileTree.entry?_erase (hne key), if_pos rfl]
          rfl
        · rw [Function.update_of_ne heq, hfiles _ (location_ne heq)]
          exact h.files name hname
      · by_cases heq : name = key
        · rw [heq, Function.update_self] at hx
          exact absurd rfl hx
        · rw [Function.update_of_ne heq] at hx
          exact h.named name hx

/-- Removing a key that no file can have fails or changes nothing, and nothing was held under it. -/
lemma of_delete (hdelete : d.delete t key = .ok u) :
    d.Mirrors (Function.update held key none) u := by
  by_cases hkey : IsFileKey key
  · obtain ⟨v, hv, hmirrors⟩ := h.delete hkey
    cases hv.symm.trans hdelete
    exact hmirrors
  · have hnone : held key = none := by
      by_contra hheld
      exact hkey (h.named key hheld)
    have hsame : u = t := by
      unfold Directory.delete FileTree.remove at hdelete
      cases hcheck : checkKey key with
      | error e => simp [hcheck, bind, Except.bind] at hdelete
      | ok =>
        obtain ⟨e, hchild⟩ :=
          exists_child_error (t := t) (d := d) (checkKey_eq_ok_iff.mp hcheck) hkey
        simp only [hcheck, hchild, bind, Except.bind] at hdelete
        cases e <;> cases hdelete
        rfl
    rw [← hnone, Function.update_eq_self, hsame]
    exact h

end Mirrors

end Directory

end Recital.Store

import Recital.Proofs.Script.Shelf
import Recital.Proofs.Store.Agreement

/-!
# Documents stay in their directory

A key is looked at character by character.  One that is not refused is a plain name, and so is the
name of its temporary file; no two keys share a file (`Store.ne_of_mem_filesOf`).

What an operation on a directory reads is not written down anywhere, so it is compared on two trees:
if they agree on the way to the directory and on the files of the key, the answers are the same and
the trees agree again (`Store.Directory.Confined`).  This is shown for the operations on files, then
for the steps of a save one after the other, then for all that can be asked of a directory.
-/

namespace Recital

/-! ### The files of keys -/

namespace Store

open Recital.Path

variable {key name : String} {d : Directory} {t u : FileTree} {o : Operation}

/-- The path of a file of a store. -/
def filePath (root : Path) (name : String) : Path := root.join ⟨name⟩

/-- The names of the files of a key. -/
def filesOf (key : String) : List String := [key, Directory.temporaryName key]

/-- The names of the files that an operation is about. -/
def Operation.fileNames : Operation → List String
  | .save key _ => filesOf key
  | .load key | .delete key => [key]
  | .keys => []

lemma Operation.fileNames_subset {n : String} (hkey : o.key? = some key) (h : n ∈ o.fileNames) :
    n ∈ filesOf key := by
  cases o with
  | keys => cases hkey
  | save =>
    cases hkey
    exact h
  | load =>
    cases hkey
    exact List.mem_singleton.mp h ▸ List.mem_cons_self
  | delete =>
    cases hkey
    exact List.mem_singleton.mp h ▸ List.mem_cons_self

/-- What a key is like that is not refused. -/
lemma shape_of_keyRefusal? (h : keyRefusal? key = none) :
    key ≠ "" ∧ '/' ∉ key.toList ∧ key.toList.head? ≠ some '.' := by
  unfold keyRefusal? at h
  dsimp only at h
  split at h
  · cases h
  next hempty =>
  split at h
  · cases h
  next hslash =>
  split at h
  · cases h
  next hdot =>
  rw [Bool.or_eq_true, not_or, List.contains_iff_mem] at hslash
  exact ⟨by simpa using hempty, hslash.1, hdot⟩

/-- The files of a key that is not refused have plain names. -/
lemma isName_of_mem_filesOf (h : keyRefusal? key = none) (hname : name ∈ filesOf key) :
    IsName name := by
  obtain ⟨hne, hslash, hdot⟩ := shape_of_keyRefusal? h
  rcases List.mem_cons.mp hname with rfl | hname
  · exact isName_of_head? hne hslash hdot
  · obtain rfl := List.mem_singleton.mp hname
    have hending : '/' ∉ temporaryEnding.toList := by decide
    refine isName_of_head? (by simp [Directory.temporaryName, hne]) ?_ ?_
    · rw [Directory.temporaryName, String.toList_append, List.mem_append, not_or]
      exact ⟨hslash, hending⟩
    · rwa [Directory.temporaryName, String.toList_append,
        List.head?_append_of_ne_nil _ (by simpa using hne)]

/-- No file is a file of two keys. -/
lemma ne_of_mem_filesOf {key' name' : String} (h : keyRefusal? key = none)
    (h' : keyRefusal? key' = none) (hne : key ≠ key') (hname : name ∈ filesOf key)
    (hname' : name' ∈ filesOf key') : name ≠ name' := by
  have htemporary := not_isTemporary_of_keyRefusal? h
  have htemporary' := not_isTemporary_of_keyRefusal? h'
  simp only [filesOf, List.mem_cons, List.not_mem_nil, or_false] at hname hname'
  rcases hname with rfl | rfl <;> rcases hname' with rfl | rfl
  · exact hne
  · exact Directory.temporaryName_ne htemporary
  · exact (Directory.temporaryName_ne htemporary').symm
  · intro heq
    refine hne (String.toList_injective ?_)
    have hlists := congrArg String.toList heq
    simpa [Directory.temporaryName] using hlists

/-! ### What an operation sees and changes -/

namespace Directory

variable {names : List String} {α β : Type}

/-- The location is on the way to the directory, or that of one of some files in it. -/
def Near (d : Directory) (names : List String) (l : Location) : Prop :=
  l <+: d.place ∨ ∃ n ∈ names, l = d.place ++ [n]

/-- Nothing can be told apart near the directory. -/
def Alike (d : Directory) (names : List String) (t u : FileTree) : Prop :=
  ∀ l, d.Near names l → t.entry? l = u.entry? l

/-- Only files with the names were changed, and directories made where they were missing. -/
structure Alters (d : Directory) (names : List String) (t u : FileTree) : Prop where
  elsewhere : ∀ l, ¬ d.Near names l → u.entry? l = t.entry? l
  way : ∀ l, l <+: d.place → u.entry? l = t.entry? l ∨
    t.entry? l = none ∧ u.entry? l = some .directory

/-- What is done changes files with the names only, and depends on them only. -/
structure Confined (d : Directory) (names : List String) (f : FileTree → α × FileTree) : Prop where
  alters : ∀ t, d.Alters names t (f t).2
  sees : ∀ t u, d.Alike names t u → (f t).1 = (f u).1 ∧ d.Alike names (f t).2 (f u).2

/-- What is made of a tree, which stays as it is when that fails. -/
def attempt {ε : Type} (f : FileTree → Except ε FileTree) (t : FileTree) :
    Except ε Unit × FileTree :=
  match f t with
  | .ok u => (.ok (), u)
  | .error e => (.error e, t)

lemma near_place : d.Near names d.place := .inl (List.prefix_refl _)

lemma near_file (h : name ∈ names) : d.Near names (d.place ++ [name]) := .inr ⟨name, h, rfl⟩

lemma Alters.refl (d : Directory) (names : List String) (t : FileTree) : d.Alters names t t :=
  ⟨fun _ _ => rfl, fun _ _ => .inl rfl⟩

lemma Alters.trans {v : FileTree} (h : d.Alters names t u) (h' : d.Alters names u v) :
    d.Alters names t v where
  elsewhere l hl := (h'.elsewhere l hl).trans (h.elsewhere l hl)
  way l hl := by
    rcases h.way l hl with heq | ⟨hnone, hmade⟩
    · rw [← heq]
      exact h'.way l hl
    · rcases h'.way l hl with heq' | ⟨hnone', -⟩
      · exact .inr ⟨hnone, heq'.trans hmade⟩
      · cases hnone'.symm.trans hmade

/-- A change of files in the directory is none on the way. -/
lemma Alters.of_files (h : ∀ l, (∀ n ∈ names, l ≠ d.place ++ [n]) → u.entry? l = t.entry? l) :
    d.Alters names t u where
  elsewhere l hl := h l fun n hn heq => hl (.inr ⟨n, hn, heq⟩)
  way l hl := .inl (h l fun n _ => ne_location_on_way hl n)

/-- What only looks at the directory is confined. -/
lemma Confined.of_reading {f : FileTree → α} (h : ∀ t u, d.Alike names t u → f t = f u) :
    d.Confined names fun t => (f t, t) where
  alters t := .refl d names t
  sees t u htu := ⟨h t u htu, htu⟩

/-- An answer may be put in other words. -/
lemma Confined.map {f : FileTree → α × FileTree} (h : d.Confined names f) (g : α → β) :
    d.Confined names fun t => (g (f t).1, (f t).2) where
  alters := h.alters
  sees t u htu := ⟨congrArg g (h.sees t u htu).1, (h.sees t u htu).2⟩

/-- Two attempts fail alike or make trees that are alike. -/
def Accord {ε : Type} (d : Directory) (names : List String) :
    Except ε FileTree → Except ε FileTree → Prop
  | .ok v, .ok w => d.Alike names v w
  | .error e, .error e' => e = e'
  | _, _ => False

lemma Accord.cases {ε : Type} {x y : Except ε FileTree} (h : d.Accord names x y) :
    (∃ e, x = .error e ∧ y = .error e) ∨ ∃ v w, x = .ok v ∧ y = .ok w ∧ d.Alike names v w := by
  cases x with
  | error e =>
    cases y with
    | error e' =>
      obtain rfl : e = e' := h
      exact .inl ⟨e, rfl, rfl⟩
    | ok w => exact h.elim
  | ok v =>
    cases y with
    | error e' => exact h.elim
    | ok w => exact .inr ⟨v, w, rfl, rfl, h⟩

/-- What is tried on trees that are alike. -/
lemma Confined.of_attempt {ε : Type} {f : FileTree → Except ε FileTree}
    (halters : ∀ t u, f t = .ok u → d.Alters names t u)
    (hsees : ∀ t u, d.Alike names t u → d.Accord names (f t) (f u)) :
    d.Confined names (attempt f) where
  alters t := by
    unfold attempt
    split
    · next u hu => exact halters t u hu
    · exact .refl d names t
  sees t u htu := by
    unfold attempt
    rcases (hsees t u htu).cases with ⟨e, ht, hu⟩ | ⟨v, w, ht, hu, hvw⟩
    · rw [ht, hu]
      exact ⟨rfl, htu⟩
    · rw [ht, hu]
      exact ⟨rfl, hvw⟩

section Alike

variable (h : d.Alike names t u)

include h

lemma Alike.put {l : Location} (hl : l ≠ []) (e : Entry) :
    d.Alike names (t.put l e) (u.put l e) := by
  intro m hm
  rw [FileTree.entry?_put hl, FileTree.entry?_put hl, h m hm]

lemma Alike.erase (l : Location) : d.Alike names (t.erase l) (u.erase l) := by
  intro m hm
  by_cases hnil : m = []
  · rw [hnil]
    rfl
  · rw [FileTree.entry?_erase hnil, FileTree.entry?_erase hnil, h m hm]

lemma Alike.child (name : String) : t.child d.place name = u.child d.place name := by
  unfold FileTree.child
  rw [h d.place near_place]

lemma Alike.read (hname : name ∈ names) :
    t.read (d.place ++ [name]) = u.read (d.place ++ [name]) := by
  unfold FileTree.read
  rw [h _ (near_file hname)]

lemma Alike.readText (hname : name ∈ names) :
    t.readText (d.place ++ [name]) = u.readText (d.place ++ [name]) := by
  unfold FileTree.readText
  rw [h.read hname]

/-- Directories are made alike on the way. -/
lemma Alike.makeDirectories {here rest : List String} (hway : here ++ rest <+: d.place) :
    d.Accord names (t.makeDirectories here rest) (u.makeDirectories here rest) := by
  induction rest generalizing t u here with
  | nil =>
    have hhere : u.entry? here = t.entry? here := (h here (.inl (by simpa using hway))).symm
    unfold FileTree.makeDirectories
    rw [hhere]
    split
    · exact h
    · rfl
    · next hnone =>
      exact h.put (by rintro rfl; cases hnone) _
  | cons part rest ih =>
    have hhere : u.entry? here = t.entry? here :=
      (h here (.inl ((List.prefix_append _ _).trans hway))).symm
    have hnext : here ++ [part] ++ rest <+: d.place := by simpa using hway
    unfold FileTree.makeDirectories
    rw [hhere]
    split
    · rfl
    · exact ih h hnext
    · next hnone =>
      exact ih (h.put (by rintro rfl; cases hnone) _) hnext

/-- A file is written alike. -/
lemma Alike.write (hname : name ∈ names) (content : ByteArray) :
    d.Accord names (t.write d.place name content) (u.write d.place name content) := by
  unfold FileTree.write
  rw [← h.child name]
  cases hchild : t.child d.place name with
  | error e => rfl
  | ok l =>
    obtain ⟨-, -, -, rfl⟩ := FileTree.child_eq_ok_iff.mp hchild
    simp only [bind, Except.bind, ← h _ (near_file hname)]
    split
    · rfl
    · exact h.put (by simp) _

/-- A file is renamed alike. -/
lemma Alike.rename {source target : String} (hsource : source ∈ names) (htarget : target ∈ names) :
    d.Accord names (t.rename d.place source target) (u.rename d.place source target) := by
  unfold FileTree.rename
  rw [← h.child source, ← h.child target]
  cases hfrom : t.child d.place source with
  | error e => rfl
  | ok here =>
    cases hto : t.child d.place target with
    | error e => rfl
    | ok there =>
      obtain ⟨-, -, -, rfl⟩ := FileTree.child_eq_ok_iff.mp hfrom
      obtain ⟨-, -, -, rfl⟩ := FileTree.child_eq_ok_iff.mp hto
      simp only [bind, Except.bind, ← h.read hsource, ← h _ (near_file htarget)]
      cases t.read (d.place ++ [source]) with
      | error e => rfl
      | ok content =>
        dsimp only
        split
        · rfl
        · exact (h.erase _).put (by simp) _

/-- A file is removed alike. -/
lemma Alike.remove (hname : name ∈ names) :
    d.Accord names (t.remove d.place name) (u.remove d.place name) := by
  unfold FileTree.remove
  rw [← h.child name]
  cases hchild : t.child d.place name with
  | error e => rfl
  | ok l =>
    obtain ⟨-, -, -, rfl⟩ := FileTree.child_eq_ok_iff.mp hchild
    simp only [bind, Except.bind, ← h.read hname]
    cases t.read (d.place ++ [name]) with
    | error e => rfl
    | ok content => exact h.erase _

end Alike

/-- Only the file that is written is changed. -/
lemma alters_write {content : ByteArray} (hname : name ∈ names)
    (h : t.write d.place name content = .ok u) : d.Alters names t u := by
  unfold FileTree.write at h
  cases hchild : t.child d.place name with
  | error e => simp [hchild, bind, Except.bind] at h
  | ok l =>
    obtain ⟨-, -, -, rfl⟩ := FileTree.child_eq_ok_iff.mp hchild
    simp only [hchild, bind, Except.bind] at h
    split at h
    · cases h
    · cases h
      exact .of_files fun l hl => by rw [FileTree.entry?_put (by simp), if_neg (hl name hname)]

/-- Without an entry the others are as they were. -/
lemma entry?_erase_of_ne {l m : Location} (h : l ≠ m) :
    FileTree.entry? (t.erase m) l = t.entry? l := by
  by_cases hnil : l = []
  · rw [hnil]
    rfl
  · rw [FileTree.entry?_erase hnil, if_neg h]

/-- Only the two files of a renaming are changed. -/
lemma alters_rename {source target : String} (hsource : source ∈ names) (htarget : target ∈ names)
    (h : t.rename d.place source target = .ok u) : d.Alters names t u := by
  unfold FileTree.rename at h
  cases hfrom : t.child d.place source with
  | error e => simp [hfrom, bind, Except.bind] at h
  | ok here =>
    cases hto : t.child d.place target with
    | error e => simp [hfrom, hto, bind, Except.bind] at h
    | ok there =>
      obtain ⟨-, -, -, rfl⟩ := FileTree.child_eq_ok_iff.mp hfrom
      obtain ⟨-, -, -, rfl⟩ := FileTree.child_eq_ok_iff.mp hto
      cases hread : t.read (d.place ++ [source]) with
      | error e => simp [hfrom, hto, hread, bind, Except.bind] at h
      | ok content =>
        simp only [hfrom, hto, hread, bind, Except.bind] at h
        split at h
        · cases h
        · cases h
          refine .of_files fun l hl => ?_
          rw [FileTree.entry?_put (by simp), if_neg (hl target htarget),
            entry?_erase_of_ne (hl source hsource)]

/-- Only the file that is removed is changed. -/
lemma alters_remove (hname : name ∈ names) (h : t.remove d.place name = .ok u) :
    d.Alters names t u := by
  unfold FileTree.remove at h
  cases hchild : t.child d.place name with
  | error e => simp [hchild, bind, Except.bind] at h
  | ok l =>
    obtain ⟨-, -, -, rfl⟩ := FileTree.child_eq_ok_iff.mp hchild
    cases hread : t.read (d.place ++ [name]) with
    | error e => simp [hchild, hread, bind, Except.bind] at h
    | ok content =>
      simp only [hchild, hread, bind, Except.bind] at h
      cases h
      exact .of_files fun l hl => entry?_erase_of_ne (hl name hname)

/-- Nothing is changed but that directories are made on the way. -/
lemma alters_makeDirectories (h : t.makeDirectories [] d.place = .ok u) : d.Alters names t u where
  elsewhere l hl := FileTree.entry?_makeDirectories h fun hway => hl (.inl hway)
  way l _ := by
    obtain ⟨hwidens, -⟩ := FileTree.makeDirectories_spec (fun _ _ hnil => by simp at hnil) h
    cases hold : t.entry? l with
    | some e => exact .inl (hwidens.kept l e hold)
    | none =>
      have hfile : u.file? l = none := by
        rw [hwidens.files, FileTree.file?, hold]
      cases hnew : u.entry? l with
      | none => exact .inl rfl
      | some e =>
        cases e with
        | directory => exact .inr ⟨rfl, rfl⟩
        | file content => cases hfile.symm.trans (FileTree.file?_eq_some_iff.mpr hnew)

/-! ### What is asked of a directory -/

/-- The directory is made where it is missing, and nothing else is done. -/
lemma confined_prepare : d.Confined names (attempt (d.perform · .prepare)) := by
  refine .of_attempt (fun t u h => ?_) fun t u h => ?_
  · simp only [perform] at h
    split at h
    · cases h
      exact .refl d names _
    · exact alters_makeDirectories h
  · simp only [perform, ← h d.place near_place]
    split
    · exact h
    · exact h.makeDirectories (List.prefix_refl _)

/-- Each step of a save is confined to the files of its key. -/
lemma confined_saveSteps (value : Json) :
    ∀ s ∈ saveSteps key value, d.Confined (filesOf key) (attempt (d.perform · s)) := by
  have htemporary : temporaryName key ∈ filesOf key := List.mem_cons_of_mem _ List.mem_cons_self
  have hkey : key ∈ filesOf key := List.mem_cons_self
  simp only [saveSteps, List.forall_mem_cons]
  refine ⟨confined_prepare, ?_, ?_, fun s hs => absurd hs List.not_mem_nil⟩
  · exact .of_attempt (fun t u h => alters_write htemporary h) fun t u h => h.write htemporary _
  · exact .of_attempt (fun t u h => alters_rename htemporary hkey h) fun t u h =>
      h.rename htemporary hkey

/-- Steps that are confined are so one after the other. -/
lemma Confined.performAll {steps : List Step}
    (hsteps : ∀ s ∈ steps, d.Confined names (attempt (d.perform · s))) :
    d.Confined names (d.performAll · steps) := by
  induction steps with
  | nil => exact .of_reading fun _ _ _ => rfl
  | cons s rest ih =>
    obtain ⟨halters, hsees⟩ := hsteps s List.mem_cons_self
    obtain ⟨hrest, hrestSees⟩ := ih fun s hs => hsteps s (List.mem_cons_of_mem _ hs)
    refine ⟨fun t => ?_, fun t u htu => ?_⟩
    · have hstep := halters t
      simp only [attempt] at hstep
      simp only [Directory.performAll]
      cases hperform : d.perform t s with
      | error e => exact .refl d names t
      | ok v =>
        rw [hperform] at hstep
        exact hstep.trans (hrest v)
    · have hstep := hsees t u htu
      simp only [attempt] at hstep
      simp only [Directory.performAll]
      cases ht : d.perform t s <;> cases hu : d.perform u s <;> simp only [ht, hu] at hstep ⊢
      · exact ⟨by rw [Except.error.inj hstep.1], htu⟩
      · cases hstep.1
      · cases hstep.1
      · exact hrestSees _ _ hstep.2

/-- A save is confined to the files of its key. -/
lemma confined_save (key : String) (value : Json) :
    d.Confined (filesOf key) fun t => d.save t key value := by
  unfold save
  cases checkKey key with
  | error e => exact .of_reading fun _ _ _ => rfl
  | ok => exact .performAll (confined_saveSteps value)

/-- What is loaded depends on the file of the key. -/
lemma load_congr (h : d.Alike [key] t u) : d.load t key = d.load u key := by
  have hread : (t.child d.place key >>= t.readText) = (u.child d.place key >>= u.readText) := by
    rw [← h.child key]
    cases hchild : t.child d.place key with
    | error e => rfl
    | ok l =>
      obtain ⟨-, -, -, rfl⟩ := FileTree.child_eq_ok_iff.mp hchild
      exact h.readText List.mem_cons_self
  unfold load envelope
  rw [hread]

/-- A removal is confined to the file of its key. -/
lemma confined_delete (key : String) : d.Confined [key] (attempt (d.delete · key)) := by
  unfold delete
  cases checkKey key with
  | error e => exact .of_attempt (fun t u h => by cases h) fun t u _ => rfl
  | ok =>
    simp only [bind, Except.bind]
    refine .of_attempt (fun t u h => ?_) fun t u h => ?_
    · split at h
      · next hremove =>
        cases h
        exact alters_remove List.mem_cons_self hremove
      · cases h
        exact .refl d _ _
      · cases h
    · have hremove : d.Accord [key] (t.remove d.place key) (u.remove d.place key) :=
        h.remove List.mem_cons_self
      rcases hremove.cases with ⟨e, ht, hu⟩ | ⟨v, w, ht, hu, hvw⟩
      · rw [ht, hu]
        cases e with
        | missing => exact h
        | _ => rfl
      · rw [ht, hu]
        exact hvw

/-- The answer to a save or a removal. -/
def told : Except StoreError Unit → Reply
  | .ok () => .done
  | .error e => .failed e

/-- The answer to a request for a document. -/
def shown : Except StoreError (Option Json) → Reply
  | .ok found => .found found
  | .error e => .failed e

/-- What a directory answers, and the tree that it leaves. -/
def serve (d : Directory) (o : Operation) (t : FileTree) : Reply × FileTree :=
  match Store.perform (.directory d t) o with
  | (reply, .directory _ u) => (reply, u)
  | (reply, .memory _) => (reply, t)

lemma perform_save (value : Json) : Store.perform (.directory d t) (.save key value) =
    (told (d.save t key value).1, .directory d (d.save t key value).2) := by
  simp only [Store.perform, Store.save]
  cases d.save t key value with
  | mk result u => cases result <;> rfl

lemma perform_load : Store.perform (.directory d t) (.load key) =
    (shown (d.load t key), .directory d t) := by
  simp only [Store.perform, Store.load]
  cases d.load t key <;> rfl

lemma perform_delete : Store.perform (.directory d t) (.delete key) =
    (told (attempt (d.delete · key) t).1, .directory d (attempt (d.delete · key) t).2) := by
  simp only [Store.perform, Store.delete, attempt]
  cases d.delete t key <;> rfl

/-- A directory stays where it is. -/
lemma perform_eq_serve (o : Operation) (t : FileTree) : Store.perform (.directory d t) o =
    ((d.serve o t).1, .directory d (d.serve o t).2) := by
  unfold serve
  cases o with
  | save key value => rw [perform_save]
  | load key => rw [perform_load]
  | delete key => rw [perform_delete]
  | keys =>
    simp only [Store.perform]
    cases Store.keys (.directory d t) <;> rfl

/-- An operation is confined to the files of its key. -/
lemma confined_serve (h : o.key? = some key) : d.Confined o.fileNames (d.serve o) := by
  unfold serve
  cases o with
  | save key value =>
    simp only [perform_save]
    exact (confined_save key value).map told
  | load key =>
    simp only [perform_load]
    exact .of_reading fun t u htu => congrArg shown (load_congr htu)
  | delete key =>
    simp only [perform_delete]
    exact (confined_delete key).map told
  | keys => cases h

/-- With a key that is refused nothing is done. -/
lemma serve_of_keyRefusal? {reason : String} (h : o.key? = some key)
    (hrefused : keyRefusal? key = some reason) (t : FileTree) :
    d.serve o t = (.failed (.invalidKey key reason), t) := by
  have hcheck : checkKey key = .error (.invalidKey key reason) := by
    unfold checkKey
    rw [hrefused]
  unfold serve
  cases o with
  | save key value =>
    cases h
    simp only [perform_save, Directory.save, hcheck, told]
  | load key =>
    cases h
    simp only [perform_load, Directory.load, Directory.envelope, hcheck, bind, Except.bind,
      Except.map, shown]
  | delete key =>
    cases h
    simp only [perform_delete, attempt, Directory.delete, hcheck, bind, Except.bind, told]
  | keys => cases h

end Directory

end Store

/-! ### Both at once -/

open Store Recital.Path

/-- The directory of a store that is found by a path. -/
def Store.Directory.ofPath (root : Path) (cwd : Location) : Directory := ⟨root.names cwd⟩

/-- Names stay in their directory.  The name of a script is not found or gives a path that goes down
from the shelf by plain names, the last of which ends like the name of a script.  A key is refused,
and nothing is done, or what is done, in each of its steps and as a whole, reads and changes files
of the key only, the paths of which are the path of the store and one plain name; and no file is one
of two keys. -/
theorem names_stay_in_their_directory :
    (∀ (shelf : Shelf) (name : String),
      (shelf.path? name = none ∧
        ∀ tree cwd, shelf.load tree cwd name = .error (.notFound name)) ∨
      ∃ p names stem, shelf.path? name = some p ∧
        p.components = shelf.root.components ++ (names ++ [stem ++ ".script"]).map .name ∧
        (∀ n ∈ names ++ [stem ++ ".script"], IsName n)) ∧
    (∀ (root : Path) (cwd : Location) (o : Operation) (key : String), o.key? = some key →
      (∃ reason, keyRefusal? key = some reason ∧ ∀ t,
        Store.perform (.directory (.ofPath root cwd) t) o =
          (.failed (.invalidKey key reason), .directory (.ofPath root cwd) t)) ∨
      keyRefusal? key = none ∧
        (∀ n ∈ o.fileNames, IsName n ∧
          (filePath root n).components = root.components ++ [.name n] ∧
          (filePath root n).names cwd = (Directory.ofPath root cwd).place ++ [n]) ∧
        (∀ t, Store.perform (.directory (.ofPath root cwd) t) o =
          (((Directory.ofPath root cwd).serve o t).1,
            .directory (.ofPath root cwd) ((Directory.ofPath root cwd).serve o t).2)) ∧
        (Directory.ofPath root cwd).Confined o.fileNames ((Directory.ofPath root cwd).serve o) ∧
        ∀ value, ∀ step ∈ Directory.saveSteps key value,
          (Directory.ofPath root cwd).Confined (filesOf key)
            (Directory.attempt ((Directory.ofPath root cwd).perform · step))) ∧
    ∀ (root : Path) (key key' : String), keyRefusal? key = none → keyRefusal? key' = none →
      key ≠ key' → ∀ n ∈ filesOf key, ∀ n' ∈ filesOf key',
        (filePath root n).components ≠ (filePath root n').components := by
  refine ⟨fun shelf name => ?_, fun root cwd o key hkey => ?_, ?_⟩
  · cases hpath : shelf.path? name with
    | none => exact .inl ⟨rfl, Shelf.load_of_path?_eq_none hpath⟩
    | some p =>
      obtain ⟨names, stem, hcomponents, hnames⟩ := Shelf.components_of_path? hpath
      exact .inr ⟨p, names, stem, rfl, hcomponents, hnames⟩
  · cases hrefused : keyRefusal? key with
    | some reason =>
      refine .inl ⟨reason, rfl, fun t => ?_⟩
      rw [Directory.perform_eq_serve, Directory.serve_of_keyRefusal? hkey hrefused]
    | none =>
      refine .inr ⟨rfl, fun n hn => ?_, Directory.perform_eq_serve o, Directory.confined_serve hkey,
        Directory.confined_saveSteps⟩
      have hname : IsName n :=
        isName_of_mem_filesOf hrefused (Operation.fileNames_subset hkey hn)
      exact ⟨hname, hname.components_join root, hname.names_join root cwd⟩
  · intro root key key' hkey hkey' hne n hn n' hn' heq
    have hname := isName_of_mem_filesOf hkey hn
    have hname' := isName_of_mem_filesOf hkey' hn'
    unfold filePath at heq
    rw [hname.components_join, hname'.components_join, List.append_cancel_left_eq] at heq
    refine ne_of_mem_filesOf hkey hkey' hne hn hn' ?_
    simpa using heq

/-- A script is not looked for beside the shelf, a document that is saved touches two files, and
another document has others. -/
theorem waltz_stays_in_its_directory :
    (∀ tree cwd, Shelf.load ⟨⟨"scores"⟩, .standard⟩ tree cwd "../waltz" =
      .error (.notFound "../waltz")) ∧
    (Directory.ofPath ⟨"/scores"⟩ []).Confined ["waltz", "waltz.tmp"]
      ((Directory.ofPath ⟨"/scores"⟩ []).serve (.save "waltz" .null)) ∧
    (filePath ⟨"/scores"⟩ "waltz").components ≠ (filePath ⟨"/scores"⟩ "march.tmp").components := by
  obtain ⟨hshelf, hstore, hapart⟩ := names_stay_in_their_directory
  refine ⟨?_, ?_, hapart ⟨"/scores"⟩ "waltz" "march" (by decide) (by decide) (by decide) _
    List.mem_cons_self _ (by decide)⟩
  · rcases hshelf ⟨⟨"scores"⟩, .standard⟩ "../waltz" with ⟨-, hload⟩ | ⟨p, -, -, hp, -⟩
    · exact hload
    · cases hp
  · rcases hstore ⟨"/scores"⟩ [] (.save "waltz" .null) "waltz" rfl with
      ⟨reason, hrefused, -⟩ | ⟨-, -, -, hconfined, -⟩
    · have hallowed : keyRefusal? "waltz" = none := by decide
      cases hallowed.symm.trans hrefused
    · exact hconfined

end Recital

import Recital.Files.Tree
import Mathlib.Data.List.Nodup
import Mathlib.Tactic.Common

/-!
# What the operations on a file tree leave alone

In a sound tree no location stands twice, and whatever stands below another location stands in a
directory (`FileTree.IsSound`).  Making directories leaves all files as they are, writing a file
changes that file only, and renaming moves the content of one file to another name.
-/

namespace Recital.FileTree

variable {t u : FileTree} {l m dir : Location} {name : String} {e : Entry} {content : ByteArray}

/-! ### Entries -/

/-- No location stands twice, and only directories have anything below them. -/
structure IsSound (t : FileTree) : Prop where
  nodup : (t.entries.map Prod.fst).Nodup
  parent : ∀ l name, t.entry? (l ++ [name]) ≠ none → t.entry? l = some .directory

/-- The content of the file at a location, if there is one. -/
def file? (t : FileTree) (l : Location) : Option ByteArray :=
  match t.entry? l with
  | some (.file content) => some content
  | _ => none

lemma file?_eq_some_iff : t.file? l = some content ↔ t.entry? l = some (.file content) := by
  unfold file?
  split <;> simp_all

@[simp] lemma entry?_nil (t : FileTree) : t.entry? [] = some .directory := rfl

lemma entry?_of_ne_nil (hl : l ≠ []) : t.entry? l = t.entries.lookup l := by
  unfold entry?
  simp [hl]

/-- The first entry of a location counts. -/
lemma lookup_cons (k l : Location) (e : Entry) (entries : List (Location × Entry)) :
    ((k, e) :: entries).lookup l = if l = k then some e else entries.lookup l := by
  rw [List.lookup_cons]
  by_cases h : l = k
  · rw [beq_iff_eq.mpr h]
    exact (if_pos h).symm
  · rw [beq_false_of_ne h]
    exact (if_neg h).symm

lemma lookup_filter_ne (entries : List (Location × Entry)) (l m : Location) :
    (entries.filter fun x => x.1 != l).lookup m = if m = l then none else entries.lookup m := by
  induction entries with
  | nil => simp
  | cons x entries ih =>
    obtain ⟨k, e⟩ := x
    by_cases hk : k = l
    · rw [List.filter_cons_of_neg (by simp [hk]), ih, lookup_cons]
      by_cases hm : m = l <;> simp [hm, hk]
    · rw [List.filter_cons_of_pos (by simpa using hk), lookup_cons, lookup_cons, ih]
      by_cases hm : m = k
      · simp [hm, hk]
      · simp [hm]

/-- What stands in a list without repetitions is found there. -/
lemma lookup_eq_some_iff_mem {entries : List (Location × Entry)}
    (hnodup : (entries.map Prod.fst).Nodup) : entries.lookup l = some e ↔ (l, e) ∈ entries := by
  induction entries with
  | nil => simp
  | cons x entries ih =>
    obtain ⟨k, d⟩ := x
    obtain ⟨hk, hrest⟩ := List.nodup_cons.mp hnodup
    rw [lookup_cons, List.mem_cons]
    by_cases hl : l = k
    · have hnot : (l, e) ∉ entries := fun hmem =>
        hk (List.mem_map.mpr ⟨(l, e), hmem, hl⟩)
      rw [if_pos hl]
      simp [hl, hl ▸ hnot, eq_comm]
    · rw [if_neg hl, ih hrest]
      simp [hl]

/-- A tree is sound if each of its entries is in a directory. -/
lemma isSound_of_entries (hnodup : (t.entries.map Prod.fst).Nodup)
    (hdirs : ∀ x ∈ t.entries, t.entry? x.1.dropLast = some .directory) : t.IsSound where
  nodup := hnodup
  parent l name hl := by
    obtain ⟨e, he⟩ := Option.ne_none_iff_exists'.mp hl
    rw [entry?_of_ne_nil (by simp), lookup_eq_some_iff_mem hnodup] at he
    have hdir := hdirs _ he
    rwa [List.dropLast_concat] at hdir

lemma entry?_erase (hm : m ≠ []) :
    entry? (t.erase l) m = if m = l then none else t.entry? m := by
  rw [entry?_of_ne_nil hm, entry?_of_ne_nil hm]
  exact lookup_filter_ne _ _ _

lemma entry?_put (hl : l ≠ []) :
    entry? (t.put l e) m = if m = l then some e else t.entry? m := by
  by_cases hm : m = []
  · rw [hm, entry?_nil, entry?_nil, if_neg (Ne.symm hl)]
  · rw [entry?_of_ne_nil hm, entry?_of_ne_nil hm]
    unfold put
    rw [lookup_cons, lookup_filter_ne]
    by_cases h : m = l <;> simp [h]

lemma IsSound.erase (ht : t.IsSound) (hfile : t.file? l = some content) : (t.erase l).IsSound := by
  refine ⟨ht.nodup.sublist (List.filter_sublist.map _), fun k name hk => ?_⟩
  have hne : k ++ [name] ≠ [] := List.append_ne_nil_of_right_ne_nil _ (List.cons_ne_nil _ _)
  rw [entry?_erase hne] at hk
  split at hk
  · exact absurd rfl hk
  · have hdir := ht.parent k name hk
    by_cases hnil : k = []
    · rw [hnil]
      rfl
    · rw [entry?_erase hnil, if_neg ?_]
      · exact hdir
      · rintro rfl
        rw [file?_eq_some_iff] at hfile
        cases hdir.symm.trans hfile

/-- Something is put into a directory, in place of no directory unless it is one itself. -/
lemma IsSound.put (ht : t.IsSound) (hdir : t.entry? dir = some .directory)
    (hfree : t.entry? (dir ++ [name]) ≠ some .directory ∨ e = .directory) :
    (t.put (dir ++ [name]) e).IsSound := by
  have hne : dir ++ [name] ≠ [] := List.append_ne_nil_of_right_ne_nil _ (List.cons_ne_nil _ _)
  refine ⟨?_, fun k n hk => ?_⟩
  · unfold FileTree.put
    rw [List.map_cons, List.nodup_cons]
    refine ⟨fun hmem => ?_, ht.nodup.sublist (List.filter_sublist.map _)⟩
    obtain ⟨x, hx, heq⟩ := List.mem_map.mp hmem
    have hkept := (List.mem_filter.mp hx).2
    simp [heq] at hkept
  · rw [entry?_put hne] at hk ⊢
    split at hk
    · next heq =>
      obtain ⟨rfl, -⟩ := List.append_inj' heq rfl
      rw [if_neg ?_]
      · exact hdir
      · intro hself
        have := congrArg List.length hself
        simp at this
    · have hparent := ht.parent k n hk
      split
      · next hself =>
        rw [hself] at hparent
        rcases hfree with hfree | hfree
        · exact absurd hparent hfree
        · rw [hfree]
      · exact hparent

/-- There are no files where there is no directory. -/
lemma IsSound.file?_eq_none (ht : t.IsSound) (hdir : t.entry? dir ≠ some .directory) :
    t.file? (dir ++ [name]) = none := by
  by_contra hne
  obtain ⟨content, hcontent⟩ := Option.ne_none_iff_exists'.mp hne
  refine hdir (ht.parent dir name ?_)
  rw [file?_eq_some_iff.mp hcontent]
  exact Option.some_ne_none _

/-! ### Making directories -/

/-- Directories were made where nothing stood. -/
structure Widens (t u : FileTree) : Prop where
  kept : ∀ l e, t.entry? l = some e → u.entry? l = some e
  files : ∀ l, u.file? l = t.file? l
  sound : t.IsSound → u.IsSound

lemma Widens.refl (t : FileTree) : Widens t t := ⟨fun _ _ h => h, fun _ => rfl, id⟩

lemma Widens.trans {v : FileTree} (htu : Widens t u) (huv : Widens u v) : Widens t v :=
  ⟨fun l e h => huv.kept l e (htu.kept l e h), fun l => (huv.files l).trans (htu.files l),
    fun h => huv.sound (htu.sound h)⟩

lemma widens_put_directory (hdir : t.entry? dir = some .directory)
    (hnone : t.entry? (dir ++ [name]) = none) : Widens t (t.put (dir ++ [name]) .directory) := by
  have hne : dir ++ [name] ≠ [] := List.append_ne_nil_of_right_ne_nil _ (List.cons_ne_nil _ _)
  refine ⟨fun l e h => ?_, fun l => ?_, fun ht => ht.put hdir (.inr rfl)⟩
  · rw [entry?_put hne, if_neg ?_]
    · exact h
    · rintro rfl
      cases hnone.symm.trans h
  · unfold file?
    rw [entry?_put hne]
    by_cases heq : l = dir ++ [name]
    · rw [if_pos heq, heq, hnone]
    · rw [if_neg heq]

/-- Directories are made on the way to a location, and there. -/
lemma makeDirectories_spec {here rest : List String}
    (hhere : ∀ dir name, here = dir ++ [name] → t.entry? dir = some .directory)
    (h : t.makeDirectories here rest = .ok u) :
    Widens t u ∧ u.entry? (here ++ rest) = some .directory := by
  induction rest generalizing t here with
  | nil =>
    unfold makeDirectories at h
    rw [List.append_nil]
    split at h
    · next hentry =>
      cases h
      exact ⟨.refl _, hentry⟩
    · cases h
    · next hnone =>
      cases h
      rcases List.eq_nil_or_concat here with rfl | ⟨dir, name, rfl⟩
      · cases hnone
      · rw [List.concat_eq_append] at hnone hhere ⊢
        refine ⟨widens_put_directory (hhere dir name rfl) hnone, ?_⟩
        rw [entry?_put (by simp), if_pos rfl]
  | cons part rest ih =>
    unfold makeDirectories at h
    have hstep : ∀ {v : FileTree}, v.entry? here = some .directory →
        ∀ dir name, here ++ [part] = dir ++ [name] → v.entry? dir = some .directory := by
      intro v hv dir name heq
      obtain ⟨rfl, -⟩ := List.append_inj' heq rfl
      exact hv
    split at h
    · cases h
    · next hentry =>
      obtain ⟨hwidens, hdir⟩ := ih (hstep hentry) h
      exact ⟨hwidens, by rwa [List.append_assoc] at hdir⟩
    · next hnone =>
      rcases List.eq_nil_or_concat here with rfl | ⟨dir, name, rfl⟩
      · cases hnone
      · rw [List.concat_eq_append] at hnone hhere hstep h ⊢
        have hput : entry? (t.put (dir ++ [name]) .directory) (dir ++ [name]) =
            some .directory := by
          rw [entry?_put (by simp), if_pos rfl]
        obtain ⟨hwidens, hdir⟩ := ih (hstep hput) h
        refine ⟨(widens_put_directory (hhere dir name rfl) hnone).trans hwidens, ?_⟩
        rwa [List.append_assoc (dir ++ [name])] at hdir

/-- What comes into the place of nothing changes nothing else. -/
lemma entry?_put_of_none (hnone : t.entry? l = none) :
    entry? (t.put l e) m = if m = l then some e else t.entry? m :=
  entry?_put fun hl => by rw [hl] at hnone; cases hnone

/-- Making directories changes nothing beside the way to the last of them. -/
lemma entry?_makeDirectories {here rest : List String} (h : t.makeDirectories here rest = .ok u)
    (hl : ¬ l <+: here ++ rest) : u.entry? l = t.entry? l := by
  induction rest generalizing t here with
  | nil =>
    rw [List.append_nil] at hl
    unfold makeDirectories at h
    split at h
    · cases h
      rfl
    · cases h
    · next hnone =>
      cases h
      rw [entry?_put_of_none hnone, if_neg]
      rintro rfl
      exact hl (List.prefix_refl _)
  | cons part rest ih =>
    have hstep : ¬ l <+: here ++ [part] ++ rest := by
      rwa [List.append_assoc]
    unfold makeDirectories at h
    split at h
    · cases h
    · exact ih h hstep
    · next hnone =>
      rw [ih h hstep, entry?_put_of_none hnone, if_neg]
      rintro rfl
      exact hl (List.prefix_append _ _)

/-- Directories can be made where no file stands in the way. -/
lemma exists_makeDirectories {here rest : List String}
    (hfree : ∀ l, here <+: l → l <+: here ++ rest → t.file? l = none) :
    ∃ u, t.makeDirectories here rest = .ok u := by
  have hhere : ∀ content, t.entry? here ≠ some (.file content) := fun content hentry => by
    have hnone := hfree here (List.prefix_refl _) (List.prefix_append _ _)
    cases hnone.symm.trans (file?_eq_some_iff.mpr hentry)
  induction rest generalizing t here with
  | nil =>
    unfold makeDirectories
    split
    · exact ⟨_, rfl⟩
    · next hentry => exact absurd hentry (hhere _)
    · exact ⟨_, rfl⟩
  | cons part rest ih =>
    have hnext : ∀ {v : FileTree}, (∀ l, l ≠ here → v.file? l = t.file? l) →
        ∃ u, v.makeDirectories (here ++ [part]) rest = .ok u := by
      intro v hsame
      have hfree' :
          ∀ l, here ++ [part] <+: l → l <+: here ++ [part] ++ rest → v.file? l = none := by
        intro l hbehind hbefore
        have hne : l ≠ here := by
          rintro rfl
          have hlength := hbehind.length_le
          rw [List.length_append, List.length_singleton] at hlength
          omega
        rw [hsame l hne]
        refine hfree l ((List.prefix_append _ _).trans hbehind) ?_
        rwa [List.append_assoc] at hbefore
      refine ih hfree' fun content hentry => ?_
      have hnone := hfree' _ (List.prefix_refl _) (List.prefix_append _ _)
      cases hnone.symm.trans (file?_eq_some_iff.mpr hentry)
    unfold makeDirectories
    split
    · next hentry => exact absurd hentry (hhere _)
    · exact hnext fun _ _ => rfl
    · next hnone =>
      refine hnext fun l hne => ?_
      unfold file?
      rw [entry?_put_of_none hnone, if_neg hne]

/-! ### Writing and renaming -/

/-- A location in a directory has a name that a file can have. -/
lemma child_eq_ok_iff : t.child dir name = .ok l ↔
    name.toList.contains nullChar = false ∧ t.entry? dir = some .directory ∧
      isLongName name = false ∧ l = dir ++ [name] := by
  unfold child
  cases name.toList.contains nullChar with
  | true => simp
  | false =>
    rw [if_neg Bool.false_ne_true]
    split
    · next hnone => simp [hnone]
    · next hfile => simp [hfile]
    · next hdir => cases isLongName name <;> simp [hdir, eq_comm]

/-- Only one file was changed. -/
structure Rewrites (l : Location) (t u : FileTree) : Prop where
  files : ∀ m, m ≠ l → u.file? m = t.file? m
  directories : ∀ m, u.entry? m = some .directory ↔ t.entry? m = some .directory
  sound : t.IsSound → u.IsSound

/-- Writing changes the file with the name, which had no directory in its place. -/
lemma write_spec (h : t.write dir name content = .ok u) :
    Rewrites (dir ++ [name]) t u ∧ u.file? (dir ++ [name]) = some content := by
  have hne : dir ++ [name] ≠ [] := List.append_ne_nil_of_right_ne_nil _ (List.cons_ne_nil _ _)
  unfold write at h
  cases hchild : t.child dir name with
  | error e => simp [hchild, bind, Except.bind] at h
  | ok l =>
    obtain ⟨-, hdir, -, rfl⟩ := child_eq_ok_iff.mp hchild
    simp only [hchild, bind, Except.bind] at h
    have hput : ∀ m, entry? (t.put (dir ++ [name]) (.file content)) m =
        if m = dir ++ [name] then some (.file content) else t.entry? m := fun _ => entry?_put hne
    split at h
    · cases h
    · next hfree =>
      cases h
      refine ⟨⟨fun m hm => ?_, fun m => ?_, fun ht => ht.put hdir (.inl hfree)⟩, ?_⟩
      · unfold file?
        rw [hput, if_neg hm]
      · rw [hput]
        split
        · next heq =>
          rw [heq]
          exact iff_of_false (by simp) hfree
        · rfl
      · rw [file?_eq_some_iff, hput, if_pos rfl]

/-- A renamed file keeps its content and takes the place of the one that had the name. -/
lemma rename_spec {source target : String} (h : t.rename dir source target = .ok u) :
    (∀ m, m ≠ dir ++ [source] → m ≠ dir ++ [target] → u.file? m = t.file? m) ∧
      (∀ m, u.entry? m = some .directory ↔ t.entry? m = some .directory) ∧
      (t.IsSound → u.IsSound) ∧ u.file? (dir ++ [target]) = t.file? (dir ++ [source]) ∧
      ∃ content, t.file? (dir ++ [source]) = some content := by
  have hne : ∀ name : String, dir ++ [name] ≠ [] := fun name =>
    List.append_ne_nil_of_right_ne_nil _ (List.cons_ne_nil _ _)
  unfold rename at h
  cases hsource : t.child dir source with
  | error e => simp [hsource, bind, Except.bind] at h
  | ok here =>
    cases htarget : t.child dir target with
    | error e => simp [hsource, htarget, bind, Except.bind] at h
    | ok there =>
      obtain ⟨-, hdir, -, rfl⟩ := child_eq_ok_iff.mp hsource
      obtain ⟨-, -, -, rfl⟩ := child_eq_ok_iff.mp htarget
      cases hread : t.read (dir ++ [source]) with
      | error e => simp [hsource, htarget, hread, bind, Except.bind] at h
      | ok content =>
        simp only [hsource, htarget, hread, bind, Except.bind] at h
        have hfile : t.entry? (dir ++ [source]) = some (.file content) := by
          unfold read at hread
          split at hread
          · cases hread
          · cases hread
          · next hentry =>
            cases hread
            exact hentry
        have hput : ∀ m, entry? ((t.erase (dir ++ [source])).put (dir ++ [target])
            (.file content)) m = if m = dir ++ [target] then some (.file content)
              else entry? (t.erase (dir ++ [source])) m := fun _ => entry?_put (hne target)
        have herase : ∀ m, entry? (t.erase (dir ++ [source])) m =
            if m = dir ++ [source] then none else t.entry? m := by
          intro m
          by_cases hm : m = []
          · rw [hm, if_neg (Ne.symm (hne source))]
            rfl
          · exact entry?_erase hm
        split at h
        · cases h
        · next hfree =>
          cases h
          refine ⟨fun m hsource htarget => ?_, fun m => ?_, fun ht => ?_, ?_,
            content, file?_eq_some_iff.mpr hfile⟩
          · unfold file?
            rw [hput, if_neg htarget, herase, if_neg hsource]
          · rw [hput]
            split
            · next heq =>
              rw [heq]
              exact iff_of_false (by simp) hfree
            · rw [herase]
              split
              · next heq =>
                rw [heq, hfile]
                exact iff_of_false (by simp) (by simp)
              · rfl
          · refine (ht.erase (file?_eq_some_iff.mpr hfile)).put ?_ (.inl ?_)
            · rw [herase, if_neg ?_]
              · exact hdir
              · intro hself
                have := congrArg List.length hself
                simp at this
            · rw [herase]
              split
              · simp
              · exact hfree
          · rw [file?_eq_some_iff.mpr hfile, file?_eq_some_iff, hput, if_pos rfl]

/-! ### What can be done with a file -/

section Files

variable (hdir : t.entry? dir = some .directory) (hnull : name.toList.contains nullChar = false)
  (hlong : isLongName name = false)

include hdir hnull hlong

lemma child_eq : t.child dir name = .ok (dir ++ [name]) :=
  child_eq_ok_iff.mpr ⟨hnull, hdir, hlong, rfl⟩

/-- A file can be written in place of one that is there. -/
lemma exists_write (hfree : t.entry? (dir ++ [name]) ≠ some .directory) (content : ByteArray) :
    ∃ u, t.write dir name content = .ok u := by
  unfold write
  rw [child_eq hdir hnull hlong]
  simp only [bind, Except.bind]
  exact ⟨_, rfl⟩

/-- A file can be given another name that is no directory's. -/
lemma exists_rename {source : String} (hnull' : source.toList.contains nullChar = false)
    (hlong' : isLongName source = false) (hfile : t.file? (dir ++ [source]) = some content)
    (hfree : t.entry? (dir ++ [name]) ≠ some .directory) :
    ∃ u, t.rename dir source name = .ok u := by
  have hread : t.read (dir ++ [source]) = .ok content := by
    unfold read
    rw [file?_eq_some_iff.mp hfile]
  unfold rename
  rw [child_eq hdir hnull hlong, child_eq hdir hnull' hlong']
  simp only [bind, Except.bind, hread]
  exact ⟨_, rfl⟩

/-- A file is removed if it is there. -/
lemma remove_eq (hfree : t.entry? (dir ++ [name]) ≠ some .directory) :
    t.remove dir name =
      if (t.file? (dir ++ [name])).isSome then .ok (t.erase (dir ++ [name]))
      else .error .missing := by
  unfold remove file? read
  rw [child_eq hdir hnull hlong]
  simp only [bind, Except.bind]
  cases hentry : t.entry? (dir ++ [name]) with
  | none => rfl
  | some e =>
    cases e with
    | directory => exact absurd hentry hfree
    | file => rfl

end Files

/-! ### The files of a directory -/

/-- The last name of a location in a directory. -/
lemma eq_append_of_getLast? {l : Location}
    (h : (if l.dropLast = dir then l.getLast? else none) = some name) : l = dir ++ [name] := by
  split at h
  · next hdrop =>
    rw [← hdrop]
    exact (List.dropLast_append_getLast? name h).symm
  · cases h

/-- Files are listed by the names under which they stand. -/
lemma mem_fileNames (ht : t.IsSound) {names : List String} (h : t.fileNames dir = .ok names) :
    name ∈ names ↔ t.file? (dir ++ [name]) ≠ none := by
  have hne : dir ++ [name] ≠ [] := List.append_ne_nil_of_right_ne_nil _ (List.cons_ne_nil _ _)
  have hmem : ∀ e, (dir ++ [name], e) ∈ t.entries ↔ t.entry? (dir ++ [name]) = some e := by
    intro e
    rw [entry?_of_ne_nil hne]
    exact (lookup_eq_some_iff_mem ht.nodup).symm
  unfold fileNames at h
  split at h
  · cases h
  · cases h
  · cases h
    rw [List.mem_filterMap]
    constructor
    · rintro ⟨⟨l, e⟩, hx, hname⟩
      cases e with
      | directory => cases hname
      | file content =>
        have hl : l = dir ++ [name] := eq_append_of_getLast? hname
        rw [hl, hmem] at hx
        rw [file?_eq_some_iff.mpr hx]
        simp
    · intro hfile
      obtain ⟨content, hcontent⟩ := Option.ne_none_iff_exists'.mp hfile
      rw [file?_eq_some_iff] at hcontent
      exact ⟨(dir ++ [name], .file content), (hmem _).mpr hcontent, by simp⟩

/-- No file is listed twice. -/
lemma nodup_fileNames (ht : t.IsSound) {names : List String} (h : t.fileNames dir = .ok names) :
    names.Nodup := by
  unfold fileNames at h
  split at h
  · cases h
  · cases h
  · cases h
    refine (List.pairwise_map.mp ht.nodup).filterMap _ fun x y hne a ha b hb => ?_
    obtain ⟨l, e⟩ := x
    obtain ⟨m, f⟩ := y
    cases e with
    | directory => cases ha
    | file =>
      cases f with
      | directory => cases hb
      | file =>
        rintro rfl
        exact hne ((eq_append_of_getLast? ha).trans (eq_append_of_getLast? hb).symm)

end Recital.FileTree

import Recital.Proofs.Files.Route

/-!
# How paths are spelled

Many paths lead to the same file.  Those that start alike and have no parts `..` differ in slashes
and parts `.` only, so that they have the same components (`Path.StartsLike.components_eq`).

The null character is in no path that can be followed, nor in what such a path is joined from
(`Path.IsClean`).  A path without it that leads to a file is followed unless it is too long.
-/

namespace Recital

namespace Path

variable {p q : Path} {t : FileTree} {cwd l : Location} {cs : List Char} {content : ByteArray}

/-! ### The null character -/

/-- The null character is not in the path. -/
def IsClean (p : Path) : Prop := FileTree.nullChar ∉ p.text.toList

lemma IsClean.join (hp : p.IsClean) (hq : q.IsClean) : (p.join q).IsClean := by
  unfold IsClean at hp hq ⊢
  unfold Path.join
  split
  · exact hq
  · split
    · simp [hp, hq]
    · have hslash : FileTree.nullChar ∉ "/".toList := by decide
      simp only [String.toList_append, List.mem_append]
      tauto

/-- What is joined to another path is part of it. -/
lemma IsClean.of_join (h : (p.join q).IsClean) :
    q.IsClean ∧ (q.isAbsolute = false → p.IsClean) := by
  unfold IsClean Path.join at *
  split at h
  · next habsolute => exact ⟨h, fun hrelative => absurd habsolute (by simp [hrelative])⟩
  · split at h
    · simp only [String.toList_append, List.mem_append, not_or] at h
      exact ⟨h.2, fun _ => h.1⟩
    · simp only [String.toList_append, List.mem_append, not_or] at h
      exact ⟨h.2, fun _ => h.1.1⟩

lemma trimReversed_subset (cs : List Char) : trimReversed cs ⊆ cs := by
  induction cs using trimReversed.induct with
  | case1 cs hnil => rw [trimReversed, if_pos hnil]; simp
  | case2 cs hcs ih =>
    rw [trimReversed, if_neg hcs]
    exact List.subset_cons_of_subset _ ih
  | case3 cs ih =>
    rw [trimReversed]
    exact List.subset_cons_of_subset _ ih
  | case4 cs hslash hdot =>
    rw [trimReversed]
    · exact List.Subset.refl _
    · exact hslash
    · exact hdot

/-- The parent of a path is part of it. -/
lemma IsClean.parent (h : p.IsClean) (hq : p.parent? = some q) : q.IsClean := by
  unfold IsClean at h ⊢
  rw [eq_of_parent? hq, List.mem_reverse]
  intro hmem
  have hdropped := (List.dropWhile_sublist _).subset (trimReversed_subset _ hmem)
  exact h (List.mem_reverse.mp (trimReversed_subset _ hdropped))

/-- A path that is followed holds no null character. -/
lemma isClean_of_locate (h : t.locate cwd p = .ok l) : p.IsClean := by
  intro hnull
  unfold FileTree.locate at h
  split at h
  · cases h
  · rw [if_pos (by simpa using hnull)] at h
    cases h

/-- A path to a file is followed unless it is too long or holds the null character. -/
lemma IsClean.fault? (h : p.IsClean) (hcwd : t.entry? cwd = some .directory)
    (hreach : t.reach cwd p = .ok l) (hfile : t.file? l = some content) :
    FileTree.fault? p = none ∨ FileTree.fault? p = some .tooLong := by
  have hne : p.text.isEmpty = false := by
    by_contra hempty
    obtain ⟨text⟩ := p
    obtain rfl : text = "" := by simpa using hempty
    rw [FileTree.reach_empty hcwd] at hreach
    cases hreach
    cases hcwd.symm.trans (FileTree.file?_eq_some_iff.mp hfile)
  have hclean : ¬ p.text.toList.contains FileTree.nullChar = true := by
    rw [List.contains_iff_mem]
    exact h
  unfold FileTree.fault?
  rw [if_neg (by simp [hne]), if_neg hclean]
  split
  · exact .inr rfl
  · exact .inl rfl

/-- A path that is followed leads to its location. -/
lemma reach_of_locate (h : t.locate cwd p = .ok l) : t.reach cwd p = .ok l := by
  unfold FileTree.locate at h
  split at h
  · cases h
  · split at h
    · cases h
    · split at h
      · cases h
      · exact h

/-- The text of a file is read at the location of its path. -/
lemma exists_locate_of_readPath {text : String} (h : t.readPath cwd p = .ok text) :
    ∃ l, t.locate cwd p = .ok l ∧ t.readText l = .ok text := by
  unfold FileTree.readPath at h
  split at h
  · cases h
  · next l hl => exact ⟨l, hl, h⟩

/-- Where a path leads to a file, its text is read unless the path is too long. -/
lemma IsClean.readPath {text : String} (h : p.IsClean) (hcwd : t.entry? cwd = some .directory)
    (hreach : t.reach cwd p = .ok l) (htext : t.readText l = .ok text) :
    t.readPath cwd p = .ok text ∨ t.readPath cwd p = .error .tooLong := by
  obtain ⟨content, hfile⟩ := FileTree.exists_file?_of_readText htext
  rw [FileTree.readPath_eq]
  rcases h.fault? hcwd hreach hfile with hfault | hfault
  · rw [hfault, Option.elim_none, hreach]
    exact .inl htext
  · rw [hfault]
    exact .inr rfl

/-! ### Parts of other directories -/

/-- Without parts `..` the components of a path are its names. -/
lemma filterMap_component? {parts : List String}
    (hup : .up ∉ parts.filterMap component?) : ".." ∉ parts ∧
      parts.filterMap component? =
        ((parts.filter (· != "")).filter (· != ".")).map .name := by
  induction parts with
  | nil => simp
  | cons part parts ih =>
    have hrest : .up ∉ parts.filterMap component? := fun hmem => hup (by
      rw [List.filterMap_cons]
      split
      · exact hmem
      · exact List.mem_cons_of_mem _ hmem)
    obtain ⟨hnot, hnames⟩ := ih hrest
    by_cases hempty : part = ""
    · subst hempty
      simpa [component?, hnames] using hnot
    · by_cases hdot : part = "."
      · subst hdot
        simpa [component?, hnames] using hnot
      · by_cases hparent : part = ".."
        · subst hparent
          simp [component?] at hup
        · have hname := component?_of_name hempty hdot hparent
          rw [List.filterMap_cons, hname]
          simp [hempty, hdot, hnames, hnot, Ne.symm hparent]

/-- A walk without parts `..` goes down by the names on its way. -/
lemma eq_of_walk {here xs : List String} (hup : ".." ∉ xs) (h : t.walk here xs = .ok l) :
    l = here ++ xs.filter (· != ".") := by
  induction xs generalizing here with
  | nil => simpa using FileTree.eq_of_walk_nil h
  | cons part xs ih =>
    rw [List.mem_cons, not_or] at hup
    rw [FileTree.walk] at h
    split at h
    · cases h
    · cases h
    · split at h
      · next hdot => simpa [hdot] using ih hup.2 h
      · next hdot =>
        rw [if_neg (Ne.symm hup.1)] at h
        split at h
        · cases h
        · simpa [hdot] using ih hup.2 h

/-- A part `.` at the end leads nowhere. -/
lemma filter_route (cs : List Char) :
    (route cs).filter (· != ".") = (named cs).filter (· != ".") := by
  unfold route
  split
  · simp
  · rfl

/-- A path without parts `..` consists of the names on the way to the place where it leads. -/
lemma exists_names_of_reach (hup : .up ∉ p.components) (h : t.reach cwd p = .ok l) :
    ∃ names : List String, l = (if p.isAbsolute then [] else cwd) ++ names ∧
      p.components = (if p.isAbsolute then [.root] else if p.split.head? = some "." then [.here]
        else []) ++ names.map .name := by
  have hcomponents : p.components = (if p.isAbsolute then [.root]
      else if p.split.head? = some "." then [.here] else []) ++ p.split.filterMap component? := rfl
  rw [hcomponents, List.mem_append, not_or] at hup
  obtain ⟨hnot, hnames⟩ := filterMap_component? hup.2
  have hroute : ".." ∉ route p.text.toList := by
    have hnamed : ".." ∉ named p.text.toList := fun hmem => hnot (List.mem_of_mem_filter hmem)
    unfold route
    split
    · simp [hnamed]
    · exact hnamed
  refine ⟨(named p.text.toList).filter (· != "."), ?_, ?_⟩
  · rw [← filter_route]
    exact eq_of_walk hroute h
  · rw [hcomponents, hnames]
    rfl

/-- Two paths start alike: both at the root, both with a part `.`, or both with another one. -/
structure StartsLike (p q : Path) : Prop where
  isAbsolute : p.isAbsolute = q.isAbsolute
  here : p.split.head? = some "." ↔ q.split.head? = some "."

/-- Paths to one place that start alike and have no parts `..` have the same components. -/
lemma StartsLike.components_eq (h : p.StartsLike q) (hp : .up ∉ p.components)
    (hq : .up ∉ q.components) (hl : t.reach cwd p = .ok l) (hl' : t.reach cwd q = .ok l) :
    p.components = q.components := by
  obtain ⟨names, hnames, hcomponents⟩ := exists_names_of_reach hp hl
  obtain ⟨names', hnames', hcomponents'⟩ := exists_names_of_reach hq hl'
  rw [h.isAbsolute] at hnames hcomponents
  simp only [h.here] at hcomponents
  obtain rfl := List.append_cancel_left (hnames.symm.trans hnames')
  rw [hcomponents, hcomponents']

end Path

end Recital

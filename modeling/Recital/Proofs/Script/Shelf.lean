import Recital.Script.Shelf
import Recital.Proofs.Files.Component

/-!
# Scripts stay on their shelf

The name of a script is looked at component by component, but then an ending is added to its text
before it is joined to the path of the shelf.  What is added holds no slash, so it only prolongs the
last part (`Path.exists_splitFrom_append`), and a part that ends like the name of a script is a name
of its own even if what it prolongs was empty or a `.`.

So a name that is not refused leads down from the shelf by plain names
(`Shelf.components_of_path?`).  A plain name that is joined to a path is always one more component
of it (`Path.IsName.components_join`), whatever slashes the path ends in.
-/

namespace Recital

/-! ### Plain names -/

namespace Path

/-- The text is a plain name: as a path it is the component of that name. -/
def IsName (s : String) : Prop := Path.components ⟨s⟩ = [.name s]

variable {cs ds held : List Char} {s part : String}

/-- There is no slash in a part. -/
lemma notMem_of_mem_splitFrom (hheld : '/' ∉ held) (h : part ∈ splitFrom held cs) :
    '/' ∉ part.toList := by
  induction cs generalizing held with
  | nil =>
    obtain rfl := List.mem_singleton.mp h
    simpa using hheld
  | cons c cs ih =>
    by_cases hc : c = '/'
    · subst hc
      rcases List.mem_cons.mp h with rfl | h
      · simpa using hheld
      · exact ih List.not_mem_nil h
    · rw [splitFrom] at h
      · refine ih (fun hmem => ?_) h
        rcases List.mem_cons.mp hmem with heq | hmem
        · exact hc heq.symm
        · exact hheld hmem
      · exact hc

/-- What is added without a slash prolongs the last part only. -/
lemma exists_splitFrom_append (held cs : List Char) (hds : '/' ∉ ds) :
    ∃ parts last, splitFrom held cs = parts ++ [last] ∧
      splitFrom held (cs ++ ds) = parts ++ [last ++ String.ofList ds] := by
  induction cs generalizing held with
  | nil =>
    refine ⟨[], String.ofList held.reverse, rfl, ?_⟩
    rw [List.nil_append, splitFrom_of_notMem hds, String.ofList_append, List.nil_append]
  | cons c cs ih =>
    by_cases hc : c = '/'
    · subst hc
      obtain ⟨parts, last, hcs, happend⟩ := ih []
      refine ⟨String.ofList held.reverse :: parts, last, ?_, ?_⟩
      · rw [splitFrom, hcs, List.cons_append]
      · rw [List.cons_append, splitFrom, happend, List.cons_append]
    · obtain ⟨parts, last, hcs, happend⟩ := ih (c :: held)
      refine ⟨parts, last, ?_, ?_⟩
      · rw [splitFrom]
        · exact hcs
        · exact hc
      · rw [List.cons_append, splitFrom]
        · exact happend
        · exact hc

/-- A single part that is a component of its own is a plain name. -/
lemma isName_of_component? (hslash : '/' ∉ s.toList) (h : component? s = some (.name s)) :
    IsName s := by
  have hhead : s.toList.head? ≠ some '/' := fun hhead => hslash (List.mem_of_head? hhead)
  have hdot : s ≠ "." := by
    rintro rfl
    cases h
  unfold IsName
  rw [components_eq_spelled]
  unfold spelled
  rw [splitFrom_of_notMem hslash, List.reverse_nil, List.nil_append, String.ofList_toList,
    if_neg hhead, List.head?_cons, if_neg (by simpa using hdot)]
  simp [h]

/-- A text without slashes that does not start with a dot is a plain name. -/
lemma isName_of_head? (hne : s ≠ "") (hslash : '/' ∉ s.toList) (hdot : s.toList.head? ≠ some '.') :
    IsName s := by
  refine isName_of_component? hslash (component?_of_name hne ?_ ?_)
  · rintro rfl
    exact hdot rfl
  · rintro rfl
    exact hdot rfl

/-- What is neither absolute nor starts with a `.` adds its components to a path. -/
lemma components_join_of_relative {p q : Path} (hrelative : q.isAbsolute = false)
    (hhere : q.split.head? ≠ some ".") :
    (p.join q).components = p.components ++ q.split.filterMap component? := by
  by_cases hp : p.text = ""
  · rw [join_of_isEmpty hp, components_eq_nil_iff.mpr hp, List.nil_append]
    unfold components
    dsimp only
    rw [hrelative, if_neg Bool.false_ne_true, if_neg hhere, List.nil_append]
  · exact components_join hrelative hp

/-- A plain name that is joined to a path is one more component. -/
lemma IsName.components_join (h : IsName s) (p : Path) :
    (p.join ⟨s⟩).components = p.components ++ [.name s] := by
  have hrelative : Path.isAbsolute ⟨s⟩ = false := by
    rw [Bool.eq_false_iff, Ne, isAbsolute_iff_head?, h]
    simp
  by_cases hp : p.text = ""
  · rw [join_of_isEmpty hp, h, components_eq_nil_iff.mpr hp, List.nil_append]
  · rw [Path.components_join hrelative hp, filterMap_split, h]
    rfl

/-- A plain name leads to what has the name in a directory. -/
lemma IsName.names_join (h : IsName s) (p : Path) (cwd : Location) :
    (p.join ⟨s⟩).names cwd = p.names cwd ++ [s] := by
  unfold names
  rw [h.components_join, List.foldl_append]
  rfl

end Path

/-! ### Scripts -/

namespace Shelf

open Recital.Path

/-- A text that ends like the name of a script is a component of its own. -/
lemma component?_append_ending (stem : String) :
    component? (stem ++ ending) = some (.name (stem ++ ending)) := by
  have hlong : ∀ s : String, s.length < 7 → stem ++ ending ≠ s := by
    rintro s hs rfl
    rw [String.length_append] at hs
    exact Nat.not_lt_of_le (Nat.le_add_left 7 _) hs
  exact component?_of_name (hlong _ (by decide)) (hlong _ (by decide)) (hlong _ (by decide))

/-- Of a text with plain components only, no part leads up and the first part is no start. -/
lemma start_of_isPlain {cs : List Char} (h : ∀ c ∈ spelled cs, isPlain c = true) :
    cs.head? ≠ some '/' ∧ (splitFrom [] cs).head? ≠ some "." ∧
      .up ∉ (splitFrom [] cs).filterMap component? := by
  unfold spelled at h
  refine ⟨fun hroot => ?_, fun hhere => ?_, fun hup => ?_⟩
  · rw [if_pos hroot] at h
    exact absurd (h .root List.mem_cons_self) (by decide)
  · by_cases hroot : cs.head? = some '/'
    · rw [if_pos hroot] at h
      exact absurd (h .root List.mem_cons_self) (by decide)
    · rw [if_neg hroot, if_pos hhere] at h
      exact absurd (h .here List.mem_cons_self) (by decide)
  · exact absurd (h .up (List.mem_append_right _ hup)) (by decide)

/-- With the ending, a text with plain components only has the components of a way down. -/
lemma exists_names_of_isPlain {name : String}
    (hplain : ∀ c ∈ Path.components ⟨name⟩, isPlain c = true) :
    ∃ names stem, (Path.split ⟨name ++ ending⟩).head? ≠ some "." ∧
      (Path.split ⟨name ++ ending⟩).filterMap component? =
        (names ++ [stem ++ ending]).map .name ∧
      ∀ n ∈ names ++ [stem ++ ending], IsName n := by
  rw [components_eq_spelled] at hplain
  obtain ⟨-, hhere, hup⟩ := start_of_isPlain hplain
  have hslash : '/' ∉ ending.toList := by decide
  obtain ⟨parts, last, hsplit, hprolonged⟩ := exists_splitFrom_append [] name.toList hslash
  rw [String.ofList_toList, ← String.toList_append] at hprolonged
  have hmem : ∀ part ∈ parts ++ [last], '/' ∉ part.toList := fun part hpart =>
    notMem_of_mem_splitFrom List.not_mem_nil (hsplit ▸ hpart)
  rw [hsplit] at hhere hup
  have hstays : .up ∉ parts.filterMap component? := fun hmem => hup (by
    rw [List.filterMap_append]
    exact List.mem_append_left _ hmem)
  obtain ⟨hparent, hnames⟩ := filterMap_component? hstays
  refine ⟨(parts.filter (· != "")).filter (· != "."), last, ?_, ?_, fun n hn => ?_⟩
  · unfold split
    rw [hprolonged]
    cases parts with
    | nil =>
      -- The last part is the first one too, and with the ending it is no `.`.
      intro hdot
      have hlast := component?_append_ending last
      rw [Option.some.inj hdot] at hlast
      cases hlast
    | cons part parts => exact hhere
  · unfold split
    rw [hprolonged, List.filterMap_append, hnames, List.map_append, List.filterMap_cons,
      component?_append_ending]
    rfl
  · rcases List.mem_append.mp hn with hn | hn
    · rw [List.mem_filter, List.mem_filter] at hn
      obtain ⟨⟨hpart, hempty⟩, hdot⟩ := hn
      refine isName_of_component? (hmem n (List.mem_append_left _ hpart))
        (component?_of_name (by simpa using hempty) (by simpa using hdot) ?_)
      rintro rfl
      exact hparent hpart
    · obtain rfl := List.mem_singleton.mp hn
      refine isName_of_component? ?_ (component?_append_ending last)
      rw [String.toList_append, List.mem_append, not_or]
      exact ⟨hmem last (List.mem_append_right _ (List.mem_singleton_self _)), hslash⟩

/-- The path of a script goes from the shelf down by plain names, the last of which ends like the
name of a script. -/
lemma components_of_path? {s : Shelf} {name : String} {p : Path} (h : s.path? name = some p) :
    ∃ names stem, p.components = s.root.components ++ (names ++ [stem ++ ending]).map .name ∧
      ∀ n ∈ names ++ [stem ++ ending], IsName n := by
  unfold path? at h
  split at h
  · cases h
  next hname =>
  obtain rfl := Option.some.inj h
  rw [Bool.or_eq_true, not_or, String.isEmpty_iff, Bool.not_eq_true', Bool.not_eq_false,
    List.all_eq_true] at hname
  obtain ⟨hne, hplain⟩ := hname
  obtain ⟨names, stem, hhere, hparts, hnames⟩ := exists_names_of_isPlain hplain
  rw [components_eq_spelled] at hplain
  have hrelative : Path.isAbsolute ⟨name ++ ending⟩ = false := by
    rw [Bool.eq_false_iff, Ne, isAbsolute_eq_true_iff, String.toList_append,
      List.head?_append_of_ne_nil _ (by simpa using hne)]
    exact (start_of_isPlain hplain).1
  exact ⟨names, stem, by rw [components_join_of_relative hrelative hhere, hparts], hnames⟩

/-- A name without a path is not looked for. -/
lemma load_of_path?_eq_none {s : Shelf} {name : String} (h : s.path? name = none) (tree : FileTree)
    (cwd : Location) : s.load tree cwd name = .error (.notFound name) := by
  unfold load
  rw [h]

end Shelf

end Recital

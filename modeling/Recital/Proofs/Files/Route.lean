import Recital.Proofs.Store.Tree

/-!
# Where paths lead

Paths are joined, and cut off before their last component, as texts; what a path means is a walk
through a tree.  A path that is joined to that of a directory leads where it leads from there
(`FileTree.Enters.reach_join`), and the parent of a path of a file leads to the directory in which
the file stands (`FileTree.exists_parent?`), however many slashes and parts `.` there are.
-/

namespace Recital

namespace Path

variable {p q : Path} {cs ds : List Char}

/-! ### The parts of a text -/

lemma splitFrom_append (held cs ds : List Char) :
    splitFrom held (cs ++ '/' :: ds) = splitFrom held cs ++ splitFrom [] ds := by
  induction cs generalizing held with
  | nil => rfl
  | cons c cs ih =>
    by_cases hc : c = '/'
    · subst hc
      exact congrArg _ (ih [])
    · simp only [List.cons_append, splitFrom]
      exact ih _

/-- A text without slashes is one part. -/
lemma splitFrom_of_notMem {held cs : List Char} (h : '/' ∉ cs) :
    splitFrom held cs = [String.ofList (held.reverse ++ cs)] := by
  induction cs generalizing held with
  | nil => simp [splitFrom]
  | cons c cs ih =>
    rw [List.mem_cons, not_or] at h
    rw [splitFrom, ih h.2, List.reverse_cons, List.append_assoc, List.singleton_append]
    exact fun heq => h.1 heq.symm

/-- The parts of a text that are not empty. -/
def named (cs : List Char) : List String := (splitFrom [] cs).filter (· != "")

lemma named_nil : named [] = [] := rfl

lemma named_append (cs ds : List Char) : named (cs ++ '/' :: ds) = named cs ++ named ds := by
  unfold named
  rw [splitFrom_append, List.filter_append]

/-- A slash at the end ends no part. -/
lemma named_slash (cs : List Char) : named (cs ++ ['/']) = named cs := by
  rw [named_append, named_nil, List.append_nil]

/-- The parts that a text leads along; a slash at the end is one, too. -/
def route (cs : List Char) : List String :=
  if cs.getLast? = some '/' then named cs ++ ["."] else named cs

lemma parts_eq_route (p : Path) : FileTree.parts p = route p.text.toList := rfl

lemma isAbsolute_eq_true_iff : p.isAbsolute = true ↔ p.text.toList.head? = some '/' := by
  unfold isAbsolute
  split
  · next h => simp [h]
  · next h =>
    refine iff_of_false Bool.false_ne_true fun hhead => ?_
    obtain ⟨cs, hcs⟩ := List.head?_eq_some_iff.mp hhead
    exact h cs hcs

/-! ### Joining -/

lemma join_of_isAbsolute (h : q.isAbsolute = true) : p.join q = q := if_pos h

lemma join_of_isEmpty (hp : p.text = "") : p.join q = q := by
  unfold join
  rw [hp]
  simp

/-- Another text stands behind a slash. -/
lemma exists_join (hq : q.isAbsolute = false) (hp : p.text ≠ "") :
    ∃ cs, (p.join q).text.toList = cs ++ '/' :: q.text.toList ∧
      (p.text.toList = cs ++ ['/'] ∨ p.text.toList = cs) := by
  unfold join
  rw [if_neg (by simp [hq])]
  by_cases hlast : p.text.toList.getLast? = some '/'
  · obtain ⟨cs, hcs⟩ := List.getLast?_eq_some_iff.mp hlast
    refine ⟨cs, ?_, .inl hcs⟩
    simp [hcs]
  · refine ⟨p.text.toList, ?_, .inr rfl⟩
    simp [hp, hlast]

lemma isAbsolute_join_of_ne (hq : q.isAbsolute = false) (hp : p.text ≠ "") :
    (p.join q).isAbsolute = p.isAbsolute := by
  obtain ⟨cs, hjoin, hcs⟩ := exists_join hq hp
  rw [Bool.eq_iff_iff, isAbsolute_eq_true_iff, isAbsolute_eq_true_iff, hjoin]
  rcases hcs with hcs | hcs
  · rw [hcs]
    cases cs <;> rfl
  · have hne : cs ≠ [] := fun hnil => hp (by simpa [hnil] using hcs)
    rw [hcs, List.head?_append_of_ne_nil _ hne]

lemma isAbsolute_join (p q : Path) : (p.join q).isAbsolute = (p.isAbsolute || q.isAbsolute) := by
  cases hq : q.isAbsolute with
  | true => rw [join_of_isAbsolute hq, hq, Bool.or_true]
  | false =>
    rw [Bool.or_false]
    by_cases hp : p.text = ""
    · obtain ⟨text⟩ := p
      cases hp
      rw [join_of_isEmpty rfl, hq]
      rfl
    · exact isAbsolute_join_of_ne hq hp

/-! ### The parent -/

/-- Trimming keeps the start of a text. -/
lemma getLast?_trimReversed (cs : List Char) : (trimReversed cs).getLast? = cs.getLast? := by
  induction cs using trimReversed.induct with
  | case1 cs h => simp_all [trimReversed]
  | case2 cs h ih =>
    rw [trimReversed, if_neg h, ih]
    cases cs with
    | nil => simp at h
    | cons c cs => rfl
  | case3 cs ih =>
    rw [trimReversed, ih]
    rfl
  | case4 cs hslash hdot =>
    rw [trimReversed]
    · exact hslash
    · exact hdot

/-- The slash at the start is the last to be dropped from the end. -/
lemma getLast?_dropWhile (cs : List Char) :
    (cs.dropWhile (· != '/')).getLast? = some '/' ↔ cs.getLast? = some '/' := by
  induction cs with
  | nil => rfl
  | cons c cs ih =>
    by_cases hc : c = '/'
    · rw [List.dropWhile_cons_of_neg (by simp [hc])]
    · rw [List.dropWhile_cons_of_pos (by simp [hc]), ih]
      cases cs with
      | nil => simp [hc]
      | cons d ds => rfl

/-- What the parent of a path is, if it has one. -/
lemma eq_of_parent? (h : p.parent? = some q) :
    q.text.toList = (trimReversed
      ((trimReversed p.text.toList.reverse).dropWhile (· != '/'))).reverse := by
  unfold parent? at h
  split at h
  · cases h
  · cases h
  · cases h
    exact String.toList_ofList

lemma isAbsolute_of_parent? (h : p.parent? = some q) : q.isAbsolute = p.isAbsolute := by
  rw [Bool.eq_iff_iff, isAbsolute_eq_true_iff, isAbsolute_eq_true_iff, eq_of_parent? h,
    List.head?_reverse, getLast?_trimReversed, getLast?_dropWhile, getLast?_trimReversed,
    List.getLast?_reverse]

lemma trimReversed_cons {c : Char} (hslash : c ≠ '/') (hdot : c = '.' → cs.head? ≠ some '/') :
    trimReversed (c :: cs) = c :: cs := by
  rw [trimReversed]
  · rintro ds heq
    cases heq
    exact hslash rfl
  · rintro ds heq
    cases heq
    exact hdot rfl rfl

/-- Nothing is trimmed behind a name. -/
lemma trimReversed_append (hslash : '/' ∉ cs) (hne : cs ≠ []) (hdot : cs ≠ ['.']) :
    trimReversed (cs ++ ds) = cs ++ ds := by
  cases cs with
  | nil => exact absurd rfl hne
  | cons c cs =>
    refine trimReversed_cons (fun hc => hslash (hc ▸ List.mem_cons_self)) ?_
    rintro rfl hhead
    cases cs with
    | nil => exact hdot rfl
    | cons d cs =>
      cases hhead
      exact hslash (List.mem_cons_of_mem _ List.mem_cons_self)

lemma component?_of_name {name : String} (hne : name ≠ "") (hdot : name ≠ ".") (hup : name ≠ "..") :
    component? name = some (.name name) := by
  simp [component?, hne, hdot, hup]

/-- The last component of a path whose last part is a name. -/
lemma getLast?_components {parts : List String} {name : String} (hsplit : p.split = parts ++ [name])
    (hne : name ≠ "") (hdot : name ≠ ".") (hup : name ≠ "..") :
    p.components.getLast? = some (.name name) := by
  unfold components
  rw [hsplit]
  simp only [List.filterMap_append, List.filterMap_cons, component?_of_name hne hdot hup,
    List.filterMap_nil]
  rw [← List.append_assoc, List.getLast?_concat]

/-- The last part of a path is what stands behind the last slash. -/
lemma exists_last_part (p : Path) : ∃ parts name ds, p.split = parts ++ [name] ∧
    p.text.toList.reverse = name.toList.reverse ++ ds ∧ '/' ∉ name.toList ∧
      (ds = [] ∨ ds.head? = some '/') ∧ parts.filter (· != "") = named ds.reverse := by
  by_cases hslash : '/' ∈ p.text.toList.reverse
  · obtain ⟨cs, ds, hcs, hname⟩ := List.eq_append_cons_of_mem hslash
    have htext : p.text.toList = ds.reverse ++ '/' :: cs.reverse := by
      rw [← List.reverse_reverse p.text.toList, hcs]
      simp
    refine ⟨splitFrom [] ds.reverse, String.ofList cs.reverse, '/' :: ds, ?_, ?_, ?_, .inr rfl, ?_⟩
    · unfold split
      rw [htext, splitFrom_append]
      exact congrArg _ (splitFrom_of_notMem (by simpa using hname))
    · simpa using hcs
    · simpa using hname
    · rw [List.reverse_cons, named_slash]
      rfl
  · rw [List.mem_reverse] at hslash
    refine ⟨[], p.text, [], ?_, (List.append_nil _).symm, hslash, .inl rfl, rfl⟩
    unfold split
    rw [splitFrom_of_notMem hslash]
    simp

/-- The parent of a path that ends in a name is what stands before the name. -/
lemma exists_parent? {parts : List String} {name : String} (hsplit : p.split = parts ++ [name])
    (htext : p.text.toList.reverse = name.toList.reverse ++ ds) (hslash : '/' ∉ name.toList)
    (hds : ds = [] ∨ ds.head? = some '/') (hne : name ≠ "") (hdot : name ≠ ".")
    (hup : name ≠ "..") : ∃ q, p.parent? = some q ∧ q.text.toList = (trimReversed ds).reverse := by
  have hparent : ∃ q, p.parent? = some q := by
    unfold parent?
    rw [getLast?_components hsplit hne hdot hup]
    exact ⟨_, rfl⟩
  obtain ⟨q, hq⟩ := hparent
  refine ⟨q, hq, ?_⟩
  have hdrop : ds.dropWhile (· != '/') = ds := by
    cases ds with
    | nil => rfl
    | cons d ds =>
      rcases hds with hds | hds
      · cases hds
      · cases hds
        rfl
  have htrim : trimReversed (name.toList.reverse ++ ds) = name.toList.reverse ++ ds := by
    refine trimReversed_append (by simpa using hslash) (by simpa using hne) fun heq => hdot ?_
    rw [List.reverse_eq_iff] at heq
    exact String.toList_injective heq
  rw [eq_of_parent? hq, htext, htrim, List.dropWhile_append_of_pos, hdrop]
  intro c hc
  rw [List.mem_reverse] at hc
  exact bne_iff_ne.mpr fun heq => hslash (heq ▸ hc)

end Path

namespace FileTree

variable {t : FileTree} {cwd here l : Location} {p q : Path} {cs ds : List Char}
  {xs ys : List String} {content : ByteArray}

open Recital.Path

/-! ### Walking -/

/-- A walk goes on where it has led. -/
lemma walk_append (t : FileTree) (here : Location) (xs ys : List String) :
    t.walk here (xs ++ ys) = (t.walk here xs).bind fun l => t.walk l ys := by
  induction xs generalizing here with
  | nil =>
    rw [List.nil_append, walk]
    cases hentry : t.entry? here with
    | some e => rfl
    | none =>
      cases ys with
      | nil => simp [walk, hentry, Except.bind]
      | cons part ys => simp [walk, hentry, Except.bind]
  | cons part xs ih =>
    rw [List.cons_append, walk, walk]
    split
    · rfl
    · rfl
    · split
      · exact ih _
      · split
        · exact ih _
        · split
          · rfl
          · exact ih _

lemma walk_append_of_ok (h : t.walk here xs = .ok l) : t.walk here (xs ++ ys) = t.walk l ys := by
  rw [walk_append, h]
  rfl

lemma exists_walk_of_append (h : t.walk here (xs ++ ys) = .ok l) :
    ∃ m, t.walk here xs = .ok m ∧ t.walk m ys = .ok l := by
  rw [walk_append] at h
  cases hxs : t.walk here xs with
  | error e =>
    rw [hxs] at h
    cases h
  | ok m =>
    rw [hxs] at h
    exact ⟨m, rfl, h⟩

lemma eq_of_walk_nil (h : t.walk here [] = .ok l) : l = here := by
  rw [walk] at h
  split at h
  · cases h
    rfl
  · cases h

/-- A part `.` leads nowhere else, but asks for a directory. -/
lemma walk_dot_eq_ok_iff :
    t.walk here ["."] = .ok l ↔ t.entry? here = some .directory ∧ l = here := by
  rw [walk]
  cases hentry : t.entry? here with
  | none => simp
  | some e =>
    cases e with
    | file content => simp
    | directory => simp [walk, hentry, eq_comm]

/-- A slash at the end makes no difference behind a directory. -/
lemma walk_route (hdir : t.entry? l = some .directory) :
    t.walk here (route cs) = .ok l ↔ t.walk here (named cs) = .ok l := by
  unfold route
  split
  · constructor
    · intro h
      obtain ⟨m, hm, hdot⟩ := exists_walk_of_append h
      rw [(walk_dot_eq_ok_iff.mp hdot).2]
      exact hm
    · intro h
      rw [walk_append_of_ok h]
      exact walk_dot_eq_ok_iff.mpr ⟨hdir, rfl⟩
  · rfl

/-- A text behind a slash leads on from where the text before it has led. -/
lemma walk_route_append (hdir : t.entry? l = some .directory)
    (h : t.walk here (named cs) = .ok l) :
    t.walk here (route (cs ++ '/' :: ds)) = t.walk l (route ds) := by
  cases ds with
  | nil =>
    have hend : t.walk l (route []) = .ok l := by simp [route, named_nil, walk, hdir]
    rw [hend, walk_route hdir, named_slash]
    exact h
  | cons d ds =>
    have hroute : route (cs ++ '/' :: d :: ds) = named cs ++ route (d :: ds) := by
      unfold route
      rw [List.getLast?_append_cons, List.getLast?_cons_cons, named_append]
      split
      · rw [List.append_assoc]
      · rfl
    rw [hroute, walk_append_of_ok h]

/-- What is trimmed leads nowhere else. -/
lemma walk_trimReversed (h : t.walk here (named cs.reverse) = .ok l) :
    t.walk here (named (trimReversed cs).reverse) = .ok l := by
  induction cs using trimReversed.induct with
  | case1 cs hnil => rwa [trimReversed, if_pos hnil, ← List.isEmpty_iff.mp hnil]
  | case2 cs hcs ih =>
    rw [trimReversed, if_neg hcs]
    rw [List.reverse_cons, named_slash] at h
    exact ih h
  | case3 cs ih =>
    rw [trimReversed]
    have hnamed : named ('.' :: '/' :: cs).reverse = named ('/' :: cs).reverse ++ ["."] := by
      rw [List.reverse_cons, List.reverse_cons, named_slash, List.append_assoc,
        List.singleton_append, named_append]
      rfl
    rw [hnamed] at h
    obtain ⟨m, hm, hdot⟩ := exists_walk_of_append h
    rw [← (walk_dot_eq_ok_iff.mp hdot).2] at hm
    exact ih hm
  | case4 cs hslash hdot =>
    rw [trimReversed]
    · exact h
    · exact hslash
    · exact hdot

/-- The parent of what stands in a sound tree is a directory. -/
lemma IsSound.entry?_dropLast (ht : t.IsSound) (h : t.entry? l ≠ none) :
    t.entry? l.dropLast = some .directory := by
  rcases List.eq_nil_or_concat l with rfl | ⟨dir, name, rfl⟩
  · rfl
  · rw [List.concat_eq_append] at h ⊢
    rw [List.dropLast_concat]
    exact ht.parent dir name h

/-- The last step to a file is its name. -/
lemma walk_to_file (ht : t.IsSound) {part : String} (h : t.walk here [part] = .ok l)
    (hfile : t.file? l = some content) :
    t.entry? here = some .directory ∧ part ≠ "." ∧ part ≠ ".." ∧ l = here ++ [part] := by
  rw [file?_eq_some_iff] at hfile
  rw [walk] at h
  split at h
  · cases h
  · cases h
  · next hdir =>
    refine ⟨hdir, ?_⟩
    split at h
    · rw [eq_of_walk_nil h, hdir] at hfile
      cases hfile
    · next hdot =>
      split at h
      · have hup := ht.entry?_dropLast (l := here) (by rw [hdir]; exact Option.some_ne_none _)
        rw [eq_of_walk_nil h, hup] at hfile
        cases hfile
      · next hup =>
        split at h
        · cases h
        · exact ⟨hdot, hup, eq_of_walk_nil h⟩

/-! ### Paths -/

/-- Where a path leads. -/
def reach (t : FileTree) (cwd : Location) (p : Path) : Except FileError Location :=
  t.walk (if p.isAbsolute then [] else cwd) (parts p)

lemma reach_empty (hcwd : t.entry? cwd = some .directory) : t.reach cwd ⟨""⟩ = .ok cwd := by
  have hwalk : t.walk cwd [] = .ok cwd := by simp [walk, hcwd]
  exact hwalk

/-- Why a path is not followed at all. -/
def fault? (p : Path) : Option FileError :=
  if p.text.isEmpty then some .missing
  else if p.text.toList.contains nullChar then some .nullCharacter
  else if pathLimit < p.text.utf8ByteSize then some .tooLong
  else none

/-- The text of a file is read where its path leads. -/
lemma readPath_eq (t : FileTree) (cwd : Location) (p : Path) :
    t.readPath cwd p =
      (((fault? p).elim (t.reach cwd p) .error).bind t.readText : Except FileError String) := by
  have hlocate : t.locate cwd p = (fault? p).elim (t.reach cwd p) .error := by
    unfold locate fault? FileTree.reach
    split_ifs <;> rfl
  unfold readPath
  rw [hlocate]
  cases (fault? p).elim (t.reach cwd p) .error <;> rfl

/-- A path that is followed is not too long. -/
lemma utf8ByteSize_le_of_readPath {text : String} (h : t.readPath cwd p = .ok text) :
    p.text.utf8ByteSize ≤ pathLimit := by
  by_contra hlong
  obtain ⟨e, he⟩ : ∃ e, fault? p = some e := by
    unfold fault?
    split
    · exact ⟨_, rfl⟩
    · split
      · exact ⟨_, rfl⟩
      · exact ⟨_, if_pos (Nat.lt_of_not_le hlong)⟩
  rw [readPath_eq, he] at h
  cases h

/-- Text is read from files only. -/
lemma exists_file?_of_readText {text : String} (h : t.readText l = .ok text) :
    ∃ content, t.file? l = some content := by
  unfold readText read at h
  split at h
  · cases h
  · next content hread =>
    split at hread
    · cases hread
    · cases hread
    · next hentry => exact ⟨_, file?_eq_some_iff.mpr hentry⟩

/-- A path leads to a directory. -/
structure Enters (t : FileTree) (cwd : Location) (p : Path) (here : Location) : Prop where
  reach : t.reach cwd p = .ok here
  directory : t.entry? here = some .directory

/-- A path that is joined to that of a directory leads where it leads from there. -/
theorem Enters.reach_join (h : t.Enters cwd p here) (q : Path) :
    t.reach cwd (p.join q) = t.reach here q := by
  obtain ⟨hreach, hdir⟩ := h
  unfold FileTree.reach at hreach ⊢
  cases hq : q.isAbsolute with
  | true => rw [join_of_isAbsolute hq, if_pos hq, if_pos rfl]
  | false =>
    rw [if_neg Bool.false_ne_true]
    by_cases hp : p.text = ""
    · obtain ⟨text⟩ := p
      cases hp
      rw [join_of_isEmpty rfl, hq, if_neg Bool.false_ne_true, eq_of_walk_nil hreach]
      rfl
    · obtain ⟨cs, hjoin, hcs⟩ := exists_join hq hp
      rw [isAbsolute_join_of_ne hq hp, parts_eq_route, parts_eq_route, hjoin]
      refine walk_route_append hdir ?_
      rw [parts_eq_route, walk_route hdir] at hreach
      rcases hcs with hcs | hcs
      · rwa [hcs, named_slash] at hreach
      · rwa [hcs] at hreach

/-- The parent of a path of a file leads to the directory in which the file stands. -/
theorem exists_parent? (ht : t.IsSound) (hcwd : t.entry? cwd = some .directory)
    (h : t.reach cwd p = .ok l) (hfile : t.file? l = some content) :
    ∃ q, p.parent? = some q ∧ t.Enters cwd q l.dropLast := by
  have hentry := file?_eq_some_iff.mp hfile
  unfold FileTree.reach at h
  have hstart : t.entry? (if p.isAbsolute then [] else cwd) = some .directory := by
    split
    · rfl
    · exact hcwd
  have hlast : p.text.toList.getLast? ≠ some '/' := fun hslash => by
    rw [parts_eq_route, route, if_pos hslash] at h
    obtain ⟨m, -, hdot⟩ := exists_walk_of_append h
    obtain ⟨hdir, rfl⟩ := walk_dot_eq_ok_iff.mp hdot
    cases hdir.symm.trans hentry
  rw [parts_eq_route, route, if_neg hlast] at h
  obtain ⟨parts, name, ds, hsplit, htext, hslash, hds, hparts⟩ := exists_last_part p
  have hne : name ≠ "" := by
    rintro rfl
    rcases hds with rfl | hds
    · rw [List.reverse_eq_nil_iff.mp htext] at h
      rw [eq_of_walk_nil h] at hentry
      cases hstart.symm.trans hentry
    · refine hlast ?_
      rw [← List.head?_reverse, htext]
      exact hds
  have hnamed : named p.text.toList = named ds.reverse ++ [name] := by
    have hfilter : named p.text.toList = (parts ++ [name]).filter (· != "") := congrArg _ hsplit
    rw [hfilter, List.filter_append, hparts]
    simp [hne]
  rw [hnamed] at h
  obtain ⟨here, hhere, hname⟩ := exists_walk_of_append h
  obtain ⟨hdir, hdot, hup, rfl⟩ := walk_to_file ht hname hfile
  obtain ⟨q, hq, hqtext⟩ := Path.exists_parent? hsplit htext hslash hds hne hdot hup
  rw [List.dropLast_concat]
  refine ⟨q, hq, ?_, hdir⟩
  unfold FileTree.reach
  rw [isAbsolute_of_parent? hq, parts_eq_route, walk_route hdir, hqtext]
  exact walk_trimReversed hhere

end FileTree

end Recital

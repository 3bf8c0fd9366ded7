import Recital.Proofs.Files.Spelling
import Mathlib.Data.List.TakeWhile

/-!
# What the components of a path decide

Paths with the same components may have different texts.  Still the components decide where a path
leads, if it can be followed (`Path.eq_names_of_reach`), and they decide the components of its
parent and of what is joined to it (`Path.components_of_parent?`, `Path.components_join_congr`).  So
a file of which the path is spelled in another way has the same text, and what it includes is
spelled in another way at most.
-/

namespace Recital

namespace Path

variable {p q p' q' : Path} {cs ds : List Char} {t : FileTree} {cwd here l : Location}

/-! ### The components of a text -/

/-- The components of a path with the given characters. -/
def spelled (cs : List Char) : List Component :=
  (if cs.head? = some '/' then [.root] else if (splitFrom [] cs).head? = some "." then [.here]
    else []) ++ (splitFrom [] cs).filterMap component?

lemma components_eq_spelled (p : Path) : p.components = spelled p.text.toList := by
  unfold components spelled split
  simp only [isAbsolute_eq_true_iff]

lemma splitFrom_ne_nil (held cs : List Char) : splitFrom held cs ≠ [] := by
  induction cs generalizing held with
  | nil => exact List.cons_ne_nil _ _
  | cons c cs ih =>
    by_cases hc : c = '/'
    · subst hc
      exact List.cons_ne_nil _ _
    · rw [splitFrom]
      · exact ih _
      · exact hc

/-- What stands behind a slash adds its components. -/
lemma spelled_append (cs ds : List Char) : spelled (cs ++ '/' :: ds) =
    spelled (cs ++ ['/']) ++ (splitFrom [] ds).filterMap component? := by
  have hhead : ∀ ds, (cs ++ '/' :: ds).head? = (cs ++ ['/']).head? := by
    intro ds
    cases cs <;> rfl
  unfold spelled
  rw [splitFrom_append, splitFrom_append, hhead,
    List.head?_append_of_ne_nil _ (splitFrom_ne_nil [] cs),
    List.head?_append_of_ne_nil _ (splitFrom_ne_nil [] cs), List.filterMap_append,
    List.filterMap_append]
  simp [splitFrom, component?]

/-- A slash at the end adds none. -/
lemma spelled_slash (h : cs ≠ []) : spelled (cs ++ ['/']) = spelled cs := by
  unfold spelled
  rw [splitFrom_append, List.head?_append_of_ne_nil _ h,
    List.head?_append_of_ne_nil _ (splitFrom_ne_nil [] cs), List.filterMap_append]
  simp [splitFrom, component?]

/-- Trimming removes none. -/
lemma spelled_trimReversed (cs : List Char) :
    spelled (trimReversed cs).reverse = spelled cs.reverse := by
  induction cs using trimReversed.induct with
  | case1 cs hnil => rw [trimReversed, if_pos hnil, List.isEmpty_iff.mp hnil]
  | case2 cs hcs ih =>
    have hne : cs.reverse ≠ [] := by simpa using hcs
    rw [trimReversed, if_neg hcs, ih, List.reverse_cons, spelled_slash hne]
  | case3 cs ih =>
    have hdot : ('.' :: '/' :: cs).reverse = cs.reverse ++ '/' :: ['.'] := by simp
    have hnone : (splitFrom [] ['.']).filterMap component? = [] := by decide
    rw [trimReversed, ih, hdot, spelled_append, hnone, List.append_nil, List.reverse_cons]
  | case4 cs hslash hdot =>
    rw [trimReversed]
    · exact hslash
    · exact hdot

/-- What is trimmed is a slash or ends in a part that is a component. -/
lemma trimReversed_eq_or (cs : List Char) : trimReversed cs = ['/'] ∨
    (trimReversed cs).head? ≠ some '/' ∧ ∀ ds, trimReversed cs ≠ '.' :: '/' :: ds := by
  induction cs using trimReversed.induct with
  | case1 cs hnil =>
    rw [trimReversed, if_pos hnil]
    exact .inl rfl
  | case2 cs hcs ih =>
    rw [trimReversed, if_neg hcs]
    exact ih
  | case3 cs ih =>
    rw [trimReversed]
    exact ih
  | case4 cs hslash hdot =>
    rw [trimReversed]
    · refine .inr ⟨fun hhead => ?_, hdot⟩
      obtain ⟨ds, hds⟩ := List.head?_eq_some_iff.mp hhead
      exact hslash ds hds
    · exact hslash
    · exact hdot

/-! ### Parents -/

/-- A part that is neither empty nor a `.` is a component. -/
lemma exists_component? {part : String} (hne : part ≠ "") (hdot : part ≠ ".") :
    ∃ c, component? part = some c := by
  unfold component?
  rw [if_neg (not_or.mpr ⟨hne, hdot⟩)]
  split
  · exact ⟨_, rfl⟩
  · exact ⟨_, rfl⟩

/-- A single part is one component at most. -/
lemma dropLast_spelled (h : '/' ∉ cs) : (spelled cs).dropLast = [] := by
  have hhead : cs.head? ≠ some '/' := fun hhead => h (List.mem_of_head? hhead)
  unfold spelled
  rw [splitFrom_of_notMem h, if_neg hhead, List.reverse_nil, List.nil_append]
  by_cases hdot : String.ofList cs = "."
  · simp [hdot, component?]
  · by_cases hempty : String.ofList cs = ""
    · simp [hempty, component?]
    · obtain ⟨c, hc⟩ := exists_component? hempty hdot
      simp [hdot, hc]

/-- The last component of a path is what stands behind the last slash, if the end is trimmed. -/
lemma spelled_dropWhile (hslash : cs.head? ≠ some '/') (hdot : ∀ ds, cs ≠ '.' :: '/' :: ds) :
    spelled (cs.dropWhile (· != '/')).reverse = (spelled cs.reverse).dropLast := by
  have hname : '/' ∉ (cs.takeWhile (· != '/')).reverse := by
    rw [List.mem_reverse]
    exact fun hmem => by simpa using List.mem_takeWhile_imp hmem
  have hparts := List.takeWhile_append_dropWhile (p := (· != '/')) (l := cs)
  cases hrest : cs.dropWhile (· != '/') with
  | nil =>
    rw [hrest, List.append_nil] at hparts
    rw [hparts] at hname
    rw [dropLast_spelled hname]
    rfl
  | cons d rest =>
    have hd : d = '/' := by
      have hhead := List.head?_dropWhile_not (· != '/') cs
      simpa [hrest] using hhead
    subst hd
    rw [hrest] at hparts
    have hsplit : splitFrom [] (cs.takeWhile (· != '/')).reverse =
        [String.ofList (cs.takeWhile (· != '/')).reverse] := splitFrom_of_notMem hname
    obtain ⟨c, hc⟩ :
        ∃ c, component? (String.ofList (cs.takeWhile (· != '/')).reverse) = some c := by
      refine exists_component? (fun hempty => hslash ?_) fun hone => hdot rest ?_
      · have hnil : cs.takeWhile (· != '/') = [] := by simpa using hempty
        rw [← hparts, hnil]
        rfl
      · have hchars : (cs.takeWhile (· != '/')).reverse = ['.'] := by
          rw [← String.toList_ofList (l := (cs.takeWhile (· != '/')).reverse), hone]
          rfl
        rw [List.reverse_eq_iff] at hchars
        rw [← hparts, hchars]
        rfl
    have hreverse : cs.reverse = rest.reverse ++ '/' :: (cs.takeWhile (· != '/')).reverse := by
      conv_lhs => rw [← hparts]
      simp
    rw [hreverse, spelled_append, hsplit, List.filterMap_cons, hc, List.reverse_cons]
    simp

/-- The parent of a path has its components but the last one. -/
lemma components_of_parent? (h : p.parent? = some q) : q.components = p.components.dropLast := by
  have htrim : p.components = spelled (trimReversed p.text.toList.reverse).reverse := by
    rw [spelled_trimReversed, List.reverse_reverse, components_eq_spelled]
  rw [components_eq_spelled, eq_of_parent? h, spelled_trimReversed, htrim]
  rcases trimReversed_eq_or p.text.toList.reverse with hroot | ⟨hslash, hdot⟩
  · rw [hroot] at htrim
    have hlast : p.components.getLast? = some .root := by rw [htrim]; rfl
    unfold parent? at h
    rw [hlast] at h
    cases h
  · exact spelled_dropWhile hslash hdot

/-- Whether a path has a parent is seen from its components. -/
lemma parent?_eq_none_iff :
    p.parent? = none ↔ p.components.getLast? = none ∨ p.components.getLast? = some .root := by
  unfold parent?
  split
  · next h => simp [h]
  · next h => simp [h]
  · next hroot h =>
    rw [h]
    refine iff_of_false (fun hnone => by cases hnone) ?_
    rintro (hnone | hsome)
    · cases hnone
    · exact hroot (Option.some.inj hsome)

/-- The parents of paths with the same components, if there are some, have the same components. -/
lemma components_parent?_congr (h : p.components = p'.components) :
    ((p.parent?).getD q).components = ((p'.parent?).getD q).components := by
  have hnone : p.parent? = none ↔ p'.parent? = none := by
    rw [parent?_eq_none_iff, parent?_eq_none_iff, h]
  cases hp : p.parent? with
  | none => rw [hnone.mp hp]
  | some d =>
    cases hp' : p'.parent? with
    | none =>
      rw [hnone.mpr hp'] at hp
      cases hp
    | some d' =>
      rw [Option.getD_some, Option.getD_some, components_of_parent? hp,
        components_of_parent? hp', h]

/-! ### Joining -/

/-- No part stands for a start. -/
lemma isPlain_of_component? {part : String} {c : Component} (h : component? part = some c) :
    c ≠ .root ∧ c ≠ .here := by
  unfold component? at h
  split at h
  · cases h
  · split at h <;> cases h <;> exact ⟨nofun, nofun⟩

/-- The components of the parts are those that are no start. -/
lemma filterMap_split (p : Path) :
    p.split.filterMap component? = p.components.filter fun c => c ≠ .root ∧ c ≠ .here := by
  have hparts : (p.split.filterMap component?).filter (fun c => c ≠ .root ∧ c ≠ .here) =
      p.split.filterMap component? := by
    refine List.filter_eq_self.mpr fun c hc => ?_
    obtain ⟨part, -, hpart⟩ := List.mem_filterMap.mp hc
    exact decide_eq_true (isPlain_of_component? hpart)
  unfold components
  rw [List.filter_append, hparts]
  split
  · rfl
  · split <;> rfl

/-- A path is absolute if its first component is the root. -/
lemma isAbsolute_iff_head? : p.isAbsolute = true ↔ p.components.head? = some .root := by
  unfold components
  dsimp only
  constructor
  · intro h
    rw [if_pos h]
    rfl
  · intro h
    by_contra habsolute
    rw [if_neg habsolute] at h
    split at h
    · cases h
    · obtain ⟨part, -, hpart⟩ := List.mem_filterMap.mp (List.mem_of_head? h)
      exact (isPlain_of_component? hpart).1 rfl

/-- The first part stands before the first slash. -/
lemma head?_splitFrom (held cs : List Char) : (splitFrom held cs).head? =
    some (String.ofList (held.reverse ++ cs.takeWhile (· != '/'))) := by
  induction cs generalizing held with
  | nil => simp [splitFrom]
  | cons c cs ih =>
    by_cases hc : c = '/'
    · subst hc
      simp [splitFrom]
    · rw [splitFrom]
      · rw [ih, List.takeWhile_cons_of_pos (by simpa using hc)]
        simp
      · exact hc

/-- Only the empty path has no components. -/
lemma components_eq_nil_iff : p.components = [] ↔ p.text = "" := by
  constructor
  · intro h
    rw [components_eq_spelled] at h
    unfold spelled at h
    rw [List.append_eq_nil_iff] at h
    obtain ⟨hstart, hparts⟩ := h
    rw [← String.toList_eq_nil_iff]
    cases hcs : p.text.toList with
    | nil => rfl
    | cons c cs =>
      rw [hcs] at hstart hparts
      split at hstart
      · cases hstart
      · next hslash =>
        split at hstart
        · cases hstart
        · next hdot =>
          have hc : c ≠ '/' := fun hc => hslash (by rw [hc]; rfl)
          have hfirst := head?_splitFrom [] (c :: cs)
          rw [List.takeWhile_cons_of_pos (by simpa using hc)] at hfirst
          rw [hfirst] at hdot
          obtain ⟨d, hd⟩ : ∃ d, component?
              (String.ofList (c :: cs.takeWhile (· != '/'))) = some d :=
            exists_component? (by simp) fun heq => hdot (by simpa using heq)
          have hmem : d ∈ (splitFrom [] (c :: cs)).filterMap component? :=
            List.mem_filterMap.mpr ⟨_, List.mem_of_head? hfirst, hd⟩
          rw [hparts] at hmem
          cases hmem
  · intro h
    obtain ⟨text⟩ := p
    cases h
    rfl

/-- What is joined to a path adds its components but for the start. -/
lemma components_join (hq : q.isAbsolute = false) (hp : p.text ≠ "") :
    (p.join q).components = p.components ++ q.split.filterMap component? := by
  obtain ⟨cs, hjoin, hcs⟩ := exists_join hq hp
  rw [components_eq_spelled, components_eq_spelled, hjoin, spelled_append]
  congr 1
  rcases hcs with hcs | hcs
  · rw [hcs]
  · rw [hcs]
    exact spelled_slash fun hnil => hp (by simpa [hnil] using hcs)

/-- The components of a joined path are decided by those of its parts. -/
lemma components_join_congr (hp : p.components = p'.components)
    (hq : q.components = q'.components) :
    (p.join q).components = (p'.join q').components := by
  have habsolute : q.isAbsolute = q'.isAbsolute := by
    rw [Bool.eq_iff_iff, isAbsolute_iff_head?, isAbsolute_iff_head?, hq]
  have hempty : p.text = "" ↔ p'.text = "" := by
    rw [← components_eq_nil_iff, ← components_eq_nil_iff, hp]
  cases hstart : q.isAbsolute with
  | true => rw [join_of_isAbsolute hstart, join_of_isAbsolute (habsolute ▸ hstart), hq]
  | false =>
    by_cases hnone : p.text = ""
    · rw [join_of_isEmpty hnone, join_of_isEmpty (hempty.mp hnone), hq]
    · rw [components_join hstart hnone, components_join (habsolute ▸ hstart) (hempty.not.mp hnone),
        filterMap_split, filterMap_split, hp, hq]

/-! ### Where paths lead -/

/-- A walk leads to the place of which the components of its parts are the way. -/
lemma eq_foldl_of_walk {xs : List String} (hxs : "" ∉ xs) (h : t.walk here xs = .ok l) :
    l = (xs.filterMap component?).foldl Component.follow here := by
  induction xs generalizing here with
  | nil => exact FileTree.eq_of_walk_nil h
  | cons part xs ih =>
    rw [List.mem_cons, not_or] at hxs
    rw [FileTree.walk] at h
    split at h
    · cases h
    · cases h
    · split at h
      · next hdot =>
        subst hdot
        simpa [component?] using ih hxs.2 h
      · next hdot =>
        split at h
        · next hup =>
          subst hup
          simpa [component?, Component.follow] using ih hxs.2 h
        · next hup =>
          split at h
          · cases h
          · rw [List.filterMap_cons, component?_of_name (Ne.symm hxs.1) hdot hup]
            exact ih hxs.2 h

/-- A path leads to the place of which its components are the way. -/
lemma eq_names_of_reach (h : t.reach cwd p = .ok l) : l = p.names cwd := by
  have hnamed : "" ∉ named p.text.toList := by simp [named]
  have hroute : "" ∉ route p.text.toList := by
    unfold route
    split
    · simpa using hnamed
    · exact hnamed
  have hcomponents : (route p.text.toList).filterMap component? = p.split.filterMap component? := by
    have hkeep : (named p.text.toList).filterMap component? = p.split.filterMap component? := by
      unfold named
      rw [List.filterMap_filter]
      refine List.filterMap_congr fun part _ => ?_
      by_cases hempty : part = ""
      · simp [hempty, component?]
      · simp [hempty]
    unfold route
    split
    · rw [List.filterMap_append, hkeep]
      exact List.append_nil _
    · exact hkeep
  have hwalk := eq_foldl_of_walk hroute h
  rw [hcomponents] at hwalk
  rw [hwalk]
  unfold names components
  rw [List.foldl_append]
  split
  · rfl
  · split <;> rfl

/-- Paths with the same components lead to the same text, if they can be followed. -/
lemma readPath_congr {text text' : String} (h : p.components = p'.components)
    (hp : t.readPath cwd p = .ok text) (hp' : t.readPath cwd p' = .ok text') : text = text' := by
  obtain ⟨l, hl, htext⟩ := exists_locate_of_readPath hp
  obtain ⟨l', hl', htext'⟩ := exists_locate_of_readPath hp'
  have hsame : l = l' := by
    rw [eq_names_of_reach (reach_of_locate hl), eq_names_of_reach (reach_of_locate hl'),
      names, names,
      h]
  subst hsame
  exact Except.ok.inj (htext.symm.trans htext')

end Path

end Recital

import Recital.Text.Blank
import Mathlib.Data.List.DropRight
import Mathlib.Data.List.TakeWhile

/-!
# Blanks at the ends of a text

Trimming takes away the blanks at the ends of a text and nothing else.  What is left is the only
text without blanks at its ends that makes up the given one between two runs of blanks
(`trim_eq_iff`), so that it does not matter in which order the ends are trimmed, or how often.

A text is cut at the first character of a kind: the part before it has none of that kind
(`cutAt_eq_some_iff`).
-/

namespace Recital.Text

variable {c : Char} {cs ds ws ws' : List Char} {s t : String} {p : Char → Bool}

/-! ### Runs of blanks -/

/-- All of the characters are blank. -/
def AllBlank (cs : List Char) : Prop := ∀ c ∈ cs, isBlank c = true

instance (cs : List Char) : Decidable (AllBlank cs) :=
  decidable_of_iff (cs.all isBlank = true) List.all_eq_true

/-- The characters neither start nor end with a blank. -/
structure IsTrimmed (cs : List Char) : Prop where
  head : ∀ c, cs.head? = some c → isBlank c = false
  last : ∀ c, cs.getLast? = some c → isBlank c = false

lemma allBlank_nil : AllBlank [] := fun _ h => absurd h List.not_mem_nil

lemma AllBlank.append (h : AllBlank ws) (h' : AllBlank ws') : AllBlank (ws ++ ws') := by
  intro c hc
  rcases List.mem_append.mp hc with hc | hc
  · exact h c hc
  · exact h' c hc

lemma AllBlank.reverse (h : AllBlank ws) : AllBlank ws.reverse :=
  fun c hc => h c (List.mem_reverse.mp hc)

lemma hasBlank_eq_false_iff : hasBlank s = false ↔ ∀ c ∈ s.toList, isBlank c = false := by
  simp [hasBlank]

/-! ### Trimming one end -/

lemma dropBlanks_cons (h : isBlank c = false) : dropBlanks (c :: cs) = c :: cs :=
  List.dropWhile_cons_of_neg (by rw [h]; exact Bool.false_ne_true)

/-- Nothing is dropped in front of a character that is not blank. -/
lemma dropBlanks_of_head (h : ∀ c, cs.head? = some c → isBlank c = false) : dropBlanks cs = cs := by
  cases cs with
  | nil => rfl
  | cons c cs => exact dropBlanks_cons (h c rfl)

/-- What is left behind leading blanks. -/
lemma dropBlanks_eq_iff : dropBlanks cs = ds ↔
    ∃ ws, AllBlank ws ∧ cs = ws ++ ds ∧ ∀ c, ds.head? = some c → isBlank c = false := by
  constructor
  · rintro rfl
    refine ⟨cs.takeWhile isBlank, fun c hc => List.mem_takeWhile_imp hc,
      List.takeWhile_append_dropWhile.symm, fun c hc => ?_⟩
    have hhead := List.head?_dropWhile_not isBlank cs
    unfold dropBlanks at hc
    simpa [hc] using hhead
  · rintro ⟨ws, hws, rfl, hhead⟩
    calc dropBlanks (ws ++ ds) = dropBlanks ds := List.dropWhile_append_of_pos hws
      _ = ds := dropBlanks_of_head hhead

/-- What is left before trailing blanks. -/
lemma dropBlanksEnd_eq_iff : dropBlanksEnd cs = ds ↔
    ∃ ws, AllBlank ws ∧ cs = ds ++ ws ∧ ∀ c, ds.getLast? = some c → isBlank c = false := by
  unfold dropBlanksEnd
  rw [List.reverse_eq_iff, dropBlanks_eq_iff]
  constructor
  · rintro ⟨ws, hws, heq, hlast⟩
    refine ⟨ws.reverse, hws.reverse, ?_, by simpa using hlast⟩
    rw [← List.reverse_reverse cs, heq, List.reverse_append, List.reverse_reverse]
  · rintro ⟨ws, hws, rfl, hlast⟩
    exact ⟨ws.reverse, hws.reverse, List.reverse_append, by simpa using hlast⟩

/-- What is left before the trailing blanks of a text. -/
lemma trimEnd_eq_iff : trimEnd s = t ↔ ∃ ws, AllBlank ws ∧ s.toList = t.toList ++ ws ∧
    ∀ c, t.toList.getLast? = some c → isBlank c = false := by
  rw [← dropBlanksEnd_eq_iff, ← String.toList_inj, trimEnd, String.toList_ofList]

/-- The end of a text is trimmed once. -/
@[simp] lemma trimEnd_trimEnd (s : String) : trimEnd (trimEnd s) = trimEnd s := by
  obtain ⟨-, -, -, hlast⟩ := trimEnd_eq_iff.mp (rfl : trimEnd s = trimEnd s)
  exact trimEnd_eq_iff.mpr ⟨[], allBlank_nil, (List.append_nil _).symm, hlast⟩

/-! ### Trimming both ends -/

/-- What is left between the blanks at both ends. -/
lemma dropBlanksEnd_dropBlanks_eq_iff : dropBlanksEnd (dropBlanks cs) = ds ↔
    ∃ ws ws', AllBlank ws ∧ AllBlank ws' ∧ cs = ws ++ (ds ++ ws') ∧ IsTrimmed ds := by
  constructor
  · intro h
    obtain ⟨ws, hws, hcs, hhead⟩ := dropBlanks_eq_iff.mp (rfl : dropBlanks cs = dropBlanks cs)
    obtain ⟨ws', hws', hds, hlast⟩ := dropBlanksEnd_eq_iff.mp h
    refine ⟨ws, ws', hws, hws', hds ▸ hcs, fun c hc => hhead c ?_, hlast⟩
    rw [hds, List.head?_append, hc, Option.some_or]
  · rintro ⟨ws, ws', hws, hws', rfl, htrimmed⟩
    cases ds with
    | nil =>
      have hnone : dropBlanks (ws ++ ([] ++ ws')) = [] :=
        dropBlanks_eq_iff.mpr ⟨ws ++ ws', hws.append hws', by simp, by simp⟩
      rw [hnone]
      rfl
    | cons d ds =>
      have hstart : dropBlanks (ws ++ (d :: ds ++ ws')) = d :: ds ++ ws' :=
        dropBlanks_eq_iff.mpr ⟨ws, hws, rfl, fun c hc => htrimmed.head c hc⟩
      rw [hstart]
      exact dropBlanksEnd_eq_iff.mpr ⟨ws', hws', rfl, htrimmed.last⟩

/-- What is left between the blanks at the ends of a text. -/
lemma trim_eq_iff : trim s = t ↔ ∃ ws ws', AllBlank ws ∧ AllBlank ws' ∧
    s.toList = ws ++ (t.toList ++ ws') ∧ IsTrimmed t.toList := by
  rw [← dropBlanksEnd_dropBlanks_eq_iff, ← String.toList_inj, trim, String.toList_ofList]

lemma isTrimmed_trim (s : String) : IsTrimmed (trim s).toList := by
  obtain ⟨-, -, -, -, -, h⟩ := trim_eq_iff.mp (rfl : trim s = trim s)
  exact h

/-- A text without blanks at its ends is what is left of it between blanks. -/
lemma trim_ofList_append (hws : AllBlank ws) (hws' : AllBlank ws') (h : IsTrimmed t.toList) :
    trim (String.ofList (ws ++ (t.toList ++ ws'))) = t :=
  trim_eq_iff.mpr ⟨ws, ws', hws, hws', String.toList_ofList, h⟩

lemma trim_of_isTrimmed (h : IsTrimmed s.toList) : trim s = s :=
  trim_eq_iff.mpr ⟨[], [], allBlank_nil, allBlank_nil, by simp, h⟩

@[simp] lemma trim_trim (s : String) :
    trim (trim s) = trim s := trim_of_isTrimmed (isTrimmed_trim s)

/-- The end may be trimmed before. -/
@[simp] lemma trim_trimEnd (s : String) : trim (trimEnd s) = trim s := by
  obtain ⟨end_, hend, hs, -⟩ := trimEnd_eq_iff.mp (rfl : trimEnd s = trimEnd s)
  obtain ⟨ws, ws', hws, hws', htext, htrimmed⟩ :=
    trim_eq_iff.mp (rfl : trim (trimEnd s) = trim (trimEnd s))
  symm
  refine trim_eq_iff.mpr ⟨ws, ws' ++ end_, hws, hws'.append hend, ?_, htrimmed⟩
  rw [hs, htext]
  simp

/-! ### Cutting -/

/-- A text is cut at the first character of a kind. -/
lemma cutAt_eq_some_iff {front back : List Char} : cutAt p cs = some (front, back) ↔
    ∃ c, cs = front ++ c :: back ∧ p c = true ∧ ∀ x ∈ front, p x = false := by
  induction cs generalizing front with
  | nil => simp [cutAt]
  | cons d cs ih =>
    rw [cutAt]
    by_cases hd : p d = true
    · rw [if_pos hd]
      constructor
      · rintro ⟨⟩
        exact ⟨d, rfl, hd, fun x hx => absurd hx List.not_mem_nil⟩
      · rintro ⟨c, heq, hc, hfront⟩
        cases front with
        | nil =>
          cases heq
          rfl
        | cons x front =>
          cases heq
          rw [hfront d List.mem_cons_self] at hd
          cases hd
    · rw [if_neg hd]
      constructor
      · intro h
        obtain ⟨⟨front', back'⟩, hcut, heq⟩ := Option.map_eq_some_iff.mp h
        cases heq
        obtain ⟨c, rfl, hc, hfront⟩ := ih.mp hcut
        exact ⟨c, rfl, hc, List.forall_mem_cons.mpr ⟨by simpa using hd, hfront⟩⟩
      · rintro ⟨c, heq, hc, hfront⟩
        cases front with
        | nil =>
          cases heq
          exact absurd hc hd
        | cons x front =>
          cases heq
          rw [ih.mpr ⟨c, rfl, hc, fun y hy => hfront y (List.mem_cons_of_mem _ hy)⟩]
          rfl

/-- A text without a character of the kind is not cut. -/
lemma cutAt_eq_none_iff : cutAt p cs = none ↔ ∀ x ∈ cs, p x = false := by
  induction cs with
  | nil => simp [cutAt]
  | cons d cs ih =>
    rw [cutAt]
    by_cases hd : p d = true
    · simp [hd]
    · rw [if_neg hd, Option.map_eq_none_iff, ih, List.forall_mem_cons]
      simp [hd]

end Recital.Text

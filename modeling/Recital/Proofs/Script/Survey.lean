import Recital.Proofs.Json.Number
import Recital.Proofs.Script.Labels
import Mathlib.Data.List.Induction
import Mathlib.Order.Bounds.Basic

/-!
# What a survey reports

A survey passes over the lines of a script once and keeps only the table of the labels that it has
met.  Its report is compared here with a description that does not pass over anything:
`Script.Carries` says which lines carry a label, and `Script.Suffers` which defects a script has, a
repeated label with the least line that carries it.

The comparison goes from the first lines of a script to one line more.  What the survey notes at a
line is `Survey.blame?`, which depends on the labels before it; what a script suffers at a line
depends on the lines up to there.  The two agree, hence the defects come in the order of their
lines, one for each line that offends.

The fault of a report numbers the defects.  Different numbers have different texts, so no entry of
the fault takes the place of another.
-/

namespace Recital

/-! ### Defects of a script -/

namespace Script

/-- The line with an index carries a label. -/
def Carries (lines : List Line) (index : Nat) (label : String) : Prop :=
  ∃ line, lines[index]? = some line ∧ line.label? = some label

/-- What is wrong with a script. -/
inductive Suffers (lines : List Line) : Defect → Prop
  /-- A label has no name. -/
  | unnamed {index : Nat} : Carries lines index "" → Suffers lines (.emptyLabel index)
  /-- A label has a name that a line before it carries. -/
  | repeated {label : String} {first index : Nat} : label ≠ "" →
      IsLeast {j | Carries lines j label} first → first < index → Carries lines index label →
      Suffers lines (.duplicateLabel label first index)
  /-- A command line has found no command. -/
  | unresolved {text : String} {index : Nat} : lines[index]? = some (.command text none) →
      Suffers lines (.missingCommand index text)

/-- The line with an index offends: its label has no name or occurs before it, or it has found no
command. -/
def Offends (lines : List Line) (index : Nat) : Prop :=
  Carries lines index "" ∨
    (∃ label, Carries lines index label ∧ ∃ j < index, Carries lines j label) ∨
    ∃ text, lines[index]? = some (.command text none)

variable {lines other : List Line} {label : String} {index i : Nat} {d : Defect}

lemma Carries.lt_length (h : Carries lines index label) : index < lines.length := by
  obtain ⟨line, hline, -⟩ := h
  exact (List.getElem?_eq_some_iff.mp hline).1

/-- What a line carries depends on that line only. -/
lemma Carries.congr (hsame : lines[index]? = other[index]?) (h : Carries lines index label) :
    Carries other index label := by
  obtain ⟨line, hline, hlabel⟩ := h
  exact ⟨line, hsame.symm.trans hline, hlabel⟩

lemma carries_concat (line : Line) :
    Carries (lines ++ [line]) lines.length label ↔ line.label? = some label := by
  simp [Carries]

/-- The least line that carries a label is the first that is found. -/
lemma isLeast_carries_iff :
    IsLeast {j | Carries lines j label} i ↔ lines.findIdx? (·.label? = some label) = some i := by
  rw [List.findIdx?_eq_some_iff_getElem]
  constructor
  · rintro ⟨⟨line, hline, hlabel⟩, hleast⟩
    obtain ⟨hlt, rfl⟩ := List.getElem?_eq_some_iff.mp hline
    refine ⟨hlt, by simpa using hlabel, fun j hj => ?_⟩
    have hnot : ¬ Carries lines j label := fun h => absurd (hleast h) (by omega)
    rw [decide_eq_true_eq]
    exact fun h => hnot ⟨_, List.getElem?_eq_getElem _, h⟩
  · rintro ⟨hlt, hlabel, hfirst⟩
    refine ⟨⟨_, List.getElem?_eq_getElem hlt, by simpa using hlabel⟩, fun j hj => ?_⟩
    by_contra hji
    obtain ⟨line, hline, hcarried⟩ := hj
    obtain ⟨hlt', rfl⟩ := List.getElem?_eq_some_iff.mp hline
    exact hfirst j (by omega) (by simpa using hcarried)

/-- If some line carries a label, one does so first. -/
lemma Carries.exists_isLeast (h : Carries lines index label) :
    ∃ first, IsLeast {j | Carries lines j label} first ∧ first ≤ index := by
  classical
  have hsome : ∃ j, Carries lines j label := ⟨index, h⟩
  exact ⟨Nat.find hsome, ⟨Nat.find_spec hsome, fun _ hj => Nat.find_min' hsome hj⟩,
    Nat.find_min' hsome h⟩

lemma Suffers.lt_length (h : Suffers lines d) : d.line < lines.length := by
  cases h with
  | unnamed h => exact h.lt_length
  | repeated _ _ _ h => exact h.lt_length
  | unresolved h => exact (List.getElem?_eq_some_iff.mp h).1

/-- The least line that carries a label depends on the lines up to it only. -/
lemma isLeast_carries_congr (hsame : ∀ j ≤ i, lines[j]? = other[j]?)
    (h : IsLeast {j | Carries lines j label} i) : IsLeast {j | Carries other j label} i := by
  obtain ⟨hi, hleast⟩ := h
  refine ⟨Carries.congr (hsame i le_rfl) hi, fun j hj => ?_⟩
  by_contra hlt
  exact hlt (hleast (Carries.congr (hsame j (by omega)).symm hj))

lemma isLeast_carries_append (more : List Line) (h : i < lines.length) :
    IsLeast {j | Carries (lines ++ more) j label} i ↔ IsLeast {j | Carries lines j label} i :=
  ⟨isLeast_carries_congr fun _ hj => List.getElem?_append_left (hj.trans_lt h),
    isLeast_carries_congr fun _ hj => (List.getElem?_append_left (hj.trans_lt h)).symm⟩

/-- A defect depends on the lines up to it only. -/
lemma Suffers.congr (hsame : ∀ j ≤ d.line, lines[j]? = other[j]?) (h : Suffers lines d) :
    Suffers other d := by
  cases h with
  | unnamed hcarries => exact .unnamed (hcarries.congr (hsame _ le_rfl))
  | repeated hname hleast hlt hcarries =>
    exact .repeated hname
      (isLeast_carries_congr (fun j hj => hsame j (hj.trans hlt.le)) hleast) hlt
      (hcarries.congr (hsame _ le_rfl))
  | unresolved hline => exact .unresolved ((hsame _ le_rfl).symm.trans hline)

lemma suffers_append (more : List Line) (h : d.line < lines.length) :
    Suffers (lines ++ more) d ↔ Suffers lines d :=
  ⟨Suffers.congr fun _ hj => List.getElem?_append_left (hj.trans_lt h),
    Suffers.congr fun _ hj => (List.getElem?_append_left (hj.trans_lt h)).symm⟩

/-- A line offends if it is the line of a defect. -/
lemma offends_iff : Offends lines index ↔ ∃ d, Suffers lines d ∧ d.line = index := by
  constructor
  · rintro (hempty | ⟨label, hcarries, j, hlt, hj⟩ | ⟨text, hline⟩)
    · exact ⟨_, .unnamed hempty, rfl⟩
    · by_cases hname : label = ""
      · exact ⟨_, .unnamed (hname ▸ hcarries), rfl⟩
      · obtain ⟨first, hfirst, hle⟩ := hj.exists_isLeast
        exact ⟨_, .repeated hname hfirst (hle.trans_lt hlt) hcarries, rfl⟩
    · exact ⟨_, .unresolved hline, rfl⟩
  · rintro ⟨d, hd, rfl⟩
    cases hd with
    | unnamed hcarries => exact .inl hcarries
    | repeated _ hleast hlt hcarries => exact .inr (.inl ⟨_, hcarries, _, hlt, hleast.1⟩)
    | unresolved hline => exact .inr (.inr ⟨_, hline⟩)

end Script

/-! ### What is noted at a line -/

namespace Survey

open Script

/-- The defect that is noted at a line, if there is one. -/
def blame? (s : Survey) (index : Nat) : Line → Option Defect
  | .command text none => some (.missingCommand index text)
  | .command _ (some _) => none
  | .text source => match (Line.text source).label? with
    | none => none
    | some name =>
      if name.isEmpty then some (.emptyLabel index)
      else (s.labels.get? name).map (.duplicateLabel name · index)

/-- What is noted at a line with a label. -/
lemma blame?_of_label? {line : Line} {name : String} (s : Survey) (index : Nat)
    (h : line.label? = some name) :
    s.blame? index line = if name = "" then some (.emptyLabel index)
      else (s.labels.get? name).map (.duplicateLabel name · index) := by
  cases line with
  | command text command => cases h
  | text source => simp [blame?, h]

/-- A visit notes at most one defect, behind those that are noted already. -/
lemma defects_visit (s : Survey) (index : Nat) (line : Line) :
    (s.visit index line).defects = s.defects ++ (s.blame? index line).toList := by
  cases line with
  | command text command =>
    cases command with
    | none => rfl
    | some command => exact (List.append_nil _).symm
  | text source =>
    cases hlabel : (Line.text source).label? with
    | none => simp [visit, blame?, hlabel]
    | some name =>
      by_cases hempty : name = ""
      · simp [visit, blame?, hlabel, hempty]
      · cases hfirst : s.labels.get? name with
        | none => simp [visit, blame?, hlabel, hempty, hfirst]
        | some first => simp [visit, blame?, hlabel, hempty, hfirst]

lemma visitAll_concat (s : Survey) (index : Nat) (lines : List Line) (line : Line) :
    s.visitAll index (lines ++ [line]) =
      (s.visitAll index lines).visit (index + lines.length) line := by
  induction lines generalizing s index with
  | nil => rfl
  | cons head rest ih =>
    rw [List.cons_append, visitAll, ih, visitAll, List.length_cons, Nat.add_right_comm,
      Nat.add_assoc]

/-- The table of a survey holds the least line of each label that has a name. -/
lemma labels_visitAll (lines : List Line) (name : String) (i : Nat) :
    (visitAll {} 0 lines).labels.get? name = some i ↔
      name ≠ "" ∧ IsLeast {j | Carries lines j name} i := by
  by_cases hname : name = ""
  · have hnone : (visitAll {} 0 lines).labels.get? "" = none := get?_visitAll_empty {} 0 lines rfl
    simp [hname, hnone]
  · have hsurvey : (visitAll {} 0 lines).labels.get? name = lines.findIdx? (·.label? = some name) :=
      get?_survey (s := ⟨"", lines⟩) hname
    rw [hsurvey, isLeast_carries_iff]
    exact (and_iff_right hname).symm

/-- What is noted at a line is a defect of the script, at that line. -/
lemma suffers_of_blame? {lines : List Line} {line : Line} {d : Defect}
    (h : (visitAll {} 0 lines).blame? lines.length line = some d) :
    Suffers (lines ++ [line]) d ∧ d.line = lines.length := by
  cases hlabel : line.label? with
  | none =>
    cases line with
    | command text command =>
      cases command with
      | none =>
        obtain rfl : Defect.missingCommand lines.length text = d := Option.some_inj.mp h
        exact ⟨.unresolved (by simp), rfl⟩
      | some command => cases h
    | text source =>
      simp only [blame?, hlabel] at h
      cases h
  | some name =>
    have hcarries : Carries (lines ++ [line]) lines.length name := (carries_concat line).mpr hlabel
    rw [blame?_of_label? _ _ hlabel] at h
    split at h
    · next hempty =>
      obtain rfl : Defect.emptyLabel lines.length = d := Option.some_inj.mp h
      exact ⟨.unnamed (hempty ▸ hcarries), rfl⟩
    · obtain ⟨first, hfirst, rfl⟩ := Option.map_eq_some_iff.mp h
      obtain ⟨hname, hleast⟩ := (labels_visitAll lines name first).mp hfirst
      have hlt : first < lines.length := hleast.1.lt_length
      exact ⟨.repeated hname ((isLeast_carries_append _ hlt).mpr hleast) hlt hcarries, rfl⟩

/-- What a script suffers at its last line is noted there. -/
lemma blame?_of_suffers {lines : List Line} {line : Line} {d : Defect}
    (h : Suffers (lines ++ [line]) d) (hline : d.line = lines.length) :
    (visitAll {} 0 lines).blame? lines.length line = some d := by
  cases h with
  | @unnamed index hcarries =>
    obtain rfl : index = lines.length := hline
    rw [blame?_of_label? _ _ ((carries_concat line).mp hcarries), if_pos rfl]
  | @repeated name first index hname hleast hlt hcarries =>
    obtain rfl : index = lines.length := hline
    have hfirst : (visitAll {} 0 lines).labels.get? name = some first :=
      (labels_visitAll lines name first).mpr ⟨hname, (isLeast_carries_append _ hlt).mp hleast⟩
    rw [blame?_of_label? _ _ ((carries_concat line).mp hcarries), if_neg hname, hfirst,
      Option.map_some]
  | @unresolved text index hcommand =>
    obtain rfl : index = lines.length := hline
    rw [List.getElem?_concat_length] at hcommand
    obtain rfl := Option.some.inj hcommand
    rfl

/-- What is noted at a line is what a script suffers at it. -/
lemma blame?_eq_some_iff (lines : List Line) (line : Line) (d : Defect) :
    (visitAll {} 0 lines).blame? lines.length line = some d ↔
      Suffers (lines ++ [line]) d ∧ d.line = lines.length :=
  ⟨suffers_of_blame?, fun h => blame?_of_suffers h.1 h.2⟩

/-- The survey of some lines tells what they suffer, in the order of the lines. -/
structure Tells (s : Survey) (lines : List Line) : Prop where
  /-- The defects come in the order of their lines, no two at one line. -/
  ordered : s.defects.Pairwise (·.line < ·.line)
  /-- The defects are those that the lines suffer. -/
  mem_iff : ∀ d, d ∈ s.defects ↔ Suffers lines d

/-- One line more is told of as well. -/
lemma Tells.visit {lines : List Line} (h : (visitAll {} 0 lines).Tells lines) (line : Line) :
    ((visitAll {} 0 lines).visit lines.length line).Tells (lines ++ [line]) where
  ordered := by
    rw [defects_visit, List.pairwise_append]
    refine ⟨h.ordered, ?_, fun d hd d' hd' => ?_⟩
    · cases (visitAll {} 0 lines).blame? lines.length line with
      | none => exact List.Pairwise.nil
      | some d => exact List.pairwise_singleton _ d
    · have hline : d'.line = lines.length :=
        ((blame?_eq_some_iff lines line d').mp (Option.mem_toList.mp hd')).2
      exact hline ▸ ((h.mem_iff d).mp hd).lt_length
  mem_iff d := by
    rw [defects_visit, List.mem_append, h.mem_iff, Option.mem_toList, blame?_eq_some_iff]
    constructor
    · rintro (hd | ⟨hd, -⟩)
      · exact (suffers_append [line] hd.lt_length).mpr hd
      · exact hd
    · intro hd
      have hlt := hd.lt_length
      rw [List.length_append, List.length_singleton] at hlt
      rcases Nat.lt_succ_iff_lt_or_eq.mp hlt with hbefore | hhere
      · exact .inl ((suffers_append [line] hbefore).mp hd)
      · exact .inr ⟨hd, hhere⟩

/-- A survey tells of all lines. -/
lemma tells_visitAll (lines : List Line) : (visitAll {} 0 lines).Tells lines := by
  induction lines using List.reverseRecOn with
  | nil =>
    have hnone : ∀ d, ¬ Suffers [] d := fun d hd => Nat.not_lt_zero _ hd.lt_length
    exact ⟨List.Pairwise.nil, fun d => by simp [visitAll, hnone d]⟩
  | append_singleton lines line ih =>
    rw [visitAll_concat, Nat.zero_add]
    exact ih.visit line

/-! ### The fault of a report -/

/-- The key of an entry. -/
def entryKey (j : Nat) : String := "error." ++ Text.ofNat j

lemma entryKey_injective : Function.Injective entryKey := by
  intro i j h
  have htext : Text.ofNat i = Text.ofNat j := by
    have hlists := congrArg String.toList h
    simp only [entryKey, String.toList_append, List.append_cancel_left_eq] at hlists
    exact String.toList_injective hlists
  have hdigits : Text.decimalDigits i = Text.decimalDigits j := String.ofList_injective htext
  rw [← Json.digitsValue_decimalDigits i, hdigits, Json.digitsValue_decimalDigits]

/-- A fault with an entry for each of some defects, which are numbered from an index on. -/
def itemize (f : Fault) (defects : List Defect) (start : Nat) : Fault :=
  (defects.zipIdx start).foldl (fun f (d, j) => f.withContext (entryKey j) d.message) f

section Itemize

variable (f : Fault) (d : Defect) (defects : List Defect) (start : Nat)

lemma itemize_cons :
    itemize f (d :: defects) start =
      itemize (f.withContext (entryKey start) d.message) defects (start + 1) := rfl

/-- Where a fault is does not change by its entries. -/
lemma place_itemize :
    (itemize f defects start).lineIndex = f.lineIndex ∧
      (itemize f defects start).scriptName = f.scriptName := by
  induction defects generalizing f start with
  | nil => exact ⟨rfl, rfl⟩
  | cons d defects ih => exact ih (f.withContext (entryKey start) d.message) (start + 1)

/-- Under a key that is none of the numbered ones nothing is entered. -/
lemma get?_itemize_of_ne {key : String} (h : ∀ j < defects.length, key ≠ entryKey (start + j)) :
    (itemize f defects start).context.get? key = f.context.get? key := by
  induction defects generalizing f start with
  | nil => rfl
  | cons d defects ih =>
    have hhead : key ≠ entryKey start := h 0 (by simp)
    have htail : ∀ j < defects.length, key ≠ entryKey (start + 1 + j) := fun j hj => by
      have hnext := h (j + 1) (by simpa using hj)
      rwa [← Nat.add_assoc, Nat.add_right_comm] at hnext
    rw [itemize_cons, ih _ _ htail, Fault.withContext, Table.get?_insert, if_neg hhead]

/-- No entry takes the place of another. -/
lemma get?_itemize {j : Nat} (h : defects[j]? = some d) :
    (itemize f defects start).context.get? (entryKey (start + j)) = some d.message := by
  induction defects generalizing f start j with
  | nil => simp at h
  | cons head defects ih =>
    rw [itemize_cons]
    cases j with
    | zero =>
      obtain rfl : head = d := by simpa using h
      rw [get?_itemize_of_ne _ _ _ fun j _ hkey => ?_, Fault.withContext, Table.get?_insert]
      · simp
      · have := entryKey_injective hkey
        omega
    | succ j =>
      have hnext : start + (j + 1) = start + 1 + j := by omega
      rw [hnext]
      exact ih _ _ (by simpa using h)

/-- There is an entry for each defect. -/
lemma size_itemize (h : ∀ j, start ≤ j → f.context.get? (entryKey j) = none) :
    (itemize f defects start).context.size = f.context.size + defects.length := by
  induction defects generalizing f start with
  | nil => rfl
  | cons d defects ih =>
    have hnone : f.context.get? (entryKey start) = none := h start le_rfl
    have hnext : ∀ j, start + 1 ≤ j →
        (f.withContext (entryKey start) d.message).context.get? (entryKey j) = none := by
      intro j hj
      have hne : entryKey j ≠ entryKey start := fun hkey => by
        have := entryKey_injective hkey
        omega
      rw [Fault.withContext, Table.get?_insert, if_neg hne]
      exact h j (by omega)
    rw [itemize_cons, ih _ _ hnext, Fault.withContext, Table.size_insert hnone, List.length_cons]
    omega

end Itemize

/-- A survey has a fault if it has a defect. -/
lemma fault?_eq_none_iff (s : Survey) (title : String) :
    s.fault? title = none ↔ s.defects = [] := by
  unfold fault?
  split
  · next hnil => simp [hnil]
  · next hcons => simp [hcons]

/-- The fault of a survey is where its first defect is, and has an entry for each of them. -/
lemma fault?_spec {s : Survey} {title : String} {f : Fault} (h : s.fault? title = some f) :
    f.scriptName = some title ∧ f.lineIndex = s.defects.head?.map Defect.line ∧
      f.context.size = s.defects.length ∧
      ∀ key value, f.context.get? key = some value ↔
        ∃ j d, s.defects[j]? = some d ∧ key = entryKey j ∧ value = d.message := by
  unfold fault? at h
  split at h
  · cases h
  next first rest hdefects =>
  obtain ⟨fault, hfault⟩ : ∃ fault : Fault, fault =
      { Fault.validation
          ("preprocessing found " ++ Text.ofNat s.defects.length ++ " error(s), first: " ++
            first.message) with
        lineIndex := some first.line
        scriptName := some title
        suggestion := "fix the script and play it again" } := ⟨_, rfl⟩
  have hempty : fault.context = ∅ := by rw [hfault]; rfl
  obtain rfl : itemize fault s.defects 0 = f := by
    rw [hfault]
    exact Option.some_inj.mp h
  obtain ⟨hindex, hname⟩ := place_itemize fault s.defects 0
  refine ⟨by rw [hname, hfault], by rw [hindex, hfault, hdefects]; rfl, ?_, fun key value => ?_⟩
  · rw [size_itemize _ _ _ fun j _ => by rw [hempty]; rfl, hempty]
    exact Nat.zero_add _
  · constructor
    · intro hget
      by_cases hkey : ∃ j < s.defects.length, key = entryKey (0 + j)
      · obtain ⟨j, hj, rfl⟩ := hkey
        rw [get?_itemize _ _ _ _ (List.getElem?_eq_getElem hj)] at hget
        exact ⟨j, _, List.getElem?_eq_getElem hj, by rw [Nat.zero_add],
          (Option.some_inj.mp hget).symm⟩
      · rw [get?_itemize_of_ne _ _ _ fun j hj h => hkey ⟨j, hj, h⟩, hempty] at hget
        cases hget
    · rintro ⟨j, d, hd, rfl, rfl⟩
      rw [← Nat.zero_add j]
      exact get?_itemize _ _ _ _ hd

end Survey

open Survey

/-- Of a script the survey finds exactly the labels that have a name, each at its least line, and
exactly the defects, one for each line that offends and in the order of the lines.  There is a fault
if there is a defect; it is at the least line that offends, and it tells each defect in an entry of
its own. -/
theorem Script.survey_reports (s : Script) (title : String) :
    (∀ name i, s.survey.labels.get? name = some i ↔
      name ≠ "" ∧ IsLeast {j | Carries s.lines j name} i) ∧
    (∀ d, d ∈ s.survey.defects ↔ Suffers s.lines d) ∧
    (s.survey.defects.map Defect.line).Pairwise (· < ·) ∧
    (∀ i, i ∈ s.survey.defects.map Defect.line ↔ Offends s.lines i) ∧
    (s.survey.fault? title = none ↔ s.survey.defects = []) ∧
    ∀ f ∈ s.survey.fault? title,
      f.scriptName = some title ∧
      (∃ i, f.lineIndex = some i ∧ IsLeast {j | Offends s.lines j} i) ∧
      f.context.size = s.survey.defects.length ∧
      ∀ key value, f.context.get? key = some value ↔
        ∃ j d, s.survey.defects[j]? = some d ∧ key = "error." ++ Text.ofNat j ∧
          value = d.message := by
  have htells : s.survey.Tells s.lines := tells_visitAll s.lines
  have hlines : ∀ i, i ∈ s.survey.defects.map Defect.line ↔ Offends s.lines i := fun i => by
    rw [offends_iff, List.mem_map]
    exact exists_congr fun d => and_congr_left' (htells.mem_iff d)
  have hordered : (s.survey.defects.map Defect.line).Pairwise (· < ·) :=
    List.pairwise_map.mpr htells.ordered
  refine ⟨labels_visitAll s.lines, htells.mem_iff, hordered, hlines, fault?_eq_none_iff _ _,
    fun f hf => ?_⟩
  obtain ⟨hname, hindex, hsize, hentries⟩ := fault?_spec hf
  refine ⟨hname, ?_, hsize, hentries⟩
  cases hdefects : s.survey.defects with
  | nil =>
    rw [Option.mem_def, (fault?_eq_none_iff _ _).mpr hdefects] at hf
    cases hf
  | cons first rest =>
    rw [hdefects, List.head?_cons, Option.map_some] at hindex
    rw [hdefects, List.map_cons] at hlines hordered
    refine ⟨first.line, hindex, (hlines _).mp List.mem_cons_self, fun j hj => ?_⟩
    rcases List.mem_cons.mp ((hlines j).mpr hj) with rfl | hrest
    · exact le_rfl
    · exact ((List.pairwise_cons.mp hordered).1 j hrest).le

/-- A script with a label, an unknown command, a label without a name and the label again. -/
def Script.crowded : Script :=
  ⟨"crowded", [.text "#a", .command "@dance" none, .text "#", .text "# a"]⟩

/-- A script with three defects is refused at the first of them, and the last is told under its own
number. -/
theorem Script.crowded_is_refused :
    ∃ f ∈ crowded.survey.fault? "crowded",
      f.lineIndex = some 1 ∧ IsLeast {j | Offends crowded.lines j} 1 ∧
      f.context.size = 3 ∧
      f.context.get? "error.2" = some "line 3: label 'a' is already defined on line 0" := by
  have hdefects : crowded.survey.defects =
      [.missingCommand 1 "@dance", .emptyLabel 2, .duplicateLabel "a" 0 3] := by decide
  obtain ⟨-, -, -, -, hnone, hfault⟩ := survey_reports crowded "crowded"
  obtain ⟨f, hf⟩ := Option.ne_none_iff_exists'.mp (mt hnone.mp (by simp [hdefects]))
  obtain ⟨-, ⟨i, hi, hleast⟩, hsize, hentries⟩ := hfault f hf
  have hone : i = 1 := by
    have hindex := (fault?_spec hf).2.1
    rw [hdefects] at hindex
    exact Option.some_inj.mp (hi.symm.trans hindex)
  have hlast : crowded.survey.defects[2]? = some (.duplicateLabel "a" 0 3) := by rw [hdefects]; rfl
  rw [hdefects] at hsize
  exact ⟨f, hf, hone ▸ hi, hone ▸ hleast, hsize,
    (hentries _ _).mpr ⟨2, _, hlast, by decide, by decide⟩⟩

end Recital

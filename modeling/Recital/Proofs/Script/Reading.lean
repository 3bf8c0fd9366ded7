import Recital.Script.Parser
import Recital.Proofs.Script.Labels
import Recital.Proofs.Text.Blank
import Mathlib.Data.List.Forall2

/-!
# How scripts are read

A line whose first character that is not blank is the marker is a command line.  The keyword stands
directly behind the marker and ends at the first blank; the arguments are what follows, without the
blanks around it (`Parser.Invokes`).  Blanks at the end of a line make no difference.

A script is read line by line.  Each line gives one line of the script, and the first one that is
not well formed is reported (`Parser.parse_eq_ok_iff`, `Parser.parse_eq_error_iff`).
-/

namespace Recital.Parser

open Text

variable {p : Parser} {raw keyword args name source : String} {s : Script} {e : LoadError}

/-! ### Command lines -/

/-- The first character of a line that is not blank is the marker. -/
def IsMarked (raw : String) : Prop := raw.toList.find? (!isBlank ·) = some '@'

instance (raw : String) : Decidable (IsMarked raw) :=
  inferInstanceAs (Decidable (raw.toList.find? (!isBlank ·) = some '@'))

/-- A line has a keyword behind the marker, and arguments behind the keyword. -/
def Invokes (raw keyword args : String) : Prop :=
  ∃ before after, AllBlank before ∧ raw.toList = before ++ '@' :: (keyword.toList ++ after) ∧
    hasBlank keyword = false ∧ (∀ c, after.head? = some c → isBlank c = true) ∧
    args = trim (String.ofList after)

lemma isMarked_iff : IsMarked raw ↔
    ∃ before rest, AllBlank before ∧ raw.toList = before ++ '@' :: rest := by
  unfold IsMarked
  rw [List.find?_eq_some_iff_append]
  constructor
  · rintro ⟨-, before, rest, htext, hbefore⟩
    exact ⟨before, rest, fun c hc => by simpa using hbefore c hc, htext⟩
  · rintro ⟨before, rest, hbefore, htext⟩
    exact ⟨rfl, before, rest, htext, fun c hc => by simpa using hbefore c hc⟩

/-- Every marked line has a keyword and arguments, if only empty ones. -/
lemma exists_invokes (h : IsMarked raw) : ∃ keyword args, Invokes raw keyword args := by
  obtain ⟨before, rest, hbefore, htext⟩ := isMarked_iff.mp h
  refine ⟨String.ofList (rest.takeWhile (!isBlank ·)), _, before, rest.dropWhile (!isBlank ·),
    hbefore, ?_, ?_, fun c hc => ?_, rfl⟩
  · rw [String.toList_ofList, List.takeWhile_append_dropWhile]
    exact htext
  · rw [hasBlank_eq_false_iff, String.toList_ofList]
    exact fun c hc => by simpa using List.mem_takeWhile_imp hc
  · have hhead := List.head?_dropWhile_not (!isBlank ·) rest
    simpa [hc] using hhead

/-- The keyword and the arguments of a line are found behind the marker. -/
lemma splitCommand_of_blank {after : List Char} (hkeyword : hasBlank keyword = false)
    (hafter : ∀ c, after.head? = some c → isBlank c = true) :
    splitCommand (keyword.toList ++ after) = (keyword, trim (String.ofList after)) := by
  rw [hasBlank_eq_false_iff] at hkeyword
  unfold splitCommand
  cases after with
  | nil =>
    rw [List.append_nil, cutAt_eq_none_iff.mpr hkeyword, String.ofList_toList]
    rfl
  | cons c after =>
    have hc : isBlank c = true := hafter c rfl
    have hblank : trim (String.ofList after) = trim (String.ofList (c :: after)) := by
      unfold trim
      rw [String.toList_ofList, String.toList_ofList, dropBlanks, dropBlanks,
        List.dropWhile_cons_of_pos hc]
    rw [cutAt_eq_some_iff.mpr ⟨c, rfl, hc, hkeyword⟩]
    simp only [String.ofList_toList, hblank]

/-- What is read of a line with a keyword and arguments. -/
lemma parseLine_of_invokes (h : Invokes raw keyword args) : p.parseLine raw =
    match p.factories.get? keyword with
    | none => .ok (.command (trimEnd raw) none)
    | some factory => match factory args with
      | .ok command => .ok (.command (trimEnd raw) (some command))
      | .error e => .error ("@" ++ keyword ++ ": " ++ e.message) := by
  obtain ⟨before, after, hbefore, htext, hkeyword, hafter, rfl⟩ := h
  obtain ⟨ws, hws, hrest, hlast⟩ :=
    dropBlanksEnd_eq_iff.mp (rfl : dropBlanksEnd after = dropBlanksEnd after)
  obtain ⟨rest, hdrop⟩ : ∃ rest, rest = dropBlanksEnd after := ⟨_, rfl⟩
  rw [← hdrop] at hrest hlast
  have hhead : ∀ c, rest.head? = some c → isBlank c = true := fun c hc =>
    hafter c (by rw [hrest, List.head?_append, hc, Option.some_or])
  have hbody : dropBlanks (trimEnd raw).toList = '@' :: (keyword.toList ++ rest) := by
    refine dropBlanks_eq_iff.mpr ⟨before, hbefore, ?_, fun c hc => by cases hc; rfl⟩
    rw [trimEnd, String.toList_ofList]
    refine dropBlanksEnd_eq_iff.mpr ⟨ws, hws, by rw [htext, hrest]; simp, fun c hc => ?_⟩
    -- the last character is the last one of the arguments, of the keyword, or the marker
    rw [List.getLast?_append_of_ne_nil _ (List.cons_ne_nil _ _), List.getLast?_cons] at hc
    cases rest with
    | nil =>
      rw [List.append_nil] at hc
      cases hchars : keyword.toList.getLast? with
      | none =>
        rw [hchars] at hc
        cases hc
        rfl
      | some d =>
        rw [hchars] at hc
        cases hc
        exact hasBlank_eq_false_iff.mp hkeyword _ (List.mem_of_getLast? hchars)
    | cons d rest =>
      rw [List.getLast?_append_of_ne_nil _ (List.cons_ne_nil _ _), List.getLast?_cons] at hc
      refine hlast c ?_
      rw [List.getLast?_cons]
      simpa using hc
  have hargs : trim (String.ofList rest) = trim (String.ofList after) := by
    rw [← trim_trimEnd (String.ofList after), trimEnd, String.toList_ofList, hdrop]
  have hsplit := splitCommand_of_blank hkeyword hhead
  rw [hargs] at hsplit
  unfold parseLine
  cases hfactory : p.factories.get? keyword with
  | none => simp only [hbody, hsplit, hfactory]
  | some factory =>
    cases hread : factory (trim (String.ofList after)) <;>
      simp only [hbody, hsplit, hfactory, hread]

/-- Any other line is a text line. -/
lemma parseLine_of_not_isMarked (h : ¬ IsMarked raw) :
    p.parseLine raw = .ok (.text (trimEnd raw)) := by
  unfold parseLine
  dsimp only
  split
  · next body hbody =>
    refine absurd (isMarked_iff.mpr ?_) h
    obtain ⟨before, hbefore, htext, -⟩ := dropBlanks_eq_iff.mp hbody
    obtain ⟨ws, -, hraw, -⟩ := trimEnd_eq_iff.mp (rfl : trimEnd raw = trimEnd raw)
    exact ⟨before, body ++ ws, hbefore, by rw [hraw, htext]; simp⟩
  · rfl

/-- Blanks at the end of a line make no difference. -/
@[simp] lemma parseLine_trimEnd (p : Parser) (raw : String) :
    p.parseLine (trimEnd raw) = p.parseLine raw := by
  unfold parseLine
  rw [trimEnd_trimEnd]

/-- A line keeps its text but for blanks at the end, and is a command line if it is marked. -/
lemma source_of_parseLine {line : Line} (h : p.parseLine raw = .ok line) :
    line.source = trimEnd raw ∧ (IsMarked raw ↔ ∃ command,
      line = .command (trimEnd raw) command) := by
  by_cases hmarked : IsMarked raw
  · obtain ⟨keyword, args, hinvokes⟩ := exists_invokes hmarked
    rw [parseLine_of_invokes hinvokes] at h
    split at h
    · cases h
      exact ⟨rfl, fun _ => ⟨_, rfl⟩, fun _ => hmarked⟩
    · split at h
      · cases h
        exact ⟨rfl, fun _ => ⟨_, rfl⟩, fun _ => hmarked⟩
      · cases h
  · rw [parseLine_of_not_isMarked hmarked] at h
    cases h
    exact ⟨rfl, fun hmark => absurd hmark hmarked, fun ⟨_, heq⟩ => by cases heq⟩

/-! ### Keywords -/

/-- What is registered under other keywords does not matter. -/
lemma get?_foldl_register_of_notMem {entries : List (String × Factory)}
    (h : keyword ∉ entries.map Prod.fst) :
    (entries.foldl (fun p e => p.register e.1 e.2) p).factories.get? keyword =
      p.factories.get? keyword := by
  induction entries generalizing p with
  | nil => rfl
  | cons entry entries ih =>
    rw [List.map_cons, List.mem_cons, not_or] at h
    rw [List.foldl_cons, ih h.2, register, Table.get?_insert, if_neg h.1]

/-- Of keywords that are registered once each, every one stands for what it was registered with. -/
lemma get?_foldl_register_of_mem {entries : List (String × Factory)} {factory : Factory}
    (hnodup : (entries.map Prod.fst).Nodup) (h : (keyword, factory) ∈ entries) :
    (entries.foldl (fun p e => p.register e.1 e.2) p).factories.get? keyword = some factory := by
  induction entries generalizing p with
  | nil => cases h
  | cons entry entries ih =>
    rw [List.map_cons, List.nodup_cons] at hnodup
    rw [List.foldl_cons]
    rcases List.mem_cons.mp h with rfl | h
    · rw [get?_foldl_register_of_notMem hnodup.1, register, Table.get?_insert, if_pos rfl]
    · exact ih hnodup.2 h

/-- The standard parser knows the built-in keywords and no others. -/
lemma get?_standard_iff {factory : Factory} :
    standard.factories.get? keyword = some factory ↔ (keyword, factory) ∈ Command.builtins := by
  have hknown : ∀ {factory}, (keyword, factory) ∈ Command.builtins →
      standard.factories.get? keyword = some factory := get?_foldl_register_of_mem (by decide)
  refine ⟨fun h => ?_, hknown⟩
  by_cases hmem : keyword ∈ Command.builtins.map Prod.fst
  · obtain ⟨⟨_, other⟩, hother, rfl⟩ := List.mem_map.mp hmem
    cases h.symm.trans (hknown hother)
    exact hother
  · have hnone : standard.factories.get? keyword = none := get?_foldl_register_of_notMem hmem
    cases h.symm.trans hnone

/-! ### Scripts -/

lemma parseLines_eq_ok_iff {index : Nat} {raws : List String} {lines : List Line} :
    p.parseLines name index raws = .ok lines ↔
      List.Forall₂ (fun raw line => p.parseLine raw = .ok line) raws lines := by
  induction raws generalizing index lines with
  | nil =>
    rw [parseLines, Except.ok.injEq, List.forall₂_nil_left_iff]
    exact eq_comm
  | cons raw raws ih =>
    rw [parseLines, List.forall₂_cons_left_iff]
    cases hline : p.parseLine raw with
    | error message => simp
    | ok line =>
      have hmap : (p.parseLines name (index + 1) raws).map (line :: ·) = .ok lines ↔
          ∃ rest, p.parseLines name (index + 1) raws = .ok rest ∧ lines = line :: rest := by
        cases p.parseLines name (index + 1) raws <;> simp [Except.map, eq_comm]
      rw [hmap]
      simp only [ih]
      constructor
      · rintro ⟨rest, hrest, rfl⟩
        exact ⟨line, rest, rfl, hrest, rfl⟩
      · rintro ⟨other, rest, hother, hrest, rfl⟩
        cases hother
        exact ⟨rest, hrest, rfl⟩

/-- A script is read line by line. -/
theorem parse_eq_ok_iff : p.parse name source = .ok s ↔ s.name = name ∧
    List.Forall₂ (fun raw line => p.parseLine raw = .ok line) (lines source) s.lines := by
  obtain ⟨title, read⟩ := s
  have hread : p.parseLines name 0 (Text.lines source) = .ok read ↔
      List.Forall₂ (fun raw line => p.parseLine raw = .ok line) (Text.lines source) read :=
    parseLines_eq_ok_iff
  rw [← hread]
  unfold parse
  cases p.parseLines name 0 (Text.lines source) <;> simp [Except.map, eq_comm]

/-- Each line of a source text gives the line of the script with its index. -/
lemma exists_line?_of_parse (h : p.parse name source = .ok s) {index : Nat}
    (hraw : (lines source)[index]? = some raw) :
    ∃ line, s.line? index = some line ∧ p.parseLine raw = .ok line := by
  obtain ⟨hlength, hread⟩ := List.forall₂_iff_get.mp (parse_eq_ok_iff.mp h).2
  obtain ⟨hlt, rfl⟩ := List.getElem?_eq_some_iff.mp hraw
  have hlt' : index < s.lines.length := hlength ▸ hlt
  exact ⟨s.lines[index], List.getElem?_eq_getElem hlt', hread index hlt hlt'⟩

/-- Each line of a script was read from the line of the source text with its index. -/
lemma exists_raw_of_line? (h : p.parse name source = .ok s) {index : Nat} {line : Line}
    (hline : s.line? index = some line) :
    ∃ raw, (lines source)[index]? = some raw ∧ p.parseLine raw = .ok line := by
  obtain ⟨hlength, hread⟩ := List.forall₂_iff_get.mp (parse_eq_ok_iff.mp h).2
  obtain ⟨hlt, rfl⟩ := List.getElem?_eq_some_iff.mp hline
  have hlt' : index < (lines source).length := hlength ▸ hlt
  exact ⟨(lines source)[index], List.getElem?_eq_getElem hlt', hread index hlt' hlt⟩

lemma exists_raw_of_mem (h : p.parse name source = .ok s) {line : Line} (hline : line ∈ s.lines) :
    ∃ raw ∈ lines source, p.parseLine raw = .ok line := by
  obtain ⟨index, hlt, rfl⟩ := List.getElem_of_mem hline
  obtain ⟨raw, hraw, hread⟩ := exists_raw_of_line? h (List.getElem?_eq_getElem hlt)
  exact ⟨raw, List.mem_of_getElem? hraw, hread⟩

lemma parseLines_eq_error_iff {index : Nat} {raws : List String} :
    p.parseLines name index raws = .error e ↔ ∃ before raw after message,
      raws = before ++ raw :: after ∧ (∀ r ∈ before, ∃ line, p.parseLine r = .ok line) ∧
        p.parseLine raw = .error message ∧ e = .malformed name (index + before.length) message := by
  induction raws generalizing index with
  | nil => simp [parseLines]
  | cons raw raws ih =>
    rw [parseLines]
    cases hline : p.parseLine raw with
    | error message =>
      constructor
      · rintro ⟨⟩
        exact ⟨[], raw, raws, message, rfl, by simp, hline, rfl⟩
      · rintro ⟨before, raw', after, message', heq, hbefore, hraw, rfl⟩
        cases before with
        | nil =>
          cases heq
          cases hraw.symm.trans hline
          rfl
        | cons first before =>
          cases heq
          obtain ⟨line, hfirst⟩ := hbefore raw List.mem_cons_self
          cases hfirst.symm.trans hline
    | ok line =>
      have hmap : (p.parseLines name (index + 1) raws).map (line :: ·) = .error e ↔
          p.parseLines name (index + 1) raws = .error e := by
        cases p.parseLines name (index + 1) raws <;> simp [Except.map]
      rw [hmap, ih]
      constructor
      · rintro ⟨before, raw', after, message, rfl, hbefore, hraw, rfl⟩
        refine ⟨raw :: before, raw', after, message, rfl,
          List.forall_mem_cons.mpr ⟨⟨line, hline⟩, hbefore⟩, hraw, ?_⟩
        rw [List.length_cons, Nat.add_assoc, Nat.add_comm 1]
      · rintro ⟨before, raw', after, message, heq, hbefore, hraw, rfl⟩
        cases before with
        | nil =>
          cases heq
          cases hraw.symm.trans hline
        | cons first before =>
          cases heq
          refine ⟨before, raw', after, message, rfl, (List.forall_mem_cons.mp hbefore).2, hraw, ?_⟩
          rw [List.length_cons, Nat.add_assoc, Nat.add_comm 1]

/-- The first line that is not well formed is reported. -/
theorem parse_eq_error_iff : p.parse name source = .error e ↔ ∃ before raw after message,
    lines source = before ++ raw :: after ∧ (∀ r ∈ before, ∃ line, p.parseLine r = .ok line) ∧
      p.parseLine raw = .error message ∧ e = .malformed name before.length message := by
  have hmap : p.parse name source = .error e ↔
      p.parseLines name 0 (Text.lines source) = .error e := by
    unfold parse
    cases p.parseLines name 0 (Text.lines source) <;> simp [Except.map]
  rw [hmap, parseLines_eq_error_iff]
  simp only [Nat.zero_add]

end Recital.Parser

import Recital.Proofs.Json.Conformity
import Recital.Proofs.Json.Drafted
import Recital.Proofs.Script.Reading
import Recital.Proofs.Text.Numeral
import Mathlib.Order.Bounds.Basic

/-!
# The grammar of the built-in commands

What the arguments of a built-in keyword denote is said here without reading them
(`Command.Denotes`), and so is which arguments denote nothing (`Command.Refuses`).  The readers of
the arguments decide between the two (`Command.denotes_iff`, `Command.refuses_iff`).

A script of built-in commands is refused if one of its lines has arguments that denote nothing, and
the first such line is reported.  Otherwise each line stands for what it denotes
(`Parser.standard_parser_reads_its_grammar`).
-/

namespace Recital

open Text

variable {keyword args label name left right raw : String} {n index : Nat} {value : Json}
  {factory : Factory} {c : Command} {target : Target} {line : Line}

namespace Command

/-! ### What arguments denote -/

/-- A label mark and a name that is not blank. -/
def IsLabel (args label : String) : Prop :=
  ∃ rest, args.toList = '#' :: rest ∧ label = trim (String.ofList rest) ∧ label ≠ ""

/-- A number of sixty-four bits. -/
def IsWord (args : String) (n : Nat) : Prop := IsNumeral args n ∧ n < 2 ^ 64

/-- The texts before and after the first equals sign. -/
def IsEquation (args left right : String) : Prop :=
  args.toList = left.toList ++ '=' :: right.toList ∧ '=' ∉ left.toList

/-- The value of a text: the JSON value that it denotes, or the text itself if it denotes none. -/
def IsValue (s : String) (value : Json) : Prop :=
  Json.IsText s value ∨ (∀ j, ¬ Json.IsText s j) ∧ value = .str s

/-- The arguments are those of a command. -/
def Takes (args : String) : Command → Prop
  | assign name value => ∃ left right, IsEquation args left right ∧ name = trim left ∧ name ≠ "" ∧
      hasBlank name = false ∧ IsValue (trim right) value
  | clear | back => True
  | jump (.label label) | gosub label => IsLabel args label
  | jump (.line n) | wait n => IsWord args n
  | stop reason => reason = if args = "" then "stopped by script" else args
  | log message => message = args
  | call script => script = args ∧ args ≠ "" ∧ hasBlank args = false
  | custom .. => False

/-- A command is what a built-in keyword denotes with its arguments. -/
structure Denotes (keyword args : String) (c : Command) : Prop where
  type : c.type = keyword
  takes : c.Takes args

/-- Arguments with which a built-in keyword denotes nothing. -/
inductive Refuses (keyword args : String) : Prop
  | noEquation (hkeyword : keyword = "set") (h : '=' ∉ args.toList)
  | badName {left right : String} (hkeyword : keyword = "set") (hargs : IsEquation args left right)
    (h : trim left = "" ∨ hasBlank (trim left) = true)
  | noTarget (hkeyword : keyword = "jump") (hlabel : ∀ label, ¬ IsLabel args label)
    (hline : ∀ n, ¬ IsWord args n)
  | noLabel (hkeyword : keyword = "gosub") (h : ∀ label, ¬ IsLabel args label)
  | noWord (hkeyword : keyword = "wait") (h : ∀ n, ¬ IsWord args n)
  | badScript (hkeyword : keyword = "call") (h : args = "" ∨ hasBlank args = true)

/-- A built-in command is told from the others by its keyword. -/
lemma denotes_iff_exists : Denotes keyword args c ↔
    (keyword = "set" ∧ ∃ name value, c = .assign name value ∧ Takes args (.assign name value)) ∨
    (keyword = "clear" ∧ c = .clear) ∨
    (keyword = "jump" ∧ ∃ target, c = .jump target ∧ Takes args (.jump target)) ∨
    (keyword = "gosub" ∧ ∃ label, c = .gosub label ∧ Takes args (.gosub label)) ∨
    (keyword = "return" ∧ c = .back) ∨
    (keyword = "stop" ∧ ∃ reason, c = .stop reason ∧ Takes args (.stop reason)) ∨
    (keyword = "wait" ∧ ∃ n, c = .wait n ∧ Takes args (.wait n)) ∨
    (keyword = "log" ∧ c = .log args) ∨
    (keyword = "call" ∧ ∃ script, c = .call script ∧ Takes args (.call script)) := by
  have hdenotes : Denotes keyword args c ↔ c.type = keyword ∧ c.Takes args :=
    ⟨fun h => ⟨h.type, h.takes⟩, fun h => ⟨h.1, h.2⟩⟩
  rw [hdenotes]
  cases c <;> simp [type, Takes, @eq_comm String keyword]

/-! ### Readers -/

lemma cutAt_equals_iff : cutAt (· == '=') args.toList = some (left.toList, right.toList) ↔
    IsEquation args left right := by
  rw [cutAt_eq_some_iff]
  unfold IsEquation
  constructor
  · rintro ⟨d, htext, hd, hleft⟩
    rw [beq_iff_eq] at hd
    subst hd
    exact ⟨htext, fun hmem => by simpa using hleft _ hmem⟩
  · rintro ⟨htext, hleft⟩
    exact ⟨'=', htext, rfl, fun d hd => beq_eq_false_iff_ne.mpr fun heq => hleft (heq ▸ hd)⟩

/-- There is one equation at most. -/
lemma IsEquation.unique {left' right' : String} (h : IsEquation args left right)
    (h' : IsEquation args left' right') : left = left' ∧ right = right' := by
  have hcut := (cutAt_equals_iff.mpr h).symm.trans (cutAt_equals_iff.mpr h')
  simp only [Option.some.injEq, Prod.mk.injEq, String.toList_inj] at hcut
  exact hcut

lemma exists_isEquation (h : '=' ∈ args.toList) : ∃ left right, IsEquation args left right := by
  cases hcut : cutAt (· == '=') args.toList with
  | none =>
    have hnone := cutAt_eq_none_iff.mp hcut '=' h
    cases hnone
  | some parts =>
    refine ⟨String.ofList parts.1, String.ofList parts.2, cutAt_equals_iff.mp ?_⟩
    rw [String.toList_ofList, String.toList_ofList, hcut]

lemma isValue_iff {s : String} : IsValue s value ↔ readValue s = value := by
  unfold IsValue readValue
  simp only [← Json.parse?_eq_some_iff]
  cases Json.parse? s <;> simp [eq_comm]

lemma readAssign_eq_ok_iff : readAssign args = .ok c ↔
    ∃ name value, c = .assign name value ∧ Takes args (.assign name value) := by
  constructor
  · intro h
    unfold readAssign at h
    split at h
    · cases h
    · next left right hcut =>
      dsimp only at h
      split at h
      · cases h
      · next hname =>
        cases h
        have hargs : IsEquation args (String.ofList left) (String.ofList right) := by
          rw [← cutAt_equals_iff, String.toList_ofList, String.toList_ofList]
          exact hcut
        simp only [Bool.or_eq_true, not_or, Bool.not_eq_true, String.isEmpty_iff] at hname
        exact ⟨_, _, rfl, _, _, hargs, rfl, hname.1, hname.2, isValue_iff.mpr rfl⟩
  · rintro ⟨name, value, rfl, left, right, hargs, rfl, hname, hblank, hvalue⟩
    rw [isValue_iff] at hvalue
    unfold readAssign
    rw [cutAt_equals_iff.mpr hargs]
    simp [hname, hblank, hvalue]

lemma readTarget_eq_ok_iff (hargs : IsTrimmed args.toList) : readTarget args = .ok target ↔
    Takes args (.jump target) := by
  unfold readTarget
  simp only [trim_of_isTrimmed hargs]
  split
  · next rest htext =>
    have hmark : '#'.isDigit = false := rfl
    cases target with
    | line n =>
      -- what starts with the mark of a label is no number
      refine ⟨fun h => (by split at h <;> cases h), ?_⟩
      rintro ⟨⟨ds, -, hdigits, -, hds | hds⟩, -⟩
      · rw [← hds, htext] at hdigits
        rw [hdigits '#' List.mem_cons_self] at hmark
        cases hmark
      · rw [htext] at hds
        cases hds
    | label label =>
      have hlabel : Takes args (.jump (.label label)) ↔
          label = trim (String.ofList rest) ∧ label ≠ "" := by
        constructor
        · rintro ⟨rest', htext', hlabel, hne⟩
          cases htext.symm.trans htext'
          exact ⟨hlabel, hne⟩
        · rintro ⟨hlabel, hne⟩
          exact ⟨rest, htext, hlabel, hne⟩
      rw [hlabel]
      split
      · next hempty =>
        rw [String.isEmpty_iff] at hempty
        exact ⟨fun h => (by cases h), fun ⟨hlabel, hne⟩ => absurd (hlabel.trans hempty) hne⟩
      · next hempty =>
        rw [String.isEmpty_iff] at hempty
        constructor
        · rintro ⟨⟩
          exact ⟨rfl, hempty⟩
        · rintro ⟨rfl, -⟩
          rfl
  · next hnone =>
    cases target with
    | label label =>
      refine ⟨fun h => (by split at h <;> cases h), ?_⟩
      rintro ⟨rest, htext, -⟩
      exact absurd htext (hnone rest)
    | line n =>
      have hline : Takes args (.jump (.line n)) ↔ readWord args = some n :=
        readWord_eq_some_iff.symm
      rw [hline]
      cases readWord args <;> simp

lemma readJump_eq_ok_iff (hargs : IsTrimmed args.toList) :
    readJump args = .ok c ↔ ∃ target, c = .jump target ∧ Takes args (.jump target) := by
  simp only [← readTarget_eq_ok_iff hargs]
  unfold readJump
  cases readTarget args <;> simp [Except.map, eq_comm]

lemma readGosub_eq_ok_iff (hargs : IsTrimmed args.toList) :
    readGosub args = .ok c ↔ ∃ label, c = .gosub label ∧ Takes args (.gosub label) := by
  have htakes : ∀ label, Takes args (.gosub label) ↔ readTarget args = .ok (.label label) := by
    intro label
    rw [readTarget_eq_ok_iff hargs]
    rfl
  simp only [htakes]
  unfold readGosub
  cases readTarget args with
  | error e => simp
  | ok target => cases target <;> simp [eq_comm]

lemma readStop_eq_ok_iff (hargs : IsTrimmed args.toList) :
    readStop args = .ok c ↔ ∃ reason, c = .stop reason ∧ Takes args (.stop reason) := by
  unfold readStop
  rw [trim_of_isTrimmed hargs]
  simp only [String.isEmpty_iff, Except.ok.injEq]
  constructor
  · rintro rfl
    exact ⟨_, rfl, rfl⟩
  · rintro ⟨_, rfl, rfl⟩
    rfl

lemma readWait_eq_ok_iff (hargs : IsTrimmed args.toList) :
    readWait args = .ok c ↔ ∃ n, c = .wait n ∧ Takes args (.wait n) := by
  have htakes : ∀ n, Takes args (.wait n) ↔ readWord args = some n :=
    fun n => readWord_eq_some_iff.symm
  simp only [htakes]
  unfold readWait
  simp only [trim_of_isTrimmed hargs]
  cases readWord args <;> simp [eq_comm]

lemma readCall_eq_ok_iff (hargs : IsTrimmed args.toList) :
    readCall args = .ok c ↔ ∃ script, c = .call script ∧ Takes args (.call script) := by
  unfold readCall
  rw [trim_of_isTrimmed hargs]
  dsimp only
  split
  · next hbad =>
    rw [Bool.or_eq_true, String.isEmpty_iff] at hbad
    refine ⟨fun h => (by cases h), ?_⟩
    rintro ⟨script, -, -, hname, hblank⟩
    rcases hbad with hempty | hbad
    · exact absurd hempty hname
    · rw [hblank] at hbad
      cases hbad
  · next hgood =>
    rw [Bool.or_eq_true, not_or, String.isEmpty_iff, Bool.not_eq_true] at hgood
    constructor
    · rintro ⟨⟩
      exact ⟨args, rfl, rfl, hgood⟩
    · rintro ⟨script, rfl, rfl, -⟩
      rfl

/-- A built-in keyword stands for what it denotes with its arguments. -/
theorem denotes_iff (hmem : (keyword, factory) ∈ builtins) (hargs : IsTrimmed args.toList) :
    factory args = .ok c ↔ Denotes keyword args c := by
  simp only [builtins, List.mem_cons, Prod.mk.injEq, List.not_mem_nil, or_false] at hmem
  rcases hmem with ⟨rfl, rfl⟩ | ⟨rfl, rfl⟩ | ⟨rfl, rfl⟩ | ⟨rfl, rfl⟩ | ⟨rfl, rfl⟩ | ⟨rfl, rfl⟩ |
    ⟨rfl, rfl⟩ | ⟨rfl, rfl⟩ | ⟨rfl, rfl⟩
  · simp [readAssign_eq_ok_iff, denotes_iff_exists]
  · simp [denotes_iff_exists, eq_comm]
  · simp [readJump_eq_ok_iff hargs, denotes_iff_exists]
  · simp [readGosub_eq_ok_iff hargs, denotes_iff_exists]
  · simp [denotes_iff_exists, eq_comm]
  · simp [readStop_eq_ok_iff hargs, denotes_iff_exists]
  · simp [readWait_eq_ok_iff hargs, denotes_iff_exists]
  · simp [denotes_iff_exists, eq_comm]
  · simp [readCall_eq_ok_iff hargs, denotes_iff_exists]

/-- What denotes nothing is refused. -/
theorem refuses_iff (hkeyword : keyword ∈ builtins.map Prod.fst) :
    Refuses keyword args ↔ ∀ c, ¬ Denotes keyword args c := by
  constructor
  · rintro h c hc
    rw [denotes_iff_exists] at hc
    cases h with
    | noEquation hset h =>
      obtain ⟨_, _, -, _, _, ⟨htext, -⟩, -⟩ :
          ∃ name value, c = .assign name value ∧ Takes args (.assign name value) := by
        simpa [hset] using hc
      exact h (by simp [htext])
    | badName hset hargs h =>
      obtain ⟨_, _, -, _, _, hargs', rfl, hname, hblank, -⟩ :
          ∃ name value, c = .assign name value ∧ Takes args (.assign name value) := by
        simpa [hset] using hc
      obtain ⟨rfl, rfl⟩ := hargs.unique hargs'
      rcases h with h | h
      · exact hname h
      · rw [hblank] at h
        cases h
    | noTarget hjump hlabel hline =>
      obtain ⟨target, -, htarget⟩ : ∃ target, c = .jump target ∧ Takes args (.jump target) := by
        simpa [hjump] using hc
      cases target with
      | label label => exact hlabel label htarget
      | line n => exact hline n htarget
    | noLabel hgosub h =>
      obtain ⟨label, -, hlabel⟩ : ∃ label, c = .gosub label ∧ Takes args (.gosub label) := by
        simpa [hgosub] using hc
      exact h label hlabel
    | noWord hwait h =>
      obtain ⟨n, -, hn⟩ : ∃ n, c = .wait n ∧ Takes args (.wait n) := by
        simpa [hwait] using hc
      exact h n hn
    | badScript hcall h =>
      obtain ⟨_, -, -, hname, hblank⟩ : ∃ script, c = .call script ∧ Takes args (.call script) := by
        simpa [hcall] using hc
      rcases h with h | h
      · exact hname h
      · rw [hblank] at h
        cases h
  · intro h
    simp only [builtins, List.map_cons, List.map_nil, List.mem_cons, List.not_mem_nil,
      or_false] at hkeyword
    rcases hkeyword with rfl | rfl | rfl | rfl | rfl | rfl | rfl | rfl | rfl
    · by_cases hequals : '=' ∈ args.toList
      · obtain ⟨left, right, hargs⟩ := exists_isEquation hequals
        refine .badName rfl hargs ?_
        by_contra hgood
        rw [not_or, Bool.not_eq_true] at hgood
        exact h (.assign (trim left) (readValue (trim right)))
          ⟨rfl, left, right, hargs, rfl, hgood.1, hgood.2, isValue_iff.mpr rfl⟩
      · exact .noEquation rfl hequals
    · exact absurd ⟨rfl, trivial⟩ (h .clear)
    · exact .noTarget rfl (fun label hlabel => h (.jump (.label label)) ⟨rfl, hlabel⟩)
        fun n hn => h (.jump (.line n)) ⟨rfl, hn⟩
    · exact .noLabel rfl fun label hlabel => h (.gosub label) ⟨rfl, hlabel⟩
    · exact absurd ⟨rfl, trivial⟩ (h .back)
    · exact absurd ⟨rfl, rfl⟩ (h (.stop (if args = "" then "stopped by script" else args)))
    · exact .noWord rfl fun n hn => h (.wait n) ⟨rfl, hn⟩
    · exact absurd ⟨rfl, rfl⟩ (h (.log args))
    · refine .badScript rfl ?_
      by_contra hgood
      rw [not_or, Bool.not_eq_true] at hgood
      exact h (.call args) ⟨rfl, rfl, hgood⟩

end Command

/-! ### Lines -/

namespace Parser

variable {title source message : String} {s : Script}

/-- A line of which the arguments denote nothing. -/
def IsMalformed (raw : String) : Prop :=
  ∃ keyword args, Invokes raw keyword args ∧ Command.Refuses keyword args

/-- The line of a script for which a source line stands. -/
inductive Means : String → Line → Prop
  | text {raw : String} (h : ¬ IsMarked raw) : Means raw (.text (trimEnd raw))
  | command {raw keyword args : String} {c : Command} (h : Invokes raw keyword args)
    (hc : Command.Denotes keyword args c) : Means raw (.command (trimEnd raw) (some c))
  | unknown {raw keyword args : String} (h : Invokes raw keyword args)
    (hkeyword : keyword ∉ Command.builtins.map Prod.fst) : Means raw (.command (trimEnd raw) none)

lemma isTrimmed_of_invokes (h : Invokes raw keyword args) : IsTrimmed args.toList := by
  obtain ⟨-, -, -, -, -, -, rfl⟩ := h
  exact isTrimmed_trim _

lemma exists_factory (h : keyword ∈ Command.builtins.map Prod.fst) :
    ∃ factory, (keyword, factory) ∈ Command.builtins := by
  obtain ⟨⟨_, factory⟩, hmem, rfl⟩ := List.mem_map.mp h
  exact ⟨factory, hmem⟩

/-- A line that is read stands for what it means. -/
lemma means_of_parseLine (h : standard.parseLine raw = .ok line) : Means raw line := by
  by_cases hmarked : IsMarked raw
  · obtain ⟨keyword, args, hinvokes⟩ := exists_invokes hmarked
    rw [parseLine_of_invokes hinvokes] at h
    split at h
    · next hnone =>
      cases h
      refine .unknown hinvokes fun hkeyword => ?_
      obtain ⟨factory, hmem⟩ := exists_factory hkeyword
      rw [get?_standard_iff.mpr hmem] at hnone
      cases hnone
    · next factory hfactory =>
      split at h
      · next c hc =>
        cases h
        exact .command hinvokes ((Command.denotes_iff (get?_standard_iff.mp hfactory)
          (isTrimmed_of_invokes hinvokes)).mp hc)
      · cases h
  · rw [parseLine_of_not_isMarked hmarked] at h
    cases h
    exact .text hmarked

/-- A line is read if its arguments denote a command. -/
lemma parseLine_of_denotes (hmem : (keyword, factory) ∈ Command.builtins)
    (h : Invokes raw keyword args) (hc : Command.Denotes keyword args c) :
    standard.parseLine raw = .ok (.command (trimEnd raw) (some c)) := by
  rw [← Command.denotes_iff hmem (isTrimmed_of_invokes h)] at hc
  rw [parseLine_of_invokes h, get?_standard_iff.mpr hmem]
  simp only [hc]

/-- A line is refused if its arguments denote nothing. -/
lemma exists_parseLine_eq_error_iff :
    (∃ message, standard.parseLine raw = .error message) ↔ IsMalformed raw := by
  constructor
  · rintro ⟨message, h⟩
    by_cases hmarked : IsMarked raw
    · obtain ⟨keyword, args, hinvokes⟩ := exists_invokes hmarked
      refine ⟨keyword, args, hinvokes, ?_⟩
      rw [parseLine_of_invokes hinvokes] at h
      split at h
      · cases h
      · next factory hfactory =>
        have hmem := get?_standard_iff.mp hfactory
        rw [Command.refuses_iff (List.mem_map_of_mem hmem)]
        intro c hc
        rw [← Command.denotes_iff hmem (isTrimmed_of_invokes hinvokes)] at hc
        rw [hc] at h
        cases h
    · rw [parseLine_of_not_isMarked hmarked] at h
      cases h
  · rintro ⟨keyword, args, hinvokes, hrefuses⟩
    have hkeyword : keyword ∈ Command.builtins.map Prod.fst := by
      obtain ⟨rfl, -⟩ | ⟨rfl, -, -⟩ | ⟨rfl, -, -⟩ | ⟨rfl, -⟩ | ⟨rfl, -⟩ | ⟨rfl, -⟩ :=
        hrefuses <;> decide
    obtain ⟨factory, hmem⟩ := exists_factory hkeyword
    cases hread : factory args with
    | error e =>
      refine ⟨"@" ++ keyword ++ ": " ++ e.message, ?_⟩
      rw [parseLine_of_invokes hinvokes, get?_standard_iff.mpr hmem]
      simp only [hread]
    | ok c =>
      rw [Command.denotes_iff hmem (isTrimmed_of_invokes hinvokes)] at hread
      exact absurd hread ((Command.refuses_iff hkeyword).mp hrefuses c)

/-- A source text is refused if the arguments of one of its lines denote nothing; the first such
line is reported.  Otherwise each line of the script stands for what the line of the text means. -/
theorem standard_parser_reads_its_grammar (title source : String) :
    ((∃ e, standard.parse title source = .error e) ↔ ∃ raw ∈ lines source, IsMalformed raw) ∧
    (∀ e, standard.parse title source = .error e → ∃ index message,
      e = .malformed title index message ∧
        IsLeast {i | ∃ raw, (lines source)[i]? = some raw ∧ IsMalformed raw} index) ∧
    ∀ s, standard.parse title source = .ok s →
      s.name = title ∧ List.Forall₂ Means (lines source) s.lines := by
  have hsound : ∀ r line, standard.parseLine r = .ok line → ¬ IsMalformed r := by
    intro r line hline hmalformed
    obtain ⟨message, herror⟩ := exists_parseLine_eq_error_iff.mpr hmalformed
    cases hline.symm.trans herror
  refine ⟨⟨?_, ?_⟩, ?_, ?_⟩
  · rintro ⟨e, h⟩
    obtain ⟨before, raw, after, message, hlines, -, hraw, -⟩ := parse_eq_error_iff.mp h
    exact ⟨raw, by simp [hlines], exists_parseLine_eq_error_iff.mp ⟨message, hraw⟩⟩
  · rintro ⟨raw, hraw, hmalformed⟩
    cases hparse : standard.parse title source with
    | error e => exact ⟨e, rfl⟩
    | ok s =>
      obtain ⟨i, hi⟩ := List.getElem?_of_mem hraw
      obtain ⟨line, -, hline⟩ := exists_line?_of_parse hparse hi
      exact absurd hmalformed (hsound raw line hline)
  · intro e h
    obtain ⟨before, raw, after, message, hlines, hbefore, hraw, rfl⟩ := parse_eq_error_iff.mp h
    refine ⟨before.length, message, rfl, ⟨raw, by simp [hlines], ?_⟩, ?_⟩
    · exact exists_parseLine_eq_error_iff.mp ⟨message, hraw⟩
    · rintro i ⟨r, hr, hmalformed⟩
      by_contra hless
      rw [hlines, List.getElem?_append_left (Nat.lt_of_not_le hless)] at hr
      obtain ⟨line, hline⟩ := hbefore r (List.mem_of_getElem? hr)
      exact hsound r line hline hmalformed
  · intro s h
    obtain ⟨hname, hlines⟩ := parse_eq_ok_iff.mp h
    exact ⟨hname, hlines.imp fun _ _ => means_of_parseLine⟩

/-- A text of which the second line has arguments that denote nothing, and so has the third. -/
def dirge : String := "@log adagio\n@wait a while\n@gosub"

/-- An equation with an object, in which a key comes twice. -/
def airText : String := "air = \x7b\"bars\": 3, \"beats\": [4, 8e0],\"bars\":-2\x7d"

/-- The value of its right side. -/
def air : Json :=
  .obj [("bars", .num (.integer (-2))),
    ("beats", .arr [.num (.integer 4), .num (.real (Binary64.ofInt 8))])]

/-- An equation with a text that is no JSON text. -/
def moodText : String := "mood = grave"

/-- A text that sets one variable to the object, and one to the text. -/
def canon : String := "@set " ++ airText ++ "\n@set " ++ moodText

/-- The lines of the canon when it is read. -/
def canonLines : List Line :=
  [.command ("@set " ++ airText) (some (.assign "air" air)),
   .command ("@set " ++ moodText) (some (.assign "mood" (.str "grave")))]

/-- A line that sets a variable is read, where no blanks stand around its arguments. -/
lemma parseLine_set (hargs : trim (String.ofList (' ' :: args.toList)) = args)
    (hend : trimEnd ("@set " ++ args) = "@set " ++ args)
    (h : (Command.assign name value).Takes args) :
    standard.parseLine ("@set " ++ args) =
      .ok (.command ("@set " ++ args) (some (.assign name value))) := by
  have hinvokes : Invokes ("@set " ++ args) "set" args := by
    refine ⟨[], ' ' :: args.toList, by simp [AllBlank], by simp, by decide +kernel, ?_, hargs.symm⟩
    intro c hc
    obtain rfl : ' ' = c := Option.some.inj hc
    rfl
  have hmem : ("set", Command.readAssign) ∈ Command.builtins := by simp [Command.builtins]
  have hread := parseLine_of_denotes hmem hinvokes ⟨rfl, h⟩
  rwa [hend] at hread

lemma takes_airText : (Command.assign "air" air).Takes airText := by
  have hfits : air.Fits Json.depthLimit := by
    refine .obj (List.forall_mem_cons.mpr ⟨.num ?_, List.forall_mem_singleton.mpr (.arr ?_)⟩)
    · exact ⟨by decide, by decide⟩
    · refine List.forall_mem_cons.mpr ⟨.num ⟨by decide, by decide⟩, ?_⟩
      exact List.forall_mem_singleton.mpr (.num (by decide +kernel : _ = true))
  obtain ⟨right, hright⟩ :
      ∃ right, right = " \x7b\"bars\": 3, \"beats\": [4, 8e0],\"bars\":-2\x7d" := ⟨_, rfl⟩
  have hparse : Json.parse? (trim right) = some air :=
    Json.parse?_of_spread hfits (by rw [hright]; decide +kernel)
  refine ⟨"air ", right, ?_, by decide +kernel, by decide, by decide +kernel,
    .inl (Json.parse?_eq_some_iff.mp hparse)⟩
  rw [hright]
  exact ⟨by decide +kernel, by decide +kernel⟩

lemma takes_moodText : (Command.assign "mood" (.str "grave")).Takes moodText := by
  have hvalue : Command.readValue (trim " grave") = .str "grave" := by
    have htrim : trim " grave" = "grave" := by decide +kernel
    have hparse : (Json.parse? "grave").isNone = true := by decide +kernel
    rw [htrim, Command.readValue, Option.isNone_iff_eq_none.mp hparse, Option.getD_none]
  exact ⟨"mood ", " grave", ⟨by decide +kernel, by decide +kernel⟩, by decide +kernel, by decide,
    by decide +kernel, Command.isValue_iff.mpr hvalue⟩

/-- The second line of the dirge is reported, and the canon is read as its lines denote. -/
theorem dirge_is_refused_canon_is_read :
    (standard.parse "dirge" dirge =
      .error (.malformed "dirge" 1 "@wait: expected milliseconds, got 'a while'") ∧
    IsLeast {i | ∃ raw, (lines dirge)[i]? = some raw ∧ IsMalformed raw} 1) ∧
    standard.parse "canon" canon = .ok ⟨"canon", canonLines⟩ ∧
    List.Forall₂ Means (lines canon) canonLines := by
  constructor
  · have hparse : standard.parse "dirge" dirge =
        .error (.malformed "dirge" 1 "@wait: expected milliseconds, got 'a while'") := by
      have hlines : lines dirge = ["@log adagio", "@wait a while", "@gosub"] := by decide +kernel
      rw [parse_eq_error_iff]
      refine ⟨["@log adagio"], "@wait a while", ["@gosub"], _, hlines, ?_, rfl, rfl⟩
      exact List.forall_mem_singleton.mpr ⟨.command "@log adagio" (some (.log "adagio")), rfl⟩
    obtain ⟨-, herror, -⟩ := standard_parser_reads_its_grammar "dirge" dirge
    obtain ⟨index, message, heq, hleast⟩ := herror _ hparse
    cases heq
    exact ⟨hparse, hleast⟩
  · have hparse : standard.parse "canon" canon = .ok ⟨"canon", canonLines⟩ := by
      have hlines : lines canon = ["@set " ++ airText, "@set " ++ moodText] := by decide +kernel
      have hair : standard.parseLine ("@set " ++ airText) =
          .ok (.command ("@set " ++ airText) (some (.assign "air" air))) :=
        parseLine_set (by decide +kernel) (by decide +kernel) takes_airText
      have hmood : standard.parseLine ("@set " ++ moodText) =
          .ok (.command ("@set " ++ moodText) (some (.assign "mood" (.str "grave")))) :=
        parseLine_set (by decide +kernel) (by decide +kernel) takes_moodText
      have hread : List.Forall₂ (standard.parseLine · = .ok ·) (lines canon) canonLines := by
        rw [hlines]
        exact .cons hair (.cons hmood .nil)
      exact parse_eq_ok_iff.mpr ⟨rfl, hread⟩
    obtain ⟨-, -, hmeans⟩ := standard_parser_reads_its_grammar "canon" canon
    exact ⟨hparse, (hmeans _ hparse).2⟩

end Parser

end Recital

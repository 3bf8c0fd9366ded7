import Recital.Proofs.Player.FlowAction
import Recital.Proofs.Script.Grammar

/-!
# Labels and references to them

A label line and a line that refers to a label are read in different ways: the one is trimmed and
loses its mark, the other is cut into marker, keyword and arguments, which are trimmed before and
after they lose the same mark.  Both come to the same name, whatever characters it has and however
many blanks stand around it (`Parser.Names.parseLine_jump`, `Parser.Names.parseLine_gosub`), and the
name stands for the first line that carries it (`Parser.references_agree_with_labels`).
-/

namespace Recital

open Text

variable {p : Parser} {title source raw keyword label args : String} {s : Script} {line : Line}
  {index : Nat} {c : Context}

/-! ### Label lines -/

/-- A label is what stands behind the mark, without the blanks around it. -/
lemma TextKind.ofText_eq_label_iff : TextKind.ofText raw = .label label ↔
    ∃ rest, (trim raw).toList = '#' :: rest ∧ label = trim (String.ofList rest) := by
  unfold TextKind.ofText
  dsimp only
  split
  · next hnil => simp [hnil]
  · next hcomment => simp [hcomment]
  · next rest hrest =>
    rw [TextKind.label.injEq]
    constructor
    · rintro rfl
      exact ⟨rest, hrest, rfl⟩
    · rintro ⟨rest', hrest', rfl⟩
      cases hrest.symm.trans hrest'
      rfl
  · next hnone =>
    refine iff_of_false (fun h => by cases h) fun ⟨rest, hrest, _⟩ => hnone rest hrest

lemma isTrimmed_of_label (h : TextKind.ofText raw = .label label) : IsTrimmed label.toList := by
  obtain ⟨rest, -, rfl⟩ := TextKind.ofText_eq_label_iff.mp h
  exact isTrimmed_trim _

/-- A label line is not marked. -/
lemma not_isMarked_of_label (h : TextKind.ofText raw = .label label) : ¬ Parser.IsMarked raw := by
  obtain ⟨rest, hrest, -⟩ := TextKind.ofText_eq_label_iff.mp h
  obtain ⟨ws, ws', hws, -, hraw, -⟩ := trim_eq_iff.mp (rfl : trim raw = trim raw)
  rw [hrest] at hraw
  have hfirst : raw.toList.find? (!isBlank ·) = some '#' := by
    rw [List.find?_eq_some_iff_append]
    exact ⟨rfl, ws, rest ++ ws', hraw, fun c hc => by simpa using hws c hc⟩
  unfold Parser.IsMarked
  rw [hfirst]
  decide

/-- A line of a script carries the label that its source line is. -/
lemma label?_of_parseLine (h : p.parseLine raw = .ok line) :
    line.label? = some label ↔ TextKind.ofText raw = .label label := by
  by_cases hmarked : Parser.IsMarked raw
  · obtain ⟨command, rfl⟩ := (Parser.source_of_parseLine h).2.mp hmarked
    exact iff_of_false (by simp [Line.label?]) fun hlabel => not_isMarked_of_label hlabel hmarked
  · rw [Parser.parseLine_of_not_isMarked hmarked] at h
    cases h
    have hkind : TextKind.ofText (trimEnd raw) = TextKind.ofText raw := by
      unfold TextKind.ofText
      rw [trim_trimEnd]
    simp only [Line.label?, hkind]
    split
    · next hname => simp [hname]
    · next hnone => simpa using hnone label

/-! ### References -/

namespace Parser

/-- A line refers to a label: it has a keyword and the label behind its mark, with blanks around
each of them. -/
def Names (raw keyword label : String) : Prop :=
  ∃ indent gap inner after, AllBlank indent ∧ AllBlank gap ∧ gap ≠ [] ∧ AllBlank inner ∧
    AllBlank after ∧ raw.toList =
      indent ++ '@' :: (keyword.toList ++ (gap ++ '#' :: (inner ++ (label.toList ++ after))))

/-- The arguments of a line that refers to a label are the mark and the label. -/
lemma Names.exists_invokes (h : Names raw keyword label) (hkeyword : hasBlank keyword = false)
    (hlabel : IsTrimmed label.toList) (hname : label ≠ "") :
    ∃ args, Invokes raw keyword args ∧ Command.readTarget args = .ok (.label label) := by
  obtain ⟨indent, gap, inner, after, hindent, hgap, hne, hinner, hafter, htext⟩ := h
  have hchars : label.toList ≠ [] := fun hnil => hname (String.toList_eq_nil_iff.mp hnil)
  have hargs : IsTrimmed (String.ofList ('#' :: (inner ++ label.toList))).toList := by
    rw [String.toList_ofList]
    refine ⟨fun c hc => by cases hc; rfl, fun c hc => hlabel.last c ?_⟩
    rwa [← List.cons_append, List.getLast?_append_of_ne_nil _ hchars] at hc
  refine ⟨String.ofList ('#' :: (inner ++ label.toList)),
    ⟨indent, _, hindent, htext, hkeyword, ?_, ?_⟩, ?_⟩
  · intro c hc
    rw [List.head?_append_of_ne_nil _ hne] at hc
    exact hgap c (List.mem_of_head? hc)
  · have hsplit : gap ++ '#' :: (inner ++ (label.toList ++ after)) =
        gap ++ ((String.ofList ('#' :: (inner ++ label.toList))).toList ++ after) := by simp
    rw [hsplit, trim_ofList_append hgap hafter hargs]
  · have htrim := trim_ofList_append hinner allBlank_nil hlabel
    rw [List.append_nil] at htrim
    exact (Command.readTarget_eq_ok_iff hargs).mpr
      ⟨inner ++ label.toList, String.toList_ofList, htrim.symm, hname⟩

/-- A jump to a label leads to the label of that name. -/
lemma Names.parseLine_jump (h : Names raw "jump" label)
    (hjump : p.factories.get? "jump" = some Command.readJump) (hlabel : IsTrimmed label.toList)
    (hname : label ≠ "") :
    p.parseLine raw = .ok (.command (trimEnd raw) (some (.jump (.label label)))) := by
  obtain ⟨args, hinvokes, htarget⟩ := h.exists_invokes (by decide) hlabel hname
  rw [parseLine_of_invokes hinvokes, hjump]
  simp only [Command.readJump, htarget, Except.map]

/-- So does the call of a subroutine. -/
lemma Names.parseLine_gosub (h : Names raw "gosub" label)
    (hgosub : p.factories.get? "gosub" = some Command.readGosub) (hlabel : IsTrimmed label.toList)
    (hname : label ≠ "") :
    p.parseLine raw = .ok (.command (trimEnd raw) (some (.gosub label))) := by
  obtain ⟨args, hinvokes, htarget⟩ := h.exists_invokes (by decide) hlabel hname
  rw [parseLine_of_invokes hinvokes, hgosub]
  simp only [Command.readGosub, htarget]

/-- The first line that carries a label is the first one of the source text that is that label. -/
lemma isLeast_lineOf? (h : p.parse title source = .ok s) (hindex : s.lineOf? label = some index) :
    IsLeast
      {i | ∃ raw, (lines source)[i]? = some raw ∧ TextKind.ofText raw = .label label} index := by
  obtain ⟨hlt, hlabel, hbefore⟩ := List.findIdx?_eq_some_iff_getElem.mp hindex
  constructor
  · obtain ⟨raw, hraw, hread⟩ := exists_raw_of_line? h (List.getElem?_eq_getElem hlt)
    exact ⟨raw, hraw, (label?_of_parseLine hread).mp (by simpa using hlabel)⟩
  · rintro i ⟨raw, hraw, hkind⟩
    obtain ⟨line, hline, hread⟩ := exists_line?_of_parse h hraw
    obtain ⟨hi, rfl⟩ := List.getElem?_eq_some_iff.mp hline
    by_contra hless
    have hnone := hbefore i (Nat.lt_of_not_le hless)
    simp [(label?_of_parseLine hread).mpr hkind] at hnone

/-- A label of the source text is carried by a line of the script. -/
lemma exists_lineOf? (h : p.parse title source = .ok s) (hraw : raw ∈ lines source)
    (hlabel : TextKind.ofText raw = .label label) : ∃ index, s.lineOf? label = some index := by
  obtain ⟨i, hi⟩ := List.getElem?_of_mem hraw
  obtain ⟨line, hline, hread⟩ := exists_line?_of_parse h hi
  have hsome : (s.lineOf? label).isSome = true := by
    rw [Script.lineOf?, List.findIdx?_isSome, List.any_eq_true]
    exact ⟨line, List.mem_of_getElem? hline, by simpa using (label?_of_parseLine hread).mpr hlabel⟩
  exact Option.isSome_iff_exists.mp hsome

end Parser

/-! ### Where they lead -/

/-- In a script that carries a label, commands that refer to it ask to continue there. -/
lemma Context.conclude_of_lineOf? (hscript : c.script = some s) (hsurveyed : c.IsSurveyed)
    (hname : label ≠ "") (hindex : s.lineOf? label = some index) :
    ∀ command ∈ [Command.jump (.label label), .gosub label], ∀ n line script,
      command.conclude (command.attempt n (c.view line script)).verdict = .ok (.toLabel label) := by
  have hlabels : c.labels.contains label = true := by
    rw [Table.contains, hsurveyed.get?_labels, if_neg hname, hscript, Option.bind_some, hindex]
    rfl
  intro command hcommand n line script
  simp only [List.mem_cons, List.not_mem_nil, or_false] at hcommand
  rcases hcommand with rfl | rfl
  · rfl
  · have hattempt : (Command.gosub label).attempt n (c.view line script) =
        { effects := [.push (line + 1)], verdict := .ok (.ofFlow (.toLabel label)) } :=
          if_pos hlabels
    rw [hattempt]
    rfl

/-- The cursor is moved to the line that carries the label first. -/
lemma Context.resolve_of_lineOf? (hscript : c.script = some s) (hsurveyed : c.IsSurveyed)
    (hname : label ≠ "") (hindex : s.lineOf? label = some index) :
    c.resolve (.toLabel label) = .ok (.jumped index, c.moveTo index) := by
  rw [Context.resolve, hsurveyed.get?_labels, if_neg hname, hscript, Option.bind_some, hindex]

/-- A line that refers to a label of a source text is read as a jump to its name, or as a call of
the subroutine of that name, and in the script both lead to the first line of the text that is that
label. -/
theorem Parser.references_agree_with_labels
    (hjump : p.factories.get? "jump" = some Command.readJump)
    (hgosub : p.factories.get? "gosub" = some Command.readGosub) (hraw : raw ∈ lines source)
    (hlabel : TextKind.ofText raw = .label label) (hname : label ≠ "") :
    (∀ line, Names line "jump" label →
      p.parseLine line = .ok (.command (trimEnd line) (some (.jump (.label label))))) ∧
    (∀ line, Names line "gosub" label →
      p.parseLine line = .ok (.command (trimEnd line) (some (.gosub label)))) ∧
    ∀ s, p.parse title source = .ok s → ∃ first,
      IsLeast
        {i | ∃ text, (lines source)[i]? = some text ∧ TextKind.ofText text = .label label} first ∧
      ∀ c : Context, c.script = some s → c.IsSurveyed →
        (∀ command ∈ [Command.jump (.label label), .gosub label], ∀ n line script,
          command.conclude (command.attempt n (c.view line script)).verdict =
            .ok (.toLabel label)) ∧
        c.resolve (.toLabel label) = .ok (.jumped first, c.moveTo first) := by
  have htrimmed := isTrimmed_of_label hlabel
  refine ⟨fun line h => h.parseLine_jump hjump htrimmed hname,
    fun line h => h.parseLine_gosub hgosub htrimmed hname, fun s hs => ?_⟩
  obtain ⟨first, hfirst⟩ := exists_lineOf? hs hraw hlabel
  exact ⟨first, isLeast_lineOf? hs hfirst, fun c hscript hsurveyed =>
    ⟨c.conclude_of_lineOf? hscript hsurveyed hname hfirst,
      c.resolve_of_lineOf? hscript hsurveyed hname hfirst⟩⟩

/-- The text of a script with a label of two words, which two lines carry, and a jump to it. -/
def refrainText : String := "overture\n # da  capo \nverse\n#da  capo\n@jump  #\tda  capo"

/-- The script. -/
def refrain : Script :=
  ⟨"refrain", [.text "overture", .text " # da  capo", .text "verse", .text "#da  capo",
    .command "@jump  #\tda  capo" (some (.jump (.label "da  capo")))]⟩

/-- A playback of the script that has come to the jump. -/
def refrainAtJump : Context :=
  { script := some refrain, labels := refrain.survey.labels, cursor := 4 }

/-- The jump is read, and leads to the first of the two lines. -/
theorem refrain_leads_back :
    " # da  capo " ∈ lines refrainText ∧ TextKind.ofText " # da  capo " = .label "da  capo" ∧
      Parser.Names "@jump  #\tda  capo" "jump" "da  capo" ∧
      Parser.standard.parseLine "@jump  #\tda  capo" =
        .ok (.command "@jump  #\tda  capo" (some (.jump (.label "da  capo")))) ∧
      Parser.standard.parse "refrain" refrainText = .ok refrain ∧ refrainAtJump.IsSurveyed ∧
      refrainAtJump.resolve (.toLabel "da  capo") = .ok (.jumped 1, refrainAtJump.moveTo 1) := by
  have hsecond : (lines refrainText)[1]? = some " # da  capo " := by decide +kernel
  have hlabel : TextKind.ofText " # da  capo " = .label "da  capo" := by decide +kernel
  have hnames : Parser.Names "@jump  #\tda  capo" "jump" "da  capo" :=
    ⟨[], [' ', ' '], ['\t'], [], by decide, by decide, by decide, by decide, by decide,
      by decide +kernel⟩
  have hlines : lines refrainText =
      ["overture", " # da  capo ", "verse", "#da  capo", "@jump  #\tda  capo"] := by decide +kernel
  have hsurveyed : refrainAtJump.IsSurveyed := by
    unfold Context.IsSurveyed refrainAtJump
    rw [Option.map_some, Option.getD_some]
  have hraw := List.mem_of_getElem? hsecond
  have hjump : Parser.standard.factories.get? "jump" = some Command.readJump :=
    Parser.get?_standard_iff.mpr (by simp [Command.builtins])
  have hgosub : Parser.standard.factories.get? "gosub" = some Command.readGosub :=
    Parser.get?_standard_iff.mpr (by simp [Command.builtins])
  obtain ⟨hjumps, -, hscript⟩ := @Parser.references_agree_with_labels Parser.standard "refrain"
    refrainText _ _ hjump hgosub hraw hlabel (by decide)
  have hreference := hjumps _ hnames
  have hend : trimEnd "@jump  #\tda  capo" = "@jump  #\tda  capo" := by decide +kernel
  rw [hend] at hreference
  have htext : ∀ {raw text}, ¬ Parser.IsMarked raw → trimEnd raw = text →
      Parser.standard.parseLine raw = .ok (.text text) := fun hmarked htrim =>
    htrim ▸ Parser.parseLine_of_not_isMarked hmarked
  have hread : Parser.standard.parse "refrain" refrainText = .ok refrain := by
    rw [Parser.parse_eq_ok_iff, hlines]
    exact ⟨rfl, .cons (htext (by decide +kernel) (by decide +kernel))
      (.cons (htext (by decide +kernel) (by decide +kernel))
        (.cons (htext (by decide +kernel) (by decide +kernel))
          (.cons (htext (by decide +kernel) (by decide +kernel)) (.cons hreference .nil))))⟩
  obtain ⟨first, ⟨⟨text, htext, hkind⟩, hleast⟩, hleads⟩ := hscript refrain hread
  have hle : first ≤ 1 := hleast ⟨_, hsecond, hlabel⟩
  have hne : first ≠ 0 := by
    rintro rfl
    have hfirst : (lines refrainText)[0]?.map TextKind.ofText = some (.narrative "overture") := by
      decide +kernel
    rw [htext, Option.map_some, hkind] at hfirst
    cases hfirst
  obtain rfl : first = 1 := by omega
  exact ⟨hraw, hlabel, hnames, hreference, hread, hsurveyed, (hleads _ rfl hsurveyed).2⟩

end Recital

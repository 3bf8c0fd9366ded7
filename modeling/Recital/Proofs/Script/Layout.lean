import Recital.Proofs.Script.Reading
import Recital.Proofs.Text.Lines

/-!
# Scripts keep the layout of their source

The lines of a script are those of its source text, one by one and in their order, so that an index
means the same line in both.  A line of the script has the text of its source line without the
blanks at the end, and the two are command lines alike (`Line.Renders`).

The texts of the lines can stand for the source: written one below the other they are read as the
same script (`Parser.scripts_keep_their_layout`).  For no text of a line holds a line feed or ends
in a carriage return, and a line is read from its text as it is from the source.
-/

namespace Recital

open Text

/-- The line of a script for a line of its source text. -/
structure Line.Renders (raw : String) (line : Line) : Prop where
  /-- Only blanks at the end are missing. -/
  source : ∃ ws, AllBlank ws ∧ raw.toList = line.source.toList ++ ws
  /-- No blank is left at the end. -/
  last : ∀ c, line.source.toList.getLast? = some c → isBlank c = false
  /-- A command line is one that is marked. -/
  isCommand : (∃ command, line = .command line.source command) ↔ Parser.IsMarked raw

namespace Parser

variable {p : Parser} {title source : String} {s : Script} {raw : String} {line : Line}

lemma renders_of_parseLine (h : p.parseLine raw = .ok line) : line.Renders raw := by
  obtain ⟨hsource, hmarked⟩ := source_of_parseLine h
  obtain ⟨ws, hws, htext, hlast⟩ := trimEnd_eq_iff.mp hsource.symm
  exact ⟨⟨ws, hws, htext⟩, hlast, by rw [hmarked, hsource]⟩

/-- The text of a line is read like the line of the source. -/
lemma parseLine_source (h : p.parseLine raw = .ok line) : p.parseLine line.source = .ok line := by
  rw [(source_of_parseLine h).1, parseLine_trimEnd]
  exact h

/-- The lines of a script are the lines of the text that consists of them. -/
lemma lines_unlines_source (h : p.parse title source = .ok s) :
    lines (unlines (s.lines.map Line.source)) = s.lines.map Line.source := by
  have htrimmed : ∀ text ∈ s.lines.map Line.source, ∃ raw ∈ lines source, trimEnd raw = text := by
    intro text htext
    obtain ⟨line, hline, rfl⟩ := List.mem_map.mp htext
    obtain ⟨raw, hraw, hread⟩ := exists_raw_of_mem h hline
    exact ⟨raw, hraw, (source_of_parseLine hread).1.symm⟩
  refine lines_unlines (fun text htext hfeed => ?_) fun text htext hreturn => ?_
  · obtain ⟨raw, hraw, rfl⟩ := htrimmed text htext
    obtain ⟨ws, -, heq, -⟩ := trimEnd_eq_iff.mp (rfl : trimEnd raw = trimEnd raw)
    refine newline_notMem_of_mem_lines hraw ?_
    rw [heq]
    exact List.mem_append_left _ hfeed
  · obtain ⟨raw, -, rfl⟩ := htrimmed text htext
    obtain ⟨-, -, -, hlast⟩ := trimEnd_eq_iff.mp (rfl : trimEnd raw = trimEnd raw)
    cases hlast _ hreturn

/-- A script has one line for each line of its source, with the same text but for blanks at the end,
and is read again from the texts of its lines. -/
theorem scripts_keep_their_layout (h : p.parse title source = .ok s) :
    (∃ raws, (∀ raws', Splits source.toList (raws'.map String.toList) ↔ raws' = raws) ∧
      List.Forall₂ Line.Renders raws s.lines) ∧
    p.parse title (unlines (s.lines.map Line.source)) = .ok s := by
  obtain ⟨hname, hlines⟩ := parse_eq_ok_iff.mp h
  refine ⟨⟨lines source, fun _ => splits_iff, hlines.imp fun _ _ => renders_of_parseLine⟩, ?_⟩
  rw [parse_eq_ok_iff, lines_unlines_source h, List.forall₂_map_left_iff, List.forall₂_same]
  refine ⟨hname, fun line hline => ?_⟩
  obtain ⟨raw, -, hread⟩ := exists_raw_of_mem h hline
  exact parseLine_source hread

/-- A script with a label, a blank line, a jump and a narrative line. -/
def rondo : Script :=
  ⟨"rondo", [.text "#coda", .text "", .command "  @jump  #coda" (some (.jump (.label "coda"))),
    .text "fine"]⟩

/-- It may be written with two kinds of line breaks, with blanks at the ends of lines, and without a
line break at the end. -/
theorem rondo_keeps_its_layout :
    standard.parse "rondo" "#coda\r\n  \t\n  @jump  #coda  \r\nfine" = .ok rondo ∧
      standard.parse "rondo" "#coda\n\n  @jump  #coda\nfine\n" = .ok rondo := by
  have hread : standard.parse "rondo" "#coda\r\n  \t\n  @jump  #coda  \r\nfine" = .ok rondo := rfl
  obtain ⟨-, hagain⟩ := scripts_keep_their_layout hread
  exact ⟨hread, hagain⟩

end Parser

end Recital

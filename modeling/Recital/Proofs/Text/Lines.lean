import Recital.Text.Blank
import Mathlib.Data.List.Basic

/-!
# Dividing a text into lines

A line ends at a line feed, or at a carriage return and a line feed, and the last one also at the
end of the text (`Splits`).  That divides every text in exactly one way, which is the one that is
computed (`splits_iff`).  So lines that neither hold a line feed nor end in a carriage return are
found again when each is written with a line feed behind it (`lines_unlines`).
-/

namespace Recital.Text

variable {cs held l : List Char} {ls : List (List Char)} {s : String}

/-- The lines of a text, without what ends them.  A line break at the very end opens no further
line. -/
inductive Splits : List Char → List (List Char) → Prop
  | nil : Splits [] []
  | last {l : List Char} (hne : l ≠ []) (hl : '\n' ∉ l) : Splits l [l]
  | feed {l rest : List Char} {ls : List (List Char)} (hl : '\n' ∉ l)
    (hlast : l.getLast? ≠ some '\r') (h : Splits rest ls) : Splits (l ++ '\n' :: rest) (l :: ls)
  | returnFeed {l rest : List Char} {ls : List (List Char)} (hl : '\n' ∉ l) (h : Splits rest ls) :
    Splits (l ++ '\r' :: '\n' :: rest) (l :: ls)

/-- The text in which a line feed stands behind each of the lines. -/
def unlines (ls : List String) : String := String.join (ls.map (· ++ "\n"))

/-! ### One division -/

/-- What has no line feed is taken into the current line. -/
lemma linesFrom_append (hl : '\n' ∉ l) (held rest : List Char) :
    linesFrom held (l ++ rest) = linesFrom (l.reverse ++ held) rest := by
  induction l generalizing held with
  | nil => rfl
  | cons c l ih =>
    rw [List.mem_cons, not_or] at hl
    rw [List.cons_append, linesFrom, ih hl.2, List.reverse_cons, List.append_assoc]
    · rfl
    · exact fun hc => hl.1 hc.symm

lemma dropReturn_of_head (h : held.head? ≠ some '\r') : dropReturn held = held := by
  cases held with
  | nil => rfl
  | cons c held =>
    rw [dropReturn]
    rintro rest heq
    cases heq
    exact h rfl

/-- Every division of a text is the one that is computed. -/
lemma linesFrom_of_splits (h : Splits cs ls) : linesFrom [] cs = ls := by
  induction h with
  | nil => rfl
  | @last l hne hl =>
    have hread := linesFrom_append hl [] []
    rw [List.append_nil, List.append_nil] at hread
    rw [hread, linesFrom]
    simp [hne]
  | @feed l rest ls hl hlast _ ih =>
    have hhead : l.reverse.head? ≠ some '\r' := by rwa [List.head?_reverse]
    rw [linesFrom_append hl, List.append_nil, linesFrom, dropReturn_of_head hhead,
      List.reverse_reverse, ih]
  | @returnFeed l rest ls hl _ ih =>
    rw [linesFrom_append hl, List.append_nil, linesFrom, linesFrom, ih, dropReturn,
      List.reverse_reverse]
    decide

/-- Every text is divided, from any place in its first line on. -/
lemma splits_linesFrom (hheld : '\n' ∉ held) (cs : List Char) :
    Splits (held.reverse ++ cs) (linesFrom held cs) := by
  induction cs generalizing held with
  | nil =>
    cases held with
    | nil => exact .nil
    | cons c held =>
      rw [List.append_nil]
      exact .last (by simp) fun hmem => hheld (List.mem_reverse.mp hmem)
  | cons c cs ih =>
    have hnone : Splits cs (linesFrom [] cs) := ih List.not_mem_nil
    by_cases hc : c = '\n'
    · subst hc
      rw [linesFrom]
      by_cases hreturn : held.head? = some '\r'
      · obtain ⟨front, rfl⟩ := List.head?_eq_some_iff.mp hreturn
        rw [dropReturn, List.reverse_cons, List.append_assoc]
        exact .returnFeed (fun hmem => hheld (.tail _ (List.mem_reverse.mp hmem))) hnone
      · rw [dropReturn_of_head hreturn]
        exact .feed (fun hmem => hheld (List.mem_reverse.mp hmem))
          (by rwa [List.getLast?_reverse]) hnone
    · have hmore : '\n' ∉ c :: held := by
        rw [List.mem_cons, not_or]
        exact ⟨fun heq => hc heq.symm, hheld⟩
      have hrest := ih hmore
      rw [List.reverse_cons, List.append_assoc, List.singleton_append] at hrest
      rw [linesFrom]
      · exact hrest
      · exact hc

/-- The lines of a text are the only ones into which it is divided. -/
theorem splits_iff {ls : List String} : Splits s.toList (ls.map String.toList) ↔ ls = lines s := by
  have hlines : (lines s).map String.toList = linesFrom [] s.toList := by
    unfold lines
    rw [List.map_map]
    simp [Function.comp_def]
  constructor
  · intro h
    refine Function.Injective.list_map (fun _ _ => String.toList_injective) ?_
    rw [hlines, linesFrom_of_splits h]
  · rintro rfl
    rw [hlines]
    exact splits_linesFrom List.not_mem_nil s.toList

/-! ### Lines put together -/

/-- No line holds a line feed. -/
lemma Splits.newline_notMem (h : Splits cs ls) (hl : l ∈ ls) : '\n' ∉ l := by
  induction h with
  | nil => cases hl
  | last _ hlast =>
    rw [List.mem_singleton.mp hl]
    exact hlast
  | feed hfirst _ _ ih | returnFeed hfirst _ ih =>
    rcases List.mem_cons.mp hl with rfl | hl
    · exact hfirst
    · exact ih hl

lemma newline_notMem_of_mem_lines {l : String} (h : l ∈ lines s) : '\n' ∉ l.toList :=
  (splits_iff.mpr rfl).newline_notMem (List.mem_map_of_mem h)

/-- Lines are found again in the text in which a line feed stands behind each of them. -/
theorem lines_unlines {ls : List String} (hfeed : ∀ l ∈ ls, '\n' ∉ l.toList)
    (hreturn : ∀ l ∈ ls, l.toList.getLast? ≠ some '\r') : lines (unlines ls) = ls := by
  symm
  rw [← splits_iff]
  induction ls with
  | nil => exact .nil
  | cons l ls ih =>
    rw [List.forall_mem_cons] at hfeed hreturn
    have htext : (unlines (l :: ls)).toList = l.toList ++ '\n' :: (unlines ls).toList := by
      simp [unlines, String.join_cons]
    rw [htext]
    exact .feed hfeed.1 hreturn.1 (ih hfeed.2 hreturn.2)

end Recital.Text

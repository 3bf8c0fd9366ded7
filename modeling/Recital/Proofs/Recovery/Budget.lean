import Mathlib.Algebra.BigOperators.Group.Finset.Basic
import Mathlib.Algebra.Order.BigOperators.Group.Finset
import Mathlib.Tactic.Ring
import Recital.Tally

/-!
# How much recovery is left

Each line may be repeated, or returned from, a limited number of times before it is done, and when
it is done its budget is given back.  A line that is done may have to be executed again, if a later
line returns to the checkpoint; but that line has then used up some of its own budget.

So the budgets are weighed by the position of their lines.  What is left of a line counts more than
everything that can be left of the lines before it, and every execution of a line makes the sum
smaller: either its line is done, or it has used up some of its budget, and no later line has got
any of it back.
-/

namespace Recital

namespace Tally

variable {t t' : Tally} {limit cursor cursor' size line other : Nat}

/-! ### Counters -/

lemma lookup_filter_ne (entries : List (Nat × Nat)) (h : other ≠ line) :
    (entries.filter fun e => e.1 != line).lookup other = entries.lookup other := by
  induction entries with
  | nil => rfl
  | cons e entries ih =>
    obtain ⟨key, value⟩ := e
    by_cases hkey : key = line
    · have hother : (other == key) = false := by simpa [hkey] using h
      simp [hkey, List.lookup_cons, ih, hkey ▸ hother]
    · simp [hkey, List.lookup_cons, ih]

lemma lookup_filter_self (entries : List (Nat × Nat)) :
    (entries.filter fun e => e.1 != line).lookup line = none := by
  induction entries with
  | nil => rfl
  | cons e entries ih =>
    obtain ⟨key, value⟩ := e
    by_cases hkey : key = line
    · simp [hkey, ih]
    · have hline : (line == key) = false := by simpa using Ne.symm hkey
      simp [hkey, List.lookup_cons, ih, hline]

@[simp] lemma count_forget_self : (t.forget line).count line = 0 := by
  simp [count, forget, lookup_filter_self]

@[simp] lemma count_forget_of_ne (h : other ≠ line) :
    (t.forget line).count other = t.count other := by
  simp [count, forget, lookup_filter_ne _ h]

@[simp] lemma count_bump_self : (t.bump line).count line = t.count line + 1 := by
  simp [count, bump]

@[simp] lemma count_bump_of_ne (h : other ≠ line) : (t.bump line).count other = t.count other := by
  have hother : (other == line) = false := by simpa using h
  simp only [count, bump, List.lookup_cons, hother]
  exact congrArg (Option.getD · 0) (lookup_filter_ne _ h)

/-- A line that is done has used up nothing. -/
lemma count_forget_le (h : ∀ line, t.count line ≤ limit) (other : Nat) :
    (t.forget line).count other ≤ limit := by
  by_cases hother : other = line
  · rw [hother, count_forget_self]
    exact Nat.zero_le _
  · rw [count_forget_of_ne hother]
    exact h other

/-- A line that may still be repeated stays within its budget. -/
lemma count_bump_le (h : ∀ line, t.count line ≤ limit) (hline : t.count line < limit)
    (other : Nat) : (t.bump line).count other ≤ limit := by
  by_cases hother : other = line
  · rw [hother, count_bump_self]
    exact hline
  · rw [count_bump_of_ne hother]
    exact h other

/-! ### What is left -/

/-- How many executions are left of a line when the cursor stands at `cursor`.  A line before the
cursor is done. -/
def left (t : Tally) (limit cursor line : Nat) : Nat :=
  if line < cursor then 0 else limit + 1 - t.count line

/-- What is left of all lines.  A line weighs more than the lines before it together. -/
def remaining (t : Tally) (limit cursor size : Nat) : Nat :=
  ∑ line ∈ Finset.range size, t.left limit cursor line * (limit + 2) ^ line

lemma left_le : t.left limit cursor line ≤ limit + 1 := by
  unfold left
  split
  · exact Nat.zero_le _
  · exact Nat.sub_le _ _

/-- Everything that can be left of some lines weighs less than the next line. -/
lemma remaining_lt_pow (t : Tally) (limit cursor size : Nat) :
    t.remaining limit cursor size < (limit + 2) ^ size := by
  induction size with
  | zero => simp [remaining]
  | succ size ih =>
    have hlast : t.left limit cursor size * (limit + 2) ^ size ≤
        (limit + 1) * (limit + 2) ^ size := Nat.mul_le_mul_right _ left_le
    have hpow : (limit + 2) ^ (size + 1) =
        (limit + 2) ^ size + (limit + 1) * (limit + 2) ^ size := by ring
    rw [remaining, Finset.sum_range_succ, hpow]
    exact Nat.add_lt_add_of_lt_of_le ih hlast

/-- If less is left of a line and no more of the lines after it, then less is left of all lines,
whatever has become of the lines before it. -/
lemma remaining_lt (hsize : line < size)
    (hline : t'.left limit cursor' line < t.left limit cursor line)
    (hafter : ∀ other, line < other → t'.left limit cursor' other ≤ t.left limit cursor other) :
    t'.remaining limit cursor' size < t.remaining limit cursor size := by
  induction size with
  | zero => exact absurd hsize (Nat.not_lt_zero _)
  | succ size ih =>
    rw [remaining, remaining, Finset.sum_range_succ, Finset.sum_range_succ]
    rcases Nat.lt_succ_iff_lt_or_eq.mp hsize with hlt | rfl
    · exact Nat.add_lt_add_of_lt_of_le (ih hlt) (Nat.mul_le_mul_right _ (hafter size hlt))
    · calc t'.remaining limit cursor' line + t'.left limit cursor' line * (limit + 2) ^ line
          < (limit + 2) ^ line + t'.left limit cursor' line * (limit + 2) ^ line :=
            Nat.add_lt_add_right (remaining_lt_pow _ _ _ _) _
        _ = (t'.left limit cursor' line + 1) * (limit + 2) ^ line := by ring
        _ ≤ t.left limit cursor line * (limit + 2) ^ line := Nat.mul_le_mul_right _ hline
        _ ≤ t.remaining limit cursor line + t.left limit cursor line * (limit + 2) ^ line :=
            Nat.le_add_left _ _

/-- When the line under the cursor is done, less is left. -/
lemma remaining_forget_lt (hsize : cursor < size) (hcount : t.count cursor ≤ limit) :
    (t.forget cursor).remaining limit (cursor + 1) size < t.remaining limit cursor size := by
  refine remaining_lt hsize ?_ fun other hother => ?_
  · rw [left, left, if_pos (Nat.lt_succ_self _), if_neg (Nat.lt_irrefl _)]
    omega
  · rw [left, left, if_neg (by omega), if_neg (by omega), count_forget_of_ne (by omega)]

/-- When the line under the cursor has used up some of its budget, less is left, wherever the
playback goes on. -/
lemma remaining_bump_lt (hsize : cursor < size) (hcount : t.count cursor < limit) (cursor' : Nat) :
    (t.bump cursor).remaining limit cursor' size < t.remaining limit cursor size := by
  refine remaining_lt hsize ?_ fun other hother => ?_
  · have hnow : t.left limit cursor cursor = limit + 1 - t.count cursor :=
      if_neg (Nat.lt_irrefl _)
    rw [hnow, left, count_bump_self]
    split <;> omega
  · have hnow : t.left limit cursor other = limit + 1 - t.count other := if_neg (by omega)
    rw [hnow, left, count_bump_of_ne (by omega)]
    split <;> omega

end Tally

end Recital

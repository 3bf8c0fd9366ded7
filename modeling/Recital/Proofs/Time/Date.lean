import Mathlib.Tactic.Linarith
import Mathlib.Tactic.Ring
import Recital.Time.Instant

/-!
# Days and dates

The date of a day is one of the calendar, and counting the days up to it gives the day again
(`Instant.dateOfDays_spec`).  An era of four hundred years is taken apart into centuries, groups of
four years, years and days, and the formula for the year is read off these parts.
-/

namespace Recital.Instant

/-- A day of an era, taken apart: full centuries, full groups of four years, full years, and
days. -/
structure IsDay (e c q r t : Int) : Prop where
  eq : e = 36524 * c + 1461 * q + 365 * r + t
  centuries : 0 ≤ c ∧ c ≤ 3
  groups : 0 ≤ q ∧ q ≤ 24
  years : 0 ≤ r ∧ r ≤ 3
  days : 0 ≤ t
  /-- There is a last day in the years that are leap years. -/
  last : t ≤ 364 ∨ t = 365 ∧ r = 3 ∧ (q ≤ 23 ∨ c = 3)

variable {e c q r t : Int}

lemma exists_isDay (hleast : 0 ≤ e) (hgreatest : e < 146097) : ∃ c q r t, IsDay e c q r t := by
  obtain ⟨c, hc⟩ : ∃ c, c = min 3 (e / 36524) := ⟨_, rfl⟩
  obtain ⟨q, hq⟩ : ∃ q, q = (e - 36524 * c) / 1461 := ⟨_, rfl⟩
  obtain ⟨r, hr⟩ : ∃ r, r = min 3 ((e - 36524 * c - 1461 * q) / 365) := ⟨_, rfl⟩
  refine ⟨c, q, r, e - 36524 * c - 1461 * q - 365 * r, by omega, by omega, by omega, by omega,
    by omega, ?_⟩
  by_cases hlast : c = 3
  · omega
  · have hcentury : e - 36524 * c < 36524 := by omega
    omega

/-- The year of an era. -/
lemma IsDay.year (h : IsDay e c q r t) :
    (e - e / 1460 + e / 36524 - e / 146096) / 365 = 100 * c + 4 * q + r := by
  obtain ⟨heq, hc, hq, hr, ht, hlast⟩ := h
  obtain ⟨n, hn⟩ : ∃ n, n = 24 * c + q + 365 * r + t := ⟨_, rfl⟩
  have hfours : e / 1460 = 25 * c + q + n / 1460 := by omega
  have hcarry : n / 1460 = 0 ∨ n / 1460 = 1 ∧ 0 < t := by omega
  by_cases hend : e = 146096
  · subst hend
    omega
  · have hcenturies : e / 36524 = c := by omega
    have heras : e / 146096 = 0 := by omega
    rw [hfours, hcenturies, heras]
    omega

/-- A day of an era lies in a year of it, and the last day only in a leap year. -/
lemma exists_yearOfEra (hleast : 0 ≤ e) (hgreatest : e < 146097) :
    ∃ y t : Int, 0 ≤ y ∧ y ≤ 399 ∧ 0 ≤ t ∧ t ≤ 365 ∧
      (e - e / 1460 + e / 36524 - e / 146096) / 365 = y ∧
      e = 365 * y + y / 4 - y / 100 + t ∧
      (t = 365 → (y + 1) % 4 = 0 ∧ ((y + 1) % 100 ≠ 0 ∨ (y + 1) % 400 = 0)) := by
  obtain ⟨c, q, r, t, h⟩ := exists_isDay hleast hgreatest
  refine ⟨100 * c + 4 * q + r, t, ?_, ?_, h.days, ?_, h.year, ?_, ?_⟩
  all_goals obtain ⟨heq, hc, hq, hr, ht, hlast⟩ := h
  · omega
  · omega
  · omega
  · have hfours : (100 * c + 4 * q + r) / 4 = 25 * c + q := by omega
    have hcenturies : (100 * c + 4 * q + r) / 100 = c := by omega
    omega
  · intro hlast
    omega

/-- The months of a year that starts in March, and the days in them. -/
lemma day_of_month {t : Int} {m n d : Nat} (hleast : 0 ≤ t) (hgreatest : t ≤ 365)
    (hm : (5 * t + 2) / 153 = m) (hn : (n : Int) = if (m : Int) < 10 then (m : Int) + 3 else m - 9)
    (hd : (d : Int) = t - (153 * (m : Int) + 2) / 5 + 1) {y : Int}
    (hleap : t = 365 → isLeapYear y = true) :
    1 ≤ n ∧ n ≤ 12 ∧ 1 ≤ d ∧ d ≤ daysInMonth y n ∧
      (((153 * (if n ≤ 2 then n + 9 else n - 3) + 2) / 5 + (d - 1) : Nat) : Int) = t := by
  have hmonth : (if n ≤ 2 then n + 9 else n - 3) = m := by
    split at hn <;> split <;> omega
  rw [hmonth]
  refine ⟨by split at hn <;> omega, by split at hn <;> omega, by omega, ?_, by omega⟩
  unfold daysInMonth
  split
  · next hfebruary =>
    have heleven : m = 11 := by split at hn <;> omega
    subst heleven
    split
    · omega
    · next hcommon =>
      have hlast : t ≠ 365 := fun h => hcommon (hleap h)
      omega
  · split
    · next hshort =>
      have hmonths : m = 1 ∨ m = 3 ∨ m = 6 ∨ m = 8 := by split at hn <;> omega
      omega
    · omega

/-- The date of a day. -/
lemma dateOfDays_spec (days : Int) :
    1 ≤ (dateOfDays days).2.1 ∧ (dateOfDays days).2.1 ≤ 12 ∧ 1 ≤ (dateOfDays days).2.2 ∧
      (dateOfDays days).2.2 ≤ daysInMonth (dateOfDays days).1 (dateOfDays days).2.1 ∧
      daysOfDate (dateOfDays days).1 (dateOfDays days).2.1 (dateOfDays days).2.2 = days := by
  obtain ⟨era, hera⟩ : ∃ era, era = (days + 719468) / 146097 := ⟨_, rfl⟩
  obtain ⟨e, he⟩ : ∃ e, e = (days + 719468) % 146097 := ⟨_, rfl⟩
  obtain ⟨y, t, hy, hy', ht, ht', hyear, hday, hlast⟩ :=
    exists_yearOfEra (e := e) (by omega) (by omega)
  have hofYear : e - (365 * y + y / 4 - y / 100) = t := by omega
  obtain ⟨m, hm⟩ : ∃ m : Nat, (5 * t + 2) / 153 = m := ⟨((5 * t + 2) / 153).toNat, by omega⟩
  obtain ⟨n, hn⟩ : ∃ n : Nat, (n : Int) = if (m : Int) < 10 then (m : Int) + 3 else m - 9 :=
    ⟨(if (m : Int) < 10 then (m : Int) + 3 else m - 9).toNat, by split <;> omega⟩
  obtain ⟨d, hd⟩ : ∃ d : Nat, (d : Int) = t - (153 * (m : Int) + 2) / 5 + 1 :=
    ⟨(t - (153 * (m : Int) + 2) / 5 + 1).toNat, by omega⟩
  obtain ⟨year, hyears⟩ : ∃ year, year = y + era * 400 + if (n : Int) ≤ 2 then 1 else 0 := ⟨_, rfl⟩
  have hleap : t = 365 → isLeapYear year = true := by
    intro hend
    obtain ⟨hfour, hcentury⟩ := hlast hend
    have hjanuary : (n : Int) = 2 := by
      have heleven : (m : Int) = 11 := by rw [← hm, hend]; rfl
      rw [hn, heleven]
      rfl
    have hnext : year = y + 1 + era * 400 := by
      rw [hyears, hjanuary, if_pos (le_refl 2)]
      ring
    clear hyear hofYear hday he hera hm hn hd
    unfold isLeapYear
    simp only [Bool.or_eq_true, Bool.and_eq_true, beq_iff_eq, bne_iff_ne]
    omega
  obtain ⟨hfirst, htwelve, hone, hlength, hsum⟩ := day_of_month ht ht' hm hn hd hleap
  have hdate : dateOfDays days = (year, n, d) := by
    unfold dateOfDays
    dsimp only
    rw [← hera, ← he, hyear, hofYear, hm, ← hn, ← hd, ← hyears]
    rfl
  rw [hdate]
  refine ⟨hfirst, htwelve, hone, hlength, ?_⟩
  have hmarch : (if n ≤ 2 then year - 1 else year) = y + era * 400 := by
    by_cases hjanuary : n ≤ 2
    · rw [if_pos hjanuary, hyears, if_pos (by exact_mod_cast hjanuary), Int.add_sub_cancel]
    · rw [if_neg hjanuary, hyears, if_neg (by exact_mod_cast hjanuary), Int.add_zero]
  unfold daysOfDate
  dsimp only
  rw [hmarch, hsum]
  have hdays : days + 719468 = era * 146097 + e := by
    rw [hera, he, Int.ediv_mul_add_emod]
  have heras : (y + era * 400) / 400 = era := by
    rw [Int.add_mul_ediv_right _ _ (by decide), Int.ediv_eq_zero_of_lt hy (by omega), Int.zero_add]
  have hyears : (y + era * 400) % 400 = y := by
    rw [Int.add_mul_emod_self_right, Int.emod_eq_of_lt hy (by omega)]
  rw [heras, hyears]
  linarith

end Recital.Instant

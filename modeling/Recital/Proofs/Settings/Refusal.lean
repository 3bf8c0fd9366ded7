import Recital.Proofs.Settings.Nesting
import Mathlib.Logic.Relation

/-!
# Refused includes

A file is visited when it is to be expanded; other files are being expanded at that time, each of
which includes the next one and the last of which includes the visited file (`Source.Nests`).  A
value fails where the first part of it that fails does, so an expansion is refused as circular if
one of the visits that it comes to is to a file that is being expanded already, and not otherwise
(`circular_iff`).
-/

namespace Recital.Settings

open Relation

variable {active : Active} {includes : Yaml → Loading Yaml} {env : Table String} {source : Source}
  {fuel : Nat} {path file name p : Path} {text : String} {y z : Yaml}

/-! ### The part of a value that fails -/

lemma map_eq_error_iff {α β : Type} {r : Except Error α} {f : α → β} {e : Error} :
    r.map f = .error e ↔ r = .error e := by
  cases r <;> simp [Except.map]

section Parts

variable (hincludes : ∀ y, Alike active (includes y) (includes y))

include hincludes

mutual

/-- A value that is refused includes a file that is refused, and everything before can be
expanded. -/
lemma exists_meets : (y : Yaml) → outcome (expand includes env y) active = .error (.circular p) →
    ∃ z, Meets includes env active z y ∧ outcome (includes z) active = .error (.circular p)
  | .tagged tag y => fun h => by
    by_cases hinclude : tag = "include"
    · rw [expand, if_pos hinclude] at h
      subst hinclude
      exact ⟨y, .named, h⟩
    · by_cases henv : tag = "env_var"
      · rw [expand, if_neg hinclude, if_pos henv] at h
        unfold variableValue at h
        split at h
        · dsimp only at h
          split at h <;> cases h
        · cases h
      · rw [outcome_tagged hincludes hinclude henv, map_eq_error_iff] at h
        obtain ⟨z, hmeets, hz⟩ := exists_meets y h
        exact ⟨z, .tagged hinclude henv hmeets, hz⟩
  | .seq items => fun h => by
    rw [outcome_seq hincludes, map_eq_error_iff] at h
    obtain ⟨before, y, after, values, z, rfl, hbefore, hmeets, hz⟩ := exists_meets_item items h
    exact ⟨z, .item hbefore hmeets, hz⟩
  | .map entries => fun h => by
    rw [outcome_map hincludes, map_eq_error_iff] at h
    obtain ⟨before, k, y, after, values, z, rfl, hbefore, hmeets, hz⟩ :=
      exists_meets_entry entries h
    exact ⟨z, .entry hbefore hmeets, hz⟩
  | .null | .bool _ | .int _ | .real _ | .str _ => fun h => by cases h

lemma exists_meets_item : (items : List Yaml) →
    outcome (expandItems includes env items) active = .error (.circular p) →
    ∃ before y after values z, items = before ++ y :: after ∧
      outcome (expandItems includes env before) active = .ok values ∧
      Meets includes env active z y ∧ outcome (includes z) active = .error (.circular p)
  | [] => fun h => by cases h
  | y :: items => fun h => by
    rw [outcome_cons hincludes] at h
    cases hy : outcome (expand includes env y) active with
    | error e =>
      rw [hy] at h
      cases h
      obtain ⟨z, hmeets, hz⟩ := exists_meets y hy
      exact ⟨[], y, items, [], z, rfl, rfl, hmeets, hz⟩
    | ok value =>
      rw [hy, Except.bind, map_eq_error_iff] at h
      obtain ⟨before, y', after, values, z, rfl, hbefore, hmeets, hz⟩ := exists_meets_item items h
      refine ⟨y :: before, y', after, value :: values, z, rfl, ?_, hmeets, hz⟩
      rw [outcome_cons hincludes, hy, hbefore]
      rfl

lemma exists_meets_entry : (entries : List (Yaml × Yaml)) →
    outcome (expandEntries includes env entries) active = .error (.circular p) →
    ∃ before k y after values z, entries = before ++ (k, y) :: after ∧
      outcome (expandEntries includes env before) active = .ok values ∧
      Meets includes env active z y ∧ outcome (includes z) active = .error (.circular p)
  | [] => fun h => by cases h
  | (k, y) :: entries => fun h => by
    rw [outcome_cons_entry hincludes] at h
    cases hy : outcome (expand includes env y) active with
    | error e =>
      rw [hy] at h
      cases h
      obtain ⟨z, hmeets, hz⟩ := exists_meets y hy
      exact ⟨[], k, y, entries, [], z, rfl, rfl, hmeets, hz⟩
    | ok value =>
      rw [hy, Except.bind, map_eq_error_iff] at h
      obtain ⟨before, k', y', after, values, z, rfl, hbefore, hmeets, hz⟩ :=
        exists_meets_entry entries h
      refine ⟨(k, y) :: before, k', y', after, (k, value) :: values, z, rfl, ?_, hmeets, hz⟩
      rw [outcome_cons_entry hincludes, hy, hbefore]
      rfl

end

end Parts

/-- A text is refused if a file that it includes is, and everything before can be expanded. -/
lemma expandText_eq_circular_iff :
    outcome (expandText (source.content fuel file) source.env file text) active =
        .error (.circular p) ↔
      ∃ y name, Yaml.parse? text = some y ∧
        Meets (source.content fuel file) source.env active (.str name.text) y ∧
        outcome (expandFile source fuel (includePath source.base file name)) active =
          .error (.circular p) := by
  unfold expandText
  constructor
  · intro h
    split at h
    · next y hparse =>
      obtain ⟨z, hmeets, hz⟩ := exists_meets alike_content y h
      cases z with
      | str name => exact ⟨y, ⟨name⟩, hparse, hmeets, hz⟩
      | _ => cases hz
    · cases h
  · rintro ⟨y, name, hparse, hmeets, hfile⟩
    rw [hparse]
    exact hmeets.fails alike_content hfile

/-! ### Visits -/

/-- A file is to be expanded: the fuel that is left, the files that are being expanded, and its
path. -/
structure Visit where
  fuel : Nat
  active : Active
  path : Path

/-- What a visit gives. -/
def Visit.gives (source : Source) (v : Visit) : Except Error Yaml :=
  outcome (expandFile source v.fuel v.path) v.active

/-- The visited file is being expanded already. -/
structure Visit.IsRefused (source : Source) (v : Visit) (p : Path) : Prop where
  fuel : v.fuel ≠ 0
  path : p = source.base.join v.path
  active : p.components ∈ v.active

/-- While a file is being expanded, one that it includes is visited, as everything before can be
expanded. -/
inductive Source.Nests (source : Source) : Visit → Visit → Prop
  | includes {fuel : Nat} {active : Active} {path name : Path} {text : String} {y : Yaml}
    (hnew : (source.base.join path).components ∉ active)
    (hread : source.tree.readPath source.cwd (source.base.join path) = .ok text)
    (hparse : Yaml.parse? text = some y)
    (hmeets : Meets (source.content fuel (source.base.join path)) source.env
      ((source.base.join path).components :: active) (.str name.text) y) :
    source.Nests ⟨fuel + 1, active, path⟩
      ⟨fuel, (source.base.join path).components :: active,
        includePath source.base (source.base.join path) name⟩

/-- A file is refused if it is being expanded already, or visits another one that is refused. -/
lemma Visit.gives_eq_circular_iff {v : Visit} : v.gives source = .error (.circular p) ↔
    v.IsRefused source p ∨ ∃ w, source.Nests v w ∧ w.gives source = .error (.circular p) := by
  obtain ⟨fuel, active, path⟩ := v
  unfold Visit.gives
  cases fuel with
  | zero =>
    refine iff_of_false (fun h => by cases h) ?_
    rintro (⟨hfuel, -, -⟩ | ⟨w, h, -⟩)
    · exact hfuel rfl
    · cases h
  | succ fuel =>
    dsimp only
    rw [outcome_expandFile]
    split
    · next hactive =>
      rw [List.contains_iff_mem] at hactive
      constructor
      · rintro ⟨⟩
        exact .inl ⟨Nat.succ_ne_zero _, rfl, hactive⟩
      · rintro (⟨-, rfl, -⟩ | ⟨w, ⟨hnew, -, -, -⟩, -⟩)
        · rfl
        · exact absurd hactive hnew
    · next hnew =>
      rw [List.contains_iff_mem] at hnew
      constructor
      · intro h
        split at h
        · cases h
        · next text hread =>
          obtain ⟨y, name, hparse, hmeets, hfile⟩ := expandText_eq_circular_iff.mp h
          exact .inr ⟨_, .includes hnew hread hparse hmeets, hfile⟩
      · rintro (⟨-, rfl, hactive⟩ | ⟨w, ⟨-, hread, hparse, hmeets⟩, hw⟩)
        · exact absurd hactive hnew
        · rw [hread]
          exact expandText_eq_circular_iff.mpr ⟨_, _, hparse, hmeets, hw⟩

/-- A file is refused if a visit that its expansion comes to is to a file that is being expanded. -/
theorem Visit.circular_iff {v : Visit} : v.gives source = .error (.circular p) ↔
    ∃ w, ReflTransGen source.Nests v w ∧ w.IsRefused source p := by
  constructor
  · intro h
    obtain ⟨fuel, hfuel⟩ : ∃ fuel, fuel = v.fuel := ⟨_, rfl⟩
    induction fuel generalizing v with
    | zero =>
      obtain ⟨hzero, -, -⟩ | ⟨w, hvw, -⟩ := gives_eq_circular_iff.mp h
      · exact absurd hfuel.symm hzero
      · cases hvw
        cases hfuel
    | succ fuel ih =>
      obtain hrefused | ⟨w, hvw, hw⟩ := gives_eq_circular_iff.mp h
      · exact ⟨v, .refl, hrefused⟩
      · have hless : fuel = w.fuel := by
          cases hvw
          exact Nat.succ.inj hfuel
        obtain ⟨x, hwx, hrefused⟩ := ih hw hless
        exact ⟨x, .head hvw hwx, hrefused⟩
  · rintro ⟨w, hvw, hrefused⟩
    induction hvw using ReflTransGen.head_induction_on with
    | refl => exact gives_eq_circular_iff.mpr (.inl hrefused)
    | head hstep _ ih => exact gives_eq_circular_iff.mpr (.inr ⟨_, hstep, ih⟩)

end Recital.Settings

import Mathlib.Logic.Relation
import Mathlib.Tactic.Common

/-!
# What every run comes to

A system that can go on in several ways comes to something inevitably if every sequence of its
steps is finite until it is there, and none gets stuck before.  This is how the end of a playback
is stated when nothing is known about when its steps are made.
-/

namespace Recital

variable {α : Type} {step step' : α → α → Prop} {Q R : α → Prop} {a b : α}

/-- Every run from a state comes to one with the property `Q`. -/
inductive Inevitably (step : α → α → Prop) (Q : α → Prop) : α → Prop
  /-- The state has the property. -/
  | here {a : α} : Q a → Inevitably step Q a
  /-- The state can go on, and wherever it goes the property is inevitable. -/
  | later {a : α} : (∃ b, step a b) → (∀ b, step a b → Inevitably step Q b) → Inevitably step Q a

namespace Inevitably

/-- What is inevitable on the way to something inevitable is inevitable. -/
lemma bind (h : Inevitably step Q a) (hQ : ∀ b, Q b → Inevitably step R b) :
    Inevitably step R a := by
  induction h with
  | here h => exact hQ _ h
  | later hex _ ih => exact .later hex ih

/-- A weaker property is inevitable as well. -/
lemma mono (h : Inevitably step Q a) (hQ : ∀ b, Q b → R b) : Inevitably step R a :=
  h.bind fun b hb => .here (hQ b hb)

/-- What each step keeps is kept until something inevitable. -/
lemma and_of_step {I : α → Prop} (h : Inevitably step Q a) (ha : I a)
    (hI : ∀ a b, I a → step a b → I b) : Inevitably step (fun b => Q b ∧ I b) a := by
  induction h with
  | here h => exact .here ⟨h, ha⟩
  | later hex _ ih => exact .later hex fun b hb => ih b hb (hI _ b ha hb)

/-- Inevitability does not depend on steps that no state on the way makes. -/
lemma of_step (h : Inevitably step Q a)
    (hstep : ∀ a b c, step a b → (step' a c ↔ step a c)) : Inevitably step' Q a := by
  induction h with
  | here h => exact .here h
  | @later a hex _ ih =>
    obtain ⟨b, hb⟩ := hex
    have hiff : ∀ c, step' a c ↔ step a c := fun c => hstep a b c hb
    exact .later ⟨b, (hiff b).mpr hb⟩ fun c hc => ih c ((hiff c).mp hc)

/-- Something inevitable is reached by some steps. -/
lemma reached (h : Inevitably step Q a) : ∃ b, Relation.ReflTransGen step a b ∧ Q b := by
  induction h with
  | @here a h => exact ⟨a, .refl, h⟩
  | later hex _ ih =>
    obtain ⟨b, hb⟩ := hex
    obtain ⟨c, hc, hQ⟩ := ih b hb
    exact ⟨c, .head hb hc, hQ⟩

/-- A property that holds from some state on along a run without end is not left for anything
inevitable. -/
lemma not_of_forever {I : α → Prop} (hI : ∀ a, I a → ¬ Q a ∧ ∃ b, step a b ∧ I b) (ha : I a) :
    ¬ Inevitably step Q a := by
  intro h
  induction h with
  | here h => exact (hI _ ha).1 h
  | later _ _ ih =>
    obtain ⟨-, b, hb, hIb⟩ := hI _ ha
    exact ih b hb hIb

end Inevitably

end Recital

import Recital.Proofs.Player.LastingChange
import Mathlib.Data.List.Induction

/-!
# A breakpoint that was hit lets its line through once

When a playback looks for a breakpoint and finds one, the breakpoint is released, and at the next
look the line is let through.  Between the two the context may be moved, its breakpoints may change,
and another script may be loaded.  A history of such acts (`Context.follow`) ends with a released
breakpoint exactly if some look in it has found the breakpoint and no later act has used up the
release or taken it back (`Context.released_follow_iff`).

Moving the cursor is not among the acts that take a release back, so a release can outlast a visit
of its line.  It cannot in a history that moves the cursor away from no line whose breakpoint is
released (`Context.Stays`): there the visit that was paused is the one that is let through.
-/

namespace Recital.Context

/-- What can be done with the place of a playback and with its breakpoints. -/
inductive Act
  | moveTo (index : Nat)
  | advance
  | pushFrame (f : Frame)
  | popFrame
  | addBreakpoint (index : Nat)
  | removeBreakpoint (index : Nat)
  | clearBreakpoints
  | lineFinished (index : Nat)
  | restore (s : Snapshot)
  | switchTo (script : Script) (labels : Table Nat)
  | resetFor (script : Script) (now : Nat)
  /-- Looks for a breakpoint at the cursor. -/
  | check

/-- The cursor alone is moved. -/
def Act.isMove : Act → Bool
  | moveTo _ | advance => true
  | _ => false

/-- The context after an act. -/
def act (c : Context) : Act → Context
  | .moveTo index => c.moveTo index
  | .advance => c.advance
  | .pushFrame f => c.pushFrame f
  | .popFrame => (c.popFrame.map (·.2)).getD c
  | .addBreakpoint index => c.addBreakpoint index
  | .removeBreakpoint index => c.removeBreakpoint index
  | .clearBreakpoints => c.clearBreakpoints
  | .lineFinished index => c.lineFinished index
  | .restore s => c.restore s
  | .switchTo script labels => c.switchTo script labels
  | .resetFor script now => c.resetFor script now
  | .check => c.takeBreakpoint.2

/-- The context after a history of acts. -/
def follow (c : Context) (acts : List Act) : Context := acts.foldl act c

/-- The act uses up the release of the breakpoint on a line, or takes it back. -/
def Spends (c : Context) (index : Nat) : Act → Prop
  | .removeBreakpoint n | .lineFinished n => n = index
  | .clearBreakpoints | .restore _ | .switchTo .. | .resetFor .. => True
  | .check => c.cursor ∈ c.breakpoints
  | _ => False

/-- None of the acts uses up the release or takes it back. -/
def Spares (c : Context) (index : Nat) : List Act → Prop
  | [] => True
  | a :: acts => ¬ c.Spends index a ∧ (c.act a).Spares index acts

/-- The cursor is moved away from no line whose breakpoint is released. -/
def Stays (c : Context) : List Act → Prop
  | [] => True
  | a :: acts =>
    (a.isMove = true → c.released = some c.cursor → (c.act a).cursor = c.cursor) ∧
      (c.act a).Stays acts

/-- The breakpoint of the line was hit, and the hit has been used up by nothing since. -/
def IsOwed (c : Context) (index : Nat) (acts : List Act) : Prop :=
  ∃ before after, acts = before ++ .check :: after ∧
    (c.follow before).takeBreakpoint.1 = some index ∧
    ((c.follow before).act .check).Spares index after

variable {c : Context} {a : Act} {acts before after : List Act} {index : Nat}

/-! ### Looking for a breakpoint -/

lemma takeBreakpoint_of_not_mem (h : c.cursor ∉ c.breakpoints) : c.takeBreakpoint = (none, c) := by
  unfold takeBreakpoint
  rw [if_pos (by simpa using h)]

/-- Where there is a breakpoint, the line is let through if the breakpoint is released. -/
lemma takeBreakpoint_of_mem (h : c.cursor ∈ c.breakpoints) :
    c.takeBreakpoint =
      if c.released = some c.cursor then (none, { c with released := none })
      else (some c.cursor, { c with released := some c.cursor }) := by
  unfold takeBreakpoint
  rw [if_neg (by simpa using h)]

/-- A breakpoint that is hit is the one at the cursor. -/
lemma takeBreakpoint_eq_some_iff : c.takeBreakpoint.1 = some index ↔
    c.cursor = index ∧ index ∈ c.breakpoints ∧ c.released ≠ some index := by
  by_cases hmem : c.cursor ∈ c.breakpoints
  · rw [takeBreakpoint_of_mem hmem]
    by_cases hreleased : c.released = some c.cursor
    · rw [if_pos hreleased]
      constructor
      · intro h
        cases h
      · rintro ⟨rfl, -, hnot⟩
        exact absurd hreleased hnot
    · rw [if_neg hreleased]
      constructor
      · intro h
        cases h
        exact ⟨rfl, hmem, hreleased⟩
      · rintro ⟨rfl, -, -⟩
        rfl
  · rw [takeBreakpoint_of_not_mem hmem]
    constructor
    · intro h
      cases h
    · rintro ⟨rfl, hmem', -⟩
      exact absurd hmem' hmem

lemma takeBreakpoint_eq_none_iff (h : c.cursor ∈ c.breakpoints) :
    c.takeBreakpoint.1 = none ↔ c.released = some c.cursor := by
  rw [takeBreakpoint_of_mem h]
  split <;> simp_all

/-! ### One act -/

lemma released_unrelease (c : Context) (index : Nat) :
    (c.unrelease index).released = c.released ∧ c.released ≠ some index ∨
      (c.unrelease index).released = none ∧ c.released = some index := by
  unfold unrelease
  split
  · next h => exact .inr ⟨rfl, h⟩
  · next h => exact .inl ⟨rfl, h⟩

@[simp] lemma cursor_unrelease : (c.unrelease index).cursor = c.cursor := by
  unfold unrelease
  split <;> rfl

@[simp] lemma breakpoints_unrelease : (c.unrelease index).breakpoints = c.breakpoints := by
  unfold unrelease
  split <;> rfl

lemma act_popFrame : ∃ frames, c.act .popFrame = { c with frames } := by
  simp only [act, popFrame]
  cases c.frames.getLast? with
  | none => exact ⟨c.frames, rfl⟩
  | some f => exact ⟨c.frames.dropLast, rfl⟩

/-- A breakpoint is released after an act exactly if the act has hit it, or if it was released
before and the act does not use that up. -/
lemma released_act (a : Act) : (c.act a).released = some index ↔
    a = .check ∧ c.takeBreakpoint.1 = some index ∨
      c.released = some index ∧ ¬ c.Spends index a := by
  have hunrelease (n : Nat) : (c.unrelease n).released = some index ↔
      c.released = some index ∧ ¬ n = index := by
    rcases c.released_unrelease n with ⟨h, hne⟩ | ⟨h, heq⟩
    · rw [h]
      constructor
      · intro hsome
        refine ⟨hsome, ?_⟩
        rintro rfl
        exact hne hsome
      · exact fun hsome => hsome.1
    · rw [h, heq]
      simp
  cases a with
  | moveTo | advance | pushFrame | addBreakpoint => simp [act, Spends, moveTo, advance, pushFrame,
      Context.addBreakpoint]
  | popFrame =>
    obtain ⟨frames, hframes⟩ := act_popFrame (c := c)
    simp [hframes, Spends]
  | removeBreakpoint n => simpa [act, Spends, Context.removeBreakpoint] using hunrelease n
  | lineFinished n => simpa [act, Spends, Context.lineFinished] using hunrelease n
  | clearBreakpoints | restore | switchTo | resetFor =>
    simp [act, Spends, Context.clearBreakpoints, Context.restore, switchTo, resetFor]
  | check =>
    simp only [act, Spends, true_and, takeBreakpoint_eq_some_iff]
    by_cases hmem : c.cursor ∈ c.breakpoints
    · rw [takeBreakpoint_of_mem hmem]
      split
      · next hreleased =>
        simp only [reduceCtorEq, false_iff, not_or, not_and, hmem, not_true, not_false_iff]
        refine ⟨?_, fun _ => trivial⟩
        rintro rfl -
        exact fun h => h hreleased
      · next hreleased =>
        simp only [Option.some.injEq, hmem, not_true, and_false, or_false]
        constructor
        · rintro rfl
          exact ⟨rfl, hmem, hreleased⟩
        · exact fun h => h.1
    · rw [takeBreakpoint_of_not_mem hmem]
      constructor
      · exact fun h => .inr ⟨h, hmem⟩
      · rintro (⟨rfl, hmem', -⟩ | h)
        · exact absurd hmem' hmem
        · exact h.1

/-! ### Histories -/

@[simp] lemma follow_nil : c.follow [] = c := rfl

@[simp] lemma follow_cons : c.follow (a :: acts) = (c.act a).follow acts := rfl

lemma follow_append : c.follow (before ++ after) = (c.follow before).follow after :=
  List.foldl_append

lemma spares_append : c.Spares index (before ++ after) ↔
    c.Spares index before ∧ (c.follow before).Spares index after := by
  induction before generalizing c with
  | nil => simp [Spares]
  | cons a before ih => simp [Spares, ih, and_assoc]

lemma stays_append :
    c.Stays (before ++ after) ↔ c.Stays before ∧ (c.follow before).Stays after := by
  induction before generalizing c with
  | nil => simp [Stays]
  | cons a before ih => simp only [List.cons_append, Stays, ih, follow_cons, and_assoc]

/-- A release lasts through acts that spare it. -/
lemma released_follow (h : c.released = some index) (hspares : c.Spares index acts) :
    (c.follow acts).released = some index := by
  induction acts generalizing c with
  | nil => exact h
  | cons a acts ih =>
    obtain ⟨hkept, hrest⟩ := hspares
    exact ih ((released_act a).mpr (.inr ⟨h, hkept⟩)) hrest

/-- A breakpoint is released at the end of a history exactly if it was hit in it and the hit has
been used up by nothing since. -/
lemma released_follow_iff (hc : c.released = none) :
    (c.follow acts).released = some index ↔ c.IsOwed index acts := by
  constructor
  · intro h
    induction acts using List.reverseRecOn with
    | nil =>
      rw [follow_nil, hc] at h
      cases h
    | append_singleton acts a ih =>
      rw [follow_append, follow_cons, follow_nil] at h
      rcases (released_act a).mp h with ⟨rfl, hhit⟩ | ⟨hold, hkept⟩
      · exact ⟨acts, [], rfl, hhit, trivial⟩
      · obtain ⟨before, after, rfl, hhit, hspares⟩ := ih hold
        refine ⟨before, after ++ [a], by simp, hhit, spares_append.mpr ⟨hspares, ?_, trivial⟩⟩
        rw [follow_append, follow_cons] at hkept
        exact hkept
  · rintro ⟨before, after, rfl, hhit, hspares⟩
    rw [follow_append, follow_cons]
    exact released_follow ((released_act _).mpr (.inl ⟨rfl, hhit⟩)) hspares

/-! ### Histories that stay -/

/-- The cursor stands on a line whose breakpoint is released. -/
structure IsHeld (c : Context) (index : Nat) : Prop where
  cursor : c.cursor = index
  mem : index ∈ c.breakpoints
  released : c.released = some index

/-- After a hit the cursor stands on the line. -/
lemma isHeld_check (h : c.takeBreakpoint.1 = some index) : (c.act .check).IsHeld index := by
  obtain ⟨rfl, hmem, hne⟩ := takeBreakpoint_eq_some_iff.mp h
  have hcheck : c.act .check = { c with released := some c.cursor } := by
    rw [act, takeBreakpoint_of_mem hmem, if_neg hne]
  rw [hcheck]
  exact ⟨rfl, hmem, rfl⟩

/-- As long as the release is spared and the cursor is not moved away, there is no further look. -/
lemma IsHeld.act (h : c.IsHeld index) (hspares : ¬ c.Spends index a)
    (hstays : a.isMove = true → c.released = some c.cursor → (c.act a).cursor = c.cursor) :
    a ≠ .check ∧ (c.act a).IsHeld index := by
  obtain ⟨rfl, hmem, hreleased⟩ := h
  have hkept : (c.act a).released = some c.cursor :=
    (released_act a).mpr (.inr ⟨hreleased, hspares⟩)
  cases a with
  | moveTo | advance => exact ⟨Act.noConfusion, hstays rfl hreleased, hmem, hkept⟩
  | pushFrame => exact ⟨Act.noConfusion, rfl, hmem, hkept⟩
  | popFrame =>
    obtain ⟨frames, hframes⟩ := act_popFrame (c := c)
    rw [hframes] at hkept ⊢
    exact ⟨Act.noConfusion, rfl, hmem, hkept⟩
  | addBreakpoint => exact ⟨Act.noConfusion, rfl, mem_insertMark.mpr (.inr hmem), hkept⟩
  | removeBreakpoint n =>
    have hne : c.cursor ≠ n := fun h => hspares h.symm
    exact ⟨Act.noConfusion, cursor_unrelease, by simpa [Context.act, Context.removeBreakpoint, hne],
      hkept⟩
  | lineFinished =>
    exact ⟨Act.noConfusion, cursor_unrelease, by simpa [Context.act, Context.lineFinished], hkept⟩
  -- These use the release up, and so does a look, since the cursor stands on the line.
  | clearBreakpoints | restore | switchTo | resetFor => exact absurd trivial hspares
  | check => exact absurd hmem hspares

lemma IsHeld.follow (h : c.IsHeld index) (hspares : c.Spares index acts) (hstays : c.Stays acts) :
    .check ∉ acts ∧ ∀ earlier later, acts = earlier ++ later →
    (c.follow earlier).cursor = index := by
  induction acts generalizing c with
  | nil =>
    refine ⟨List.not_mem_nil, fun earlier later heq => ?_⟩
    rw [(List.append_eq_nil_iff.mp heq.symm).1]
    exact h.cursor
  | cons a acts ih =>
    obtain ⟨hne, hact⟩ := h.act hspares.1 hstays.1
    obtain ⟨hnot, hcursor⟩ := ih hact hspares.2 hstays.2
    refine ⟨fun hmem => ?_, fun earlier later heq => ?_⟩
    · rcases List.mem_cons.mp hmem with heq | hmem
      · exact hne heq.symm
      · exact hnot hmem
    · cases earlier with
      | nil => exact h.cursor
      | cons b earlier =>
        obtain ⟨rfl, rfl⟩ := List.cons.inj heq
        exact hcursor earlier later rfl

/-- Where there is a breakpoint at the cursor, the line is let through exactly if the breakpoint was
hit before and the hit has been used up by nothing since: no further look at a breakpoint, no end of
the line, no removal, restoration or other script.  If the cursor was moved away from no line whose
breakpoint was released, then the hit was found by the latest look, and the cursor has not left the
line since. -/
theorem release_serves_the_visit_of_its_hit (hc : c.released = none) (acts : List Act)
    (hset : (c.follow acts).cursor ∈ (c.follow acts).breakpoints) :
    let index := (c.follow acts).cursor
    ((c.follow acts).takeBreakpoint.1 = none ↔ c.IsOwed index acts) ∧
      (c.Stays acts → (c.follow acts).takeBreakpoint.1 = none →
        ∃ before after, acts = before ++ .check :: after ∧
          (c.follow before).takeBreakpoint.1 = some index ∧ .check ∉ after ∧
          ∀ earlier later, after = earlier ++ later →
            (c.follow (before ++ .check :: earlier)).cursor = index) := by
  intro index
  have hiff : (c.follow acts).takeBreakpoint.1 = none ↔ c.IsOwed index acts :=
    (takeBreakpoint_eq_none_iff hset).trans (released_follow_iff hc)
  refine ⟨hiff, fun hstays hpass => ?_⟩
  obtain ⟨before, after, heq, hhit, hspares⟩ := hiff.mp hpass
  have hheld := isHeld_check hhit
  rw [heq] at hstays
  obtain ⟨hnot, hcursor⟩ := hheld.follow hspares (stays_append.mp hstays).2.2
  refine ⟨before, after, heq, hhit, hnot, fun earlier later hafter => ?_⟩
  rw [follow_append, follow_cons]
  exact hcursor earlier later hafter

/-- A breakpoint is hit, a subroutine is entered and left at its line, and the line is let
through. -/
def courtesy : List Act :=
  [.addBreakpoint 1, .moveTo 1, .check, .pushFrame ⟨2⟩, .popFrame, .addBreakpoint 4]

/-- The hit is found by the third act, and the cursor stays on line 1 from then on. -/
theorem courtesy_lets_line_through :
    (follow {} courtesy).cursor = 1 ∧ (follow {} courtesy).takeBreakpoint.1 = none ∧
      ∃ before after, courtesy = before ++ .check :: after ∧
        (follow {} before).takeBreakpoint.1 = some 1 ∧ .check ∉ after ∧
        ∀ earlier later, after = earlier ++ later →
          (follow {} (before ++ .check :: earlier)).cursor = 1 := by
  have hset : (follow {} courtesy).cursor ∈ (follow {} courtesy).breakpoints := by decide
  have hpass : (follow {} courtesy).takeBreakpoint.1 = none := by decide
  have hstays : Stays {} courtesy := by
    simp [courtesy, Stays, Act.isMove, act, takeBreakpoint, addBreakpoint, insertMark, moveTo]
  exact ⟨rfl, hpass, (release_serves_the_visit_of_its_hit rfl courtesy hset).2 hstays hpass⟩

end Recital.Context

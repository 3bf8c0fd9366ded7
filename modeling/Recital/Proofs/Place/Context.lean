import Recital.Context
import Recital.Proofs.Script.Builtin

/-!
# Places in a script

A playback stands at a place in its script: at a cursor, with the return addresses of the
subroutines that it is in.  A jump to a label, a return and the restoration of a snapshot move the
cursor without asking whether there is such a line.  That they lead to a line or to the end of the
script follows from an invariant of the context, which is stated here:

* the cursor is on a line or at the end of the script;
* each return address is the line after a subroutine call of the script that is loaded;
* each label leads to a line that carries it.

A snapshot fits a context when restoring it keeps the invariant.  Both notions depend on the loaded
script, so that a context that has changed to another script has to start over.
-/

namespace Recital

/-- The line calls a subroutine. -/
def Line.IsGosub (line : Line) : Prop :=
  ∃ source label, line = .command source (some (.gosub label))

namespace Context

/-- The line of the loaded script with the given index. -/
def line? (c : Context) (index : Nat) : Option Line := c.script.bind (·.line? index)

/-- A frame that returns to the line after a subroutine call of the loaded script. -/
def IsReturn (c : Context) (f : Frame) : Prop :=
  ∃ index line, c.line? index = some line ∧ line.IsGosub ∧ f.returnLine = index + 1

/-- A context whose cursor, return addresses and labels belong to the loaded script. -/
structure IsSound (c : Context) : Prop where
  /-- The cursor is on a line or at the end of the script. -/
  cursor_le : c.cursor ≤ c.lineCount
  /-- Each return address follows a subroutine call. -/
  isReturn : ∀ f ∈ c.frames, c.IsReturn f
  /-- Each label leads to a line that carries it. -/
  carries : ∀ name index, c.labels.get? name = some index →
    index < c.lineCount ∧ ∃ line, c.line? index = some line ∧ line.label? = some name

end Context

/-- A snapshot of the loaded script, at a place that belongs to it. -/
structure Snapshot.Fits (s : Snapshot) (c : Context) : Prop where
  /-- The snapshot is one of a script with the name of the loaded one. -/
  name : c.scriptName? = some s.scriptName
  /-- The cursor is on a line or at the end of the script. -/
  cursor_le : s.cursor ≤ c.lineCount
  /-- Each return address follows a subroutine call. -/
  isReturn : ∀ f ∈ s.frames, c.IsReturn f

namespace Context

variable {c d : Context} {f : Frame} {index : Nat}

/-! ### The loaded script -/

/-- A line that is there comes before the end of the script. -/
lemma lt_lineCount_of_line? {line : Line} (h : c.line? index = some line) :
    index < c.lineCount := by
  unfold line? at h
  obtain ⟨script, hscript, hline⟩ := Option.bind_eq_some_iff.mp h
  have hlt : index < script.lines.length := (List.getElem?_eq_some_iff.mp hline).1
  simpa [lineCount, hscript, Script.size] using hlt

/-- A return address is on a line or at the end of the script. -/
lemma IsReturn.returnLine_le (h : c.IsReturn f) : f.returnLine ≤ c.lineCount := by
  obtain ⟨index, line, hline, -, hreturn⟩ := h
  have hlt := lt_lineCount_of_line? hline
  omega

/-- Return addresses depend on the loaded script only. -/
lemma IsReturn.of_script (hscript : d.script = c.script) (h : c.IsReturn f) : d.IsReturn f := by
  unfold IsReturn line? at h ⊢
  rwa [hscript]

lemma lineCount_of_script (hscript : d.script = c.script) : d.lineCount = c.lineCount := by
  unfold lineCount
  rw [hscript]

lemma line?_of_script (hscript : d.script = c.script) : d.line? index = c.line? index := by
  unfold line?
  rw [hscript]

end Context

/-- What fits a context fits every one with the same script. -/
lemma Snapshot.Fits.of_script {c d : Context} {s : Snapshot} (hscript : d.script = c.script)
    (h : s.Fits c) : s.Fits d := by
  refine ⟨?_, ?_, fun f hf => (h.isReturn f hf).of_script hscript⟩
  · unfold Context.scriptName?
    rw [hscript]
    exact h.name
  · rw [Context.lineCount_of_script hscript]
    exact h.cursor_le

namespace Context

variable {c d : Context} {f : Frame} {index : Nat} {s : Snapshot}

/-! ### Changes that keep the place -/

/-- The part of a context that says where the playback stands. -/
def bare (c : Context) : Context :=
  { script := c.script, cursor := c.cursor, labels := c.labels, frames := c.frames }

lemma script_of_bare (hbare : d.bare = c.bare) : d.script = c.script :=
  (congrArg Context.script hbare : d.bare.script = c.bare.script)

/-- Soundness depends on where the playback stands only. -/
lemma IsSound.of_bare (hbare : d.bare = c.bare) (hc : c.IsSound) : d.IsSound := by
  have hsound : c.bare.IsSound := ⟨hc.cursor_le, hc.isReturn, hc.carries⟩
  rw [← hbare] at hsound
  exact ⟨hsound.cursor_le, hsound.isReturn, hsound.carries⟩

@[simp] lemma bare_unrelease : (c.unrelease index).bare = c.bare := by
  unfold unrelease
  split <;> rfl

@[simp] lemma bare_lineFinished : (c.lineFinished index).bare = c.bare := bare_unrelease

@[simp] lemma bare_removeBreakpoint : (c.removeBreakpoint index).bare = c.bare := by
  have hunreleased : (c.unrelease index).bare = c.bare := bare_unrelease
  exact hunreleased

@[simp] lemma bare_takeBreakpoint : c.takeBreakpoint.2.bare = c.bare := by
  unfold takeBreakpoint
  split
  · rfl
  · split <;> rfl

/-! ### Changes of the place -/

/-- The cursor may be moved to any line and to the end of the script. -/
lemma IsSound.moveTo (hc : c.IsSound) (hindex : index ≤ c.lineCount) : (c.moveTo index).IsSound :=
  ⟨hindex, hc.isReturn, hc.carries⟩

/-- A return address may be left by a subroutine call. -/
lemma IsSound.pushFrame (hc : c.IsSound) (hf : c.IsReturn f) : (c.pushFrame f).IsSound := by
  refine ⟨hc.cursor_le, fun g hg => ?_, hc.carries⟩
  rcases List.mem_append.mp hg with hold | hnew
  · exact hc.isReturn g hold
  · rw [List.mem_singleton.mp hnew]
    exact hf

/-- The return address that is taken follows a subroutine call. -/
lemma IsSound.popFrame (hc : c.IsSound) (h : c.popFrame = some (f, d)) :
    d.IsSound ∧ d.script = c.script ∧ f.returnLine ≤ d.lineCount := by
  unfold Context.popFrame at h
  obtain ⟨g, hlast, hpair⟩ := Option.map_eq_some_iff.mp h
  obtain ⟨rfl, rfl⟩ := Prod.mk.inj hpair
  have hmem : g ∈ c.frames := List.mem_of_getLast? hlast
  refine ⟨⟨hc.cursor_le, fun x hx => hc.isReturn x ?_, hc.carries⟩, rfl,
    (hc.isReturn g hmem).returnLine_le⟩
  exact List.dropLast_subset _ hx

/-- A flow action that is resolved keeps to the script.  The cursor stays where it is for the next
line to be gone on to. -/
lemma IsSound.resolve {flow : Flow} {r : Resolution} (hc : c.IsSound)
    (h : c.resolve flow = .ok (r, d)) :
    d.IsSound ∧ d.script = c.script ∧
      (r = .advance ∨ (∃ name, r = .call name) → d.cursor = c.cursor) := by
  cases flow with
  | next =>
    cases h
    exact ⟨hc, rfl, fun _ => rfl⟩
  | toLine index =>
    simp only [Context.resolve] at h
    split at h
    · next hlt =>
      cases h
      exact ⟨hc.moveTo (Nat.le_of_lt hlt), rfl, by simp⟩
    · cases h
  | toLabel label =>
    simp only [Context.resolve] at h
    split at h
    · next index hget =>
      cases h
      exact ⟨hc.moveTo (Nat.le_of_lt (hc.carries label index hget).1), rfl, by simp⟩
    · cases h
  | stop reason =>
    cases h
    exact ⟨hc, rfl, fun _ => rfl⟩
  | back =>
    simp only [Context.resolve] at h
    split at h
    · next frame e hpop =>
      cases h
      obtain ⟨hsound, hscript, hle⟩ := hc.popFrame hpop
      exact ⟨hsound.moveTo hle, hscript, by simp⟩
    · cases h
      exact ⟨hc.moveTo (Nat.le_refl _), rfl, by simp⟩
  | call script =>
    cases h
    exact ⟨hc, rfl, fun _ => rfl⟩

/-- Returning at the end of the script keeps to it, whatever the number of returns. -/
lemma IsSound.implicitReturn (depth : Nat) (hc : c.IsSound) :
    (implicitReturn depth c).IsSound ∧ (implicitReturn depth c).script = c.script := by
  induction depth generalizing c with
  | zero => exact ⟨hc, rfl⟩
  | succ depth ih =>
    unfold Context.implicitReturn
    split
    · exact ⟨hc, rfl⟩
    · split
      · next frame d hpop =>
        obtain ⟨hsound, hscript, hle⟩ := hc.popFrame hpop
        obtain ⟨hreturned, hsame⟩ := ih (hsound.moveTo hle)
        exact ⟨hreturned, hsame.trans hscript⟩
      · exact ⟨hc, rfl⟩

lemma IsSound.settleCursor (hc : c.IsSound) :
    c.settleCursor.IsSound ∧ c.settleCursor.script = c.script :=
  hc.implicitReturn _

/-! ### Snapshots -/

/-- A snapshot that fits may be restored. -/
lemma IsSound.restore (hc : c.IsSound) (hs : s.Fits c) : (c.restore s).IsSound :=
  ⟨hs.cursor_le, hs.isReturn, hc.carries⟩

/-- A snapshot that is taken fits. -/
lemma IsSound.fits {at_ : Instant} (hc : c.IsSound) (h : c.snapshot? at_ = some s) : s.Fits c := by
  unfold snapshot? at h
  obtain ⟨script, hscript, rfl⟩ := Option.map_eq_some_iff.mp h
  refine ⟨?_, hc.cursor_le, hc.isReturn⟩
  simp [scriptName?, hscript]

/-! ### Scripts -/

/-- A script that is loaded anew is played from its start. -/
lemma isSound_resetFor (c : Context) (script : Script) (now : Nat) :
    (c.resetFor script now).IsSound := by
  refine ⟨Nat.zero_le _, fun f hf => absurd hf List.not_mem_nil, fun name index hget => ?_⟩
  cases hget

/-- The labels of a script lead to its lines. -/
lemma IsSound.withLabels {script : Script} (hc : c.IsSound) (hscript : c.script = some script) :
    { c with labels := script.survey.labels }.IsSound := by
  refine ⟨hc.cursor_le, hc.isReturn, fun name index hget => ?_⟩
  obtain ⟨hlt, hcarries⟩ := Script.label?_of_survey hget
  simpa [lineCount, line?, hscript] using And.intro hlt hcarries

/-- The playback continues at the start of another script. -/
lemma isSound_switchTo (c : Context) (script : Script) :
    (c.switchTo script script.survey.labels).IsSound := by
  refine ⟨Nat.zero_le _, fun f hf => absurd hf List.not_mem_nil, fun name index hget => ?_⟩
  exact Script.label?_of_survey hget

end Context

end Recital

import Recital.Proofs.Player.Course
import Recital.Proofs.Script.Labels

/-!
# How a flow action is carried out

A flow action of a line is carried out in full or not at all.  Where it leads is said here in terms
of the script alone (`Context.Moves`), and so is what it may fail for (`Player.Strays`).  The labels
of a context are a table beside its script, so this takes that the table is the one of the script's
survey (`Context.IsSurveyed`).

A call takes two steps.  The first one looks for the loader and changes nothing; the second one,
which may be made much later and of a playback that requests have changed meanwhile, loads the
script, surveys it, and only then continues in it (`Player.TakesUp`).  Whichever step fails hands
over the very player it was given to the end of a line that has failed.
-/

namespace Recital

/-- The defects of a survey are a fault of the script. -/
lemma Survey.exists_fault? {s : Survey} (script : String) (h : s.defects ≠ []) :
    ∃ fault, s.fault? script = some fault := by
  unfold fault?
  cases hdefects : s.defects with
  | nil => exact absurd hdefects h
  | cons first rest => exact ⟨_, rfl⟩

namespace Context

variable {c d : Context} {flow : Flow} {by_ : LineEnd}

/-- The labels are those that a survey of the script finds. -/
def IsSurveyed (c : Context) : Prop :=
  c.labels = (c.script.map fun script => script.survey.labels).getD ∅

/-- Where a flow action that can be carried out leaves a context, and what then follows the line.
Calls are left to the player. -/
inductive Moves (c : Context) : Flow → Context → LineEnd → Prop
  | next : c.Moves .next { c with cursor := c.cursor + 1 } .next
  | toLine {index : Nat} (h : index < c.lineCount) :
    c.Moves (.toLine index) { c with cursor := index } .next
  | toLabel {script : Script} {label : String} {index : Nat} (hscript : c.script = some script)
    (hname : label ≠ "") (hindex : script.lineOf? label = some index) :
    c.Moves (.toLabel label) { c with cursor := index } .next
  | stop (reason : String) : c.Moves (.stop reason) c (.finished (.stopped reason))
  | back {frames : List Frame} {frame : Frame} (h : c.frames = frames ++ [frame]) :
    c.Moves .back { c with cursor := frame.returnLine, frames } .next
  | complete (h : c.frames = []) :
    c.Moves .back { c with cursor := c.lineCount } (.finished .completed)

/-- A table of labels that is the one of the script's survey holds the first line of each label that
has a name. -/
lemma IsSurveyed.get?_labels (h : c.IsSurveyed) (label : String) :
    c.labels.get? label =
      if label = "" then none else c.script.bind fun script => script.lineOf? label := by
  rw [h]
  cases c.script with
  | none => split <;> rfl
  | some script =>
    split
    · next hname => exact hname ▸ Survey.get?_visitAll_empty _ _ _ rfl
    · next hname => exact Script.get?_survey hname

/-- A jump that can be carried out leads to a line of the script. -/
lemma Moves.cursor_lt (h : c.Moves flow d by_)
    (hjump : (∃ index, flow = .toLine index) ∨ ∃ label, flow = .toLabel label) :
    d.cursor < d.lineCount := by
  cases h with
  | toLine h => exact h
  | toLabel hscript _ hindex =>
    have hlt := (Script.label?_of_lineOf? hindex).1
    show _ < (c.script.map Script.size).getD 0
    rwa [hscript]
  | next | stop | back | complete =>
    obtain ⟨_, h⟩ | ⟨_, h⟩ := hjump <;> cases h

end Context

namespace Player

variable {p q : Player} {w : Work} {flow : Flow} {recovered : Bool}

/-- A flow action that cannot be carried out: a jump past the lines or to a label that no line
carries, or a call without a loader. -/
inductive Strays (p : Player) : Flow → Prop
  | toLine {index : Nat} (h : p.context.lineCount ≤ index) : p.Strays (.toLine index)
  | toLabel {label : String} (h : label ≠ "" → ∀ script, p.context.script = some script →
      script.lineOf? label = none) : p.Strays (.toLabel label)
  | call (h : p.host.loader = none) (script : String) : p.Strays (.call script)

/-- A script that was loaded is one to continue in, as far as its defects matter. -/
def Accepts (p : Player) (script : Script) : Prop :=
  p.tolerance.refuseDefects = true → script.survey.defects = []

/-- The player continues in a script, called by that name in the run of the caller: at its first
line and with its labels, with nothing to return to and no breakpoint let through, while variables,
breakpoints and counters are kept.  The checkpoint is the start of the script, and no line has spent
anything. -/
structure TakesUp (name : String) (caller : Run) (script : Script) (p q : Player) : Prop where
  context : q.context =
    { p.context with
      script := some script, labels := script.survey.labels, cursor := 0, frames := []
      released := none }
  recovery : q.recovery =
    { p.recovery with checkpoint := q.context.snapshot? (Instant.ofMillis p.now) }
  spent : q.spent = {}
  run : q.run = caller.child p.serial
  bus : q.bus = p.bus.publish ⟨.scriptStarted name, Instant.ofMillis p.now, q.run⟩
  /-- Nothing else is different. -/
  rest : q =
    { p with
      context := q.context, recovery := q.recovery, spent := q.spent, run := q.run, bus := q.bus
      serial := p.serial + 1, attempts := {} }

/-! ### Actions within the script -/

/-- A flow action that moves the context moves it, changes nothing else, and ends the line. -/
lemma applyFlow_of_moves {c : Context} {by_ : LineEnd} (h : p.context.IsSurveyed)
    (hmoves : p.context.Moves flow c by_) :
    p.applyFlow w flow recovered = { p with context := c }.closeDone w recovered by_ := by
  unfold applyFlow Context.resolve
  cases hmoves with
  | next | stop => rfl
  | toLine hindex => simp only [if_pos hindex]; rfl
  | @toLabel script label index hscript hname hindex =>
    have hfound : p.context.labels.get? label = some index := by
      rw [h.get?_labels, if_neg hname, hscript, Option.bind_some, hindex]
    simp only [hfound]
    rfl
  | @back frames frame hframes =>
    have hpop : p.context.popFrame = some (frame, { p.context with frames }) := by
      simp [Context.popFrame, hframes]
    simp only [hpop]
    rfl
  | complete hframes =>
    have hpop : p.context.popFrame = none := by simp [Context.popFrame, hframes]
    simp only [hpop]
    rfl

/-- A flow action that cannot be carried out fails the line of the same player. -/
lemma applyFlow_of_strays (h : p.context.IsSurveyed) (hstrays : p.Strays flow) :
    ∃ fault, p.applyFlow w flow recovered = p.closeFailed w fault := by
  unfold applyFlow Context.resolve
  cases hstrays with
  | toLine hindex =>
    simp only [if_neg (Nat.not_lt.mpr hindex)]
    exact ⟨_, rfl⟩
  | @toLabel label hlabel =>
    have hnone : p.context.labels.get? label = none := by
      rw [h.get?_labels]
      split
      · rfl
      · next hname =>
        exact Option.bind_eq_none_iff.mpr fun script hscript => hlabel hname script hscript
    simp only [hnone]
    exact ⟨_, rfl⟩
  | call hloader =>
    simp only [hloader]
    exact ⟨_, rfl⟩

/-- A flow action can be carried out, goes astray, or is a call that there is a loader for. -/
lemma moves_or_strays (p : Player) (flow : Flow) :
    (∃ c by_, p.context.Moves flow c by_) ∨ p.Strays flow ∨
      ∃ name load, flow = .call name ∧ p.host.loader = some load := by
  cases flow with
  | next => exact .inl ⟨_, _, .next⟩
  | stop reason => exact .inl ⟨_, _, .stop reason⟩
  | toLine index =>
    by_cases h : index < p.context.lineCount
    · exact .inl ⟨_, _, .toLine h⟩
    · exact .inr (.inl (.toLine (Nat.le_of_not_lt h)))
  | toLabel label =>
    by_cases h : label ≠ "" → ∀ script, p.context.script = some script → script.lineOf? label = none
    · exact .inr (.inl (.toLabel h))
    · push Not at h
      obtain ⟨hname, script, hscript, hindex⟩ := h
      obtain ⟨index, hindex⟩ := Option.ne_none_iff_exists'.mp hindex
      exact .inl ⟨_, _, .toLabel hscript hname hindex⟩
  | back =>
    obtain hframes | ⟨frames, frame, hframes⟩ := List.eq_nil_or_concat p.context.frames
    · exact .inl ⟨_, _, .complete hframes⟩
    · exact .inl ⟨_, _, .back (hframes.trans List.concat_eq_append)⟩
  | call name =>
    cases hloader : p.host.loader with
    | none => exact .inr (.inl (.call hloader name))
    | some load => exact .inr (.inr ⟨name, load, rfl, rfl⟩)

/-! ### Calls -/

/-- A call that there is a loader for changes nothing at first. -/
lemma applyFlow_call_of_loader {name : String} {load : String → Except LoadError Script}
    (h : p.host.loader = some load) :
    p.applyFlow w (.call name) recovered = (p, .goes (.switching w p.run name recovered)) := by
  unfold applyFlow Context.resolve
  simp only [h]

/-- The player that continues in a script. -/
lemma takesUp_enter (p : Player) (caller : Run) (name : String) (script : Script) :
    p.TakesUp name caller script (p.enter caller name script script.survey.labels) where
  context := rfl
  recovery := rfl
  spent := rfl
  run := rfl
  bus := rfl
  rest := rfl

/-- A script that is loaded and accepted is continued in. -/
lemma switchScript_of_accepts {caller : Run} {name : String} {script : Script}
    {load : String → Except LoadError Script} (hloader : p.host.loader = some load)
    (hload : load name = .ok script) (haccepts : p.Accepts script) :
    p.switchScript w caller name recovered =
      (p.enter caller name script script.survey.labels).closeDone w recovered .next := by
  have hfault : (if p.tolerance.refuseDefects then script.survey.fault? name else none) = none := by
    split
    · next hrefuse => simp [Survey.fault?, haccepts hrefuse]
    · rfl
  have hfetch : p.fetch w name = .ok (script, script.survey.labels) := by
    simp only [fetch, hloader, hload, hfault]
  rw [switchScript, hfetch]

/-- A script that cannot be loaded, or is not accepted, fails the line of the same player. -/
lemma switchScript_of_not_accepts {caller : Run} {name : String}
    {load : String → Except LoadError Script} (hloader : p.host.loader = some load)
    (hload : ∀ script, load name = .ok script → ¬ p.Accepts script) :
    ∃ fault, p.switchScript w caller name recovered = p.closeFailed w fault := by
  have hfetch : ∃ fault, p.fetch w name = .error fault := by
    simp only [fetch, hloader]
    cases hfound : load name with
    | error e => exact ⟨_, rfl⟩
    | ok script =>
      obtain ⟨hrefuse, hdefects⟩ := Classical.not_imp.mp (hload script hfound)
      obtain ⟨fault, hfault⟩ := Survey.exists_fault? name hdefects
      simp only [if_pos hrefuse, hfault]
      exact ⟨fault, rfl⟩
  obtain ⟨fault, hfetch⟩ := hfetch
  exact ⟨fault, by rw [switchScript, hfetch]⟩

/-! ### Everything or nothing -/

/-- A flow action is carried out in full or not at all, in a playback whose labels are those of its
script.

An action that leads somewhere moves the context there and changes nothing else of the player, and a
jump leads to a line of the script.  An action that goes astray changes nothing: it is the player as
it was that the line fails for.  A call changes nothing either until its script has been loaded,
however much the player has changed before that is tried; if the script is had and accepted, the
player continues in it, and otherwise the line fails for the player as it then was.  There is no
other action. -/
theorem flow_is_carried_out_or_changes_nothing (h : p.context.IsSurveyed) (w : Work) (flow : Flow)
    (recovered : Bool) :
    (∀ c by_, p.context.Moves flow c by_ →
      p.applyFlow w flow recovered = { p with context := c }.closeDone w recovered by_ ∧
        ((∃ index, flow = .toLine index) ∨ (∃ label, flow = .toLabel label) →
          c.cursor < c.lineCount)) ∧
    (p.Strays flow → ∃ fault, p.applyFlow w flow recovered = p.closeFailed w fault) ∧
    (∀ name load, flow = .call name → p.host.loader = some load →
      p.applyFlow w flow recovered = (p, .goes (.switching w p.run name recovered)) ∧
        ∀ q : Player, q.host = p.host →
          (∀ script, load name = .ok script → q.Accepts script →
            ∃ r, q.TakesUp name p.run script r ∧
              q.stepLine (.switching w p.run name recovered) = r.closeDone w recovered .next) ∧
          ((∀ script, load name = .ok script → ¬ q.Accepts script) →
            ∃ fault, q.stepLine (.switching w p.run name recovered) = q.closeFailed w fault)) ∧
    ((∃ c by_, p.context.Moves flow c by_) ∨ p.Strays flow ∨
      ∃ name load, flow = .call name ∧ p.host.loader = some load) := by
  refine ⟨fun c by_ hmoves => ⟨applyFlow_of_moves h hmoves, hmoves.cursor_lt⟩,
    applyFlow_of_strays h, ?_, p.moves_or_strays flow⟩
  rintro name load rfl hloader
  refine ⟨applyFlow_call_of_loader hloader, fun q hhost => ⟨fun script hload haccepts => ?_, ?_⟩⟩
  · exact ⟨_, q.takesUp_enter p.run name script,
      switchScript_of_accepts (hhost ▸ hloader) hload haccepts⟩
  · exact switchScript_of_not_accepts (hhost ▸ hloader)

/-! ### A medley -/

/-- Three lines with a label, and two variations on other sheets. -/
def theme : Script := ⟨"theme", [.text "one", .text "#coda", .text "end"]⟩

/-- The only variation that can be had. -/
def variation : Script := ⟨"variation", [.text "again"]⟩

/-- A player in the theme, with something to return to. -/
def medley : Player :=
  { host :=
      { loader := some fun name =>
          if name = "variation" then .ok variation else .error (.notFound name) }
    bus := { capacity := 16 }
    context :=
      { script := some theme, labels := theme.survey.labels, frames := [⟨2⟩], linesExecuted := 3 } }

/-- The first line of the theme. -/
def toccata : Work :=
  { index := 0, source := "one", script := "theme", run := medley.run, token := ⟨0, false⟩ }

/-- The medley jumps to its coda.  When it has called for the variation and somebody sets a
breakpoint before that is loaded, it continues in the variation and keeps the breakpoint; a
variation that is not there leaves it as it is. -/
theorem medley_goes_on : medley.context.IsSurveyed ∧
    medley.context.Moves (.toLabel "coda") { medley.context with cursor := 1 } .next ∧
    medley.applyFlow toccata (.toLabel "coda") false =
      { medley with context := { medley.context with cursor := 1 } }.closeDone toccata false .next ∧
    (∃ r : Player, r.context.script = some variation ∧ r.context.frames = [] ∧
      r.context.breakpoints = [5] ∧
      r.context.linesExecuted = 3 ∧
      { medley with context := medley.context.addBreakpoint 5 }.stepLine
        (.switching toccata medley.run "variation" false) = r.closeDone toccata false .next) ∧
    ∃ fault, medley.stepLine (.switching toccata medley.run "bis" false) =
      medley.closeFailed toccata fault := by
  have hsurveyed : medley.context.IsSurveyed := rfl
  have hcoda : medley.context.Moves (.toLabel "coda") { medley.context with cursor := 1 } .next :=
    .toLabel rfl (by decide) rfl
  obtain ⟨hjumps, -, -, -⟩ :=
    flow_is_carried_out_or_changes_nothing hsurveyed toccata (.toLabel "coda") false
  obtain ⟨-, -, hcalls, -⟩ :=
    flow_is_carried_out_or_changes_nothing hsurveyed toccata (.call "variation") false
  obtain ⟨-, -, hmisses, -⟩ :=
    flow_is_carried_out_or_changes_nothing hsurveyed toccata (.call "bis") false
  obtain ⟨r, htakes, hstep⟩ := ((hcalls "variation" _ rfl rfl).2
    { medley with context := medley.context.addBreakpoint 5 } rfl).1 variation rfl fun _ => rfl
  refine ⟨hsurveyed, hcoda, (hjumps _ _ hcoda).1, ⟨r, ?_, ?_, ?_, ?_, hstep⟩,
    ((hmisses "bis" _ rfl rfl).2 medley rfl).2 nofun⟩ <;> rw [htakes.context] <;> rfl

end Player

end Recital

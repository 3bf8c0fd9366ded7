import Recital.Proofs.Machine.Basic
import Recital.Proofs.Player.Line
import Recital.Proofs.Script.Builtin

/-!
# Playing as the machine reads

An undisturbed playback goes the way of the script machine: each round of its loop makes one turn of
it.  `Context.Shows` relates where a playback stands to a state of the machine, and
`Player.Agrees` relates a playback to a performance.

A round follows the machine for every configuration of the player as long as nothing goes wrong
with the line: its command takes no longer than it may, and the text can be shown.
-/

namespace Recital

/-- The playback stands where the machine does. -/
structure Context.Shows (c : Context) (m : Machine) : Prop where
  script : c.script = some m.script
  cursor : c.cursor = m.pc
  labels : c.labels = m.script.survey.labels
  frames : c.frames = (m.stack.map Frame.mk).reverse
  vars : c.vars = m.vars
  breakpoints : c.breakpoints = []

namespace Context.Shows

variable {c : Context} {m : Machine}

lemma lineCount (h : c.Shows m) : c.lineCount = m.script.size := by
  simp [Context.lineCount, h.script]

lemma scriptName (h : c.Shows m) : c.scriptName = m.script.name := by
  simp [Context.scriptName, Context.scriptName?, h.script]

lemma currentLine (h : c.Shows m) : c.currentLine = m.script.line? m.pc := by
  simp [Context.currentLine, h.script, h.cursor]

/-- The latest return address is on top of the stack. -/
lemma popFrame_cons {line : Nat} {stack : List Nat} (h : c.Shows m)
    (hstack : m.stack = line :: stack) :
    c.popFrame = some (⟨line⟩, { c with frames := (stack.map Frame.mk).reverse }) := by
  simp [popFrame, h.frames, hstack]

/-- There is no return address on an empty stack. -/
lemma popFrame_nil (h : c.Shows m) (hstack : m.stack = []) : c.popFrame = none := by
  simp [popFrame, h.frames, hstack]

/-- Moving the cursor moves the machine. -/
lemma moveTo (h : c.Shows m) (line : Nat) : (c.moveTo line).Shows (m.moveTo line) :=
  ⟨h.script, rfl, h.labels, h.frames, h.vars, h.breakpoints⟩

lemma advance (h : c.Shows m) : c.advance.Shows m.next := by
  have hmove := h.moveTo (c.cursor + 1)
  rw [h.cursor] at hmove
  unfold Context.advance Machine.next
  rw [h.cursor]
  exact hmove

/-- Past the end of a script, playback and machine return to the same line. -/
lemma implicitReturn {stack : List Nat} (h : c.Shows { m with stack }) :
    (c.implicitReturn stack.length).Shows (m.unwindAlong stack) := by
  induction stack generalizing c m with
  | nil => exact h
  | cons line stack ih =>
    have hcan : c.canContinue = decide (m.pc < m.script.size) := by
      rw [canContinue, h.lineCount, h.cursor]
    rw [List.length_cons, Context.implicitReturn, hcan, Machine.unwindAlong,
      h.popFrame_cons rfl]
    by_cases hpc : m.pc < m.script.size
    · rw [if_pos hpc, if_pos (decide_eq_true hpc)]
      exact h
    · rw [if_neg hpc, if_neg (by simpa using hpc)]
      exact ih ⟨h.script, rfl, h.labels, rfl, h.vars, h.breakpoints⟩

lemma settleCursor (h : c.Shows m) : c.settleCursor.Shows m.unwind := by
  have hlength : c.frames.length = m.stack.length := by simp [h.frames]
  rw [Context.settleCursor, hlength]
  exact implicitReturn h

/-- The counters of a playback are not part of the machine. -/
lemma recordLine (h : c.Shows m) : c.recordLine.Shows m :=
  ⟨h.script, h.cursor, h.labels, h.frames, h.vars, h.breakpoints⟩

lemma recordCommand (h : c.Shows m) : c.recordCommand.Shows m :=
  ⟨h.script, h.cursor, h.labels, h.frames, h.vars, h.breakpoints⟩

lemma lineFinished (h : c.Shows m) (index : Nat) : (c.lineFinished index).Shows m := by
  unfold Context.lineFinished Context.unrelease
  split
  · exact ⟨h.script, h.cursor, h.labels, h.frames, h.vars, h.breakpoints⟩
  · exact h

end Context.Shows

/-! ### Flow actions and commands -/

/-- Resolving a flow action takes the playback where a turn takes the machine. -/
inductive Context.Carries (find : String → Option Script) (c : Context) :
    Flow → Machine.Turn → Prop
  | goes {flow : Flow} {resolution : Context.Resolution} {resolved context : Context} {m : Machine}
    (resolves : c.resolve flow = .ok (resolution, resolved))
    (goesTo : resolution.goesTo? resolved = some context) (shows : context.Shows m)
    (lines : context.linesExecuted = c.linesExecuted)
    (commands : context.commandsExecuted = c.commandsExecuted) :
    Context.Carries find c flow (.goes m)
  | ends {flow : Flow} {resolution : Context.Resolution} {context : Context} {m : Machine}
    {finish : Finish} {halt : Machine.Halt}
    (resolves : c.resolve flow = .ok (resolution, context))
    (finishes : resolution.finish? = some finish) (shows : context.Shows m)
    (outcome : finish.outcome = halt.outcome) (line : finish.line? = halt.line?)
    (lines : context.linesExecuted = c.linesExecuted)
    (commands : context.commandsExecuted = c.commandsExecuted) :
    Context.Carries find c flow (.halts m halt)
  | calls {name : String} {script : Script} {m : Machine} (finds : find name = some script)
    (shows : c.Shows m) :
    Context.Carries find c (.call name) (.enters { script, vars := c.vars })
  | fails {flow : Flow} {fault : Fault} {m : Machine}
    (refuses : c.resolve flow = .error fault) (shows : c.Shows m) :
    Context.Carries find c flow m.fails
  | misses {name : String} {m : Machine} (finds : find name = none) (shows : c.Shows m) :
    Context.Carries find c (.call name) m.fails

namespace Context.Shows

variable {c : Context} {m : Machine} {find : String → Option Script}

/-- Going on with the next line. -/
lemma carries_next (h : c.Shows m) : c.Carries find .next (.goes m.next) :=
  .goes rfl rfl h.advance rfl rfl

/-- Going to a target. -/
lemma carries_ofTarget (find : String → Option Script) {target : Target} (h : c.Shows m)
    (hbuiltin : (Command.jump target).IsBuiltin) :
    c.Carries find (.ofTarget target) (m.goTo (m.lineAt? target)) := by
  cases target with
  | line index =>
    by_cases hlt : index < m.script.size
    · have hresolve : c.resolve (.toLine index) = .ok (.jumped index, c.moveTo index) := by
        simp only [resolve, h.lineCount, if_pos hlt]
      simp only [Machine.lineAt?, if_pos hlt, Machine.goTo]
      exact .goes hresolve rfl (h.moveTo index) rfl rfl
    · obtain ⟨fault, hresolve⟩ : ∃ fault, c.resolve (.toLine index) = .error fault := by
        simp only [resolve, h.lineCount, if_neg hlt]
        exact ⟨_, rfl⟩
      simp only [Machine.lineAt?, if_neg hlt, Machine.goTo]
      exact .fails hresolve h
  | label label =>
    have hlabels : c.labels.get? label = m.script.lineOf? label := by
      rw [h.labels, Script.get?_survey hbuiltin]
    cases hline : m.script.lineOf? label with
    | some index =>
      rw [hline] at hlabels
      have hresolve : c.resolve (.toLabel label) = .ok (.jumped index, c.moveTo index) := by
        simp only [resolve, hlabels]
      simp only [Machine.lineAt?, hline, Machine.goTo]
      exact .goes hresolve rfl (h.moveTo index) rfl rfl
    | none =>
      rw [hline] at hlabels
      obtain ⟨fault, hresolve⟩ : ∃ fault, c.resolve (.toLabel label) = .error fault := by
        simp only [resolve, hlabels]
        exact ⟨_, rfl⟩
      simp only [Machine.lineAt?, hline, Machine.goTo]
      exact .fails hresolve h

/-- Returning. -/
lemma carries_back (h : c.Shows m) : c.Carries find .back (m.execute find .back) := by
  cases hstack : m.stack with
  | nil =>
    have hresolve : c.resolve .back = .ok (.completed, c.moveTo c.lineCount) := by
      simp only [resolve, h.popFrame_nil hstack]
    have hshows : (c.moveTo c.lineCount).Shows (m.moveTo m.script.size) := by
      rw [h.lineCount]
      exact h.moveTo _
    simp only [Machine.execute, hstack]
    exact .ends hresolve rfl hshows rfl rfl rfl rfl
  | cons line stack =>
    have hresolve : c.resolve .back = .ok (.returned line,
        Context.moveTo { c with frames := (stack.map Frame.mk).reverse } line) := by
      simp only [resolve, h.popFrame_cons hstack]
    simp only [Machine.execute, hstack]
    exact .goes hresolve rfl ⟨h.script, rfl, h.labels, rfl, h.vars, h.breakpoints⟩ rfl rfl

/-- Calling a script. -/
lemma carries_call (h : c.Shows m) (name : String) :
    c.Carries find (.call name) (m.execute find (.call name)) := by
  simp only [Machine.execute]
  cases hfind : find name with
  | some script =>
    rw [← h.vars]
    exact .calls hfind h
  | none => exact .misses hfind h

/-- An attempt of a built-in command succeeds, and then takes the playback where the command takes
the machine; only a `gosub` whose label is missing fails, and changes nothing. -/
lemma executes (find : String → Option Script) {command : Command} (h : c.Shows m)
    (hbuiltin : command.IsBuiltin) (n : Nat) (script : String) :
    (∃ m₁ flow context,
      (command.attempt n (c.view m.pc script)).effects.foldl (·.affect m.pc script) c = context ∧
      context.Shows m₁ ∧ context.linesExecuted = c.linesExecuted ∧
      context.commandsExecuted = c.commandsExecuted ∧
      command.conclude (command.attempt n (c.view m.pc script)).verdict = .ok flow ∧
      ∀ d : Context, d.Shows m₁ → d.Carries find flow (m.execute find command)) ∨
    ∃ label detail, command = .gosub label ∧ m.execute find command = m.fails ∧
      command.attempt n (c.view m.pc script) =
        { verdict := .error (.invalidArgument detail) } := by
  cases command with
  | assign name value =>
    have hshows : (c.assign name value).Shows { m with vars := m.vars.insert name value } :=
      ⟨h.script, h.cursor, h.labels, h.frames, by rw [← h.vars]; rfl, h.breakpoints⟩
    exact .inl ⟨_, .next, _, rfl, hshows, rfl, rfl, rfl, fun d hd => hd.carries_next⟩
  | clear =>
    have hshows : c.clearVariables.Shows { m with vars := ∅ } :=
      ⟨h.script, h.cursor, h.labels, h.frames, rfl, h.breakpoints⟩
    exact .inl ⟨_, .next, _, rfl, hshows, rfl, rfl, rfl, fun d hd => hd.carries_next⟩
  | wait ms => exact .inl ⟨_, .next, _, rfl, h, rfl, rfl, rfl, fun d hd => hd.carries_next⟩
  | log message => exact .inl ⟨_, .next, _, rfl, h, rfl, rfl, rfl, fun d hd => hd.carries_next⟩
  | jump target =>
    exact .inl ⟨_, .ofTarget target, _, rfl, h, rfl, rfl, rfl,
      fun d hd => hd.carries_ofTarget find hbuiltin⟩
  | back => exact .inl ⟨_, .back, _, rfl, h, rfl, rfl, rfl, fun d hd => hd.carries_back⟩
  | stop reason =>
    exact .inl ⟨_, .stop reason, _, rfl, h, rfl, rfl, rfl,
      fun d hd => .ends rfl (show _ = some (.stopped reason) from rfl) hd rfl rfl rfl rfl⟩
  | call name =>
    exact .inl ⟨_, .call name, _, rfl, h, rfl, rfl, rfl, fun d hd => hd.carries_call name⟩
  | custom type structured behaviour => exact absurd hbuiltin id
  | gosub label =>
    have hlabels : c.labels.get? label = m.script.lineOf? label := by
      rw [h.labels, Script.get?_survey hbuiltin]
    cases hline : m.script.lineOf? label with
    | some index =>
      rw [hline] at hlabels
      have hattempt : (Command.gosub label).attempt n (c.view m.pc script) =
          { effects := [.push (m.pc + 1)], verdict := .ok (.ofFlow (.toLabel label)) } := by
        simp [Command.attempt, view, Table.contains, hlabels]
      have hshows : (c.pushFrame ⟨m.pc + 1⟩).Shows { m with stack := (m.pc + 1) :: m.stack } :=
        ⟨h.script, h.cursor, h.labels, by simp [pushFrame, h.frames], h.vars, h.breakpoints⟩
      rw [hattempt]
      refine .inl ⟨_, .toLabel label, _, rfl, hshows, rfl, rfl, rfl, fun d hd => ?_⟩
      have htarget : (Command.jump (.label label)).IsBuiltin := hbuiltin
      have hjump := hd.carries_ofTarget find htarget
      simp only [Machine.lineAt?, hline] at hjump
      simp only [Machine.execute, hline]
      exact hjump
    | none =>
      rw [hline] at hlabels
      refine .inr ⟨label, "label not found: " ++ label, rfl, ?_, ?_⟩
      · simp only [Machine.execute, hline]
      · simp [Command.attempt, view, Table.contains, hlabels]

end Context.Shows

/-- An attempt of a built-in command takes a span of time. -/
lemma Command.IsBuiltin.exists_lasts {command : Command} (h : command.IsBuiltin) (n : Nat)
    (view : View) : ∃ span, (command.attempt n view).pace = .lasts span := by
  cases command with
  | custom => exact absurd h id
  | gosub label =>
    unfold Command.attempt
    dsimp only
    split <;> exact ⟨_, rfl⟩
  | assign | clear | jump | back | stop | wait | log | call => exact ⟨_, rfl⟩

/-- A built-in command takes the same time whenever it is attempted. -/
lemma Command.IsBuiltin.pace_eq {command : Command} (h : command.IsBuiltin) (n n' : Nat)
    (view view' : View) : (command.attempt n view).pace = (command.attempt n' view').pace := by
  cases command with
  | custom => exact absurd h id
  | gosub label =>
    have hzero : ∀ v, ((Command.gosub label).attempt n v).pace = .lasts .zero := by
      intro v
      unfold Command.attempt
      dsimp only
      split <;> rfl
    exact (hzero view).trans (hzero view').symm
  | assign | clear | jump | back | stop | wait | log | call => rfl

/-- A command that fails leaves the machine where it is. -/
lemma Machine.execute_failed {find : String → Option Script} {m m' : Machine} {command : Command}
    {line : Nat} (h : m.execute find command = .halts m' (.failed line)) :
    m' = m ∧ line = m.pc := by
  have hfails : ∀ turn : Turn, turn = m.fails → turn = .halts m' (.failed line) →
      m' = m ∧ line = m.pc := by
    rintro turn rfl hturn
    cases hturn
    exact ⟨rfl, rfl⟩
  cases command with
  | assign | clear | wait | log | stop => cases h
  | custom => exact hfails _ rfl h
  | jump target =>
    simp only [execute] at h
    cases htarget : m.lineAt? target with
    | some index => rw [htarget] at h; cases h
    | none => rw [htarget] at h; exact hfails _ rfl h
  | gosub label =>
    simp only [execute] at h
    cases hlabel : m.script.lineOf? label with
    | some index => rw [hlabel] at h; cases h
    | none => rw [hlabel] at h; exact hfails _ rfl h
  | back =>
    simp only [execute] at h
    cases hstack : m.stack with
    | cons index stack => rw [hstack] at h; cases h
    | nil => rw [hstack] at h; cases h
  | call name =>
    simp only [execute] at h
    cases hfind : find name with
    | some script => rw [hfind] at h; cases h
    | none => rw [hfind] at h; exact hfails _ rfl h

/-- Noting that a line was executed changes no counter. -/
lemma Context.lineFinished_counts (c : Context) (index : Nat) :
    (c.lineFinished index).linesExecuted = c.linesExecuted ∧
      (c.lineFinished index).commandsExecuted = c.commandsExecuted := by
  unfold Context.lineFinished Context.unrelease
  split <;> exact ⟨rfl, rfl⟩

/-- Returning past the end of a script changes no counter. -/
lemma Context.implicitReturn_counts (c : Context) (depth : Nat) :
    (c.implicitReturn depth).linesExecuted = c.linesExecuted ∧
      (c.implicitReturn depth).commandsExecuted = c.commandsExecuted := by
  induction depth generalizing c with
  | zero => exact ⟨rfl, rfl⟩
  | succ depth ih =>
    unfold Context.implicitReturn
    split
    · exact ⟨rfl, rfl⟩
    · split
      · next frame d hpop =>
        obtain ⟨hlines, hcommands⟩ := ih (d.moveTo frame.returnLine)
        obtain ⟨f, -, hf⟩ := Option.map_eq_some_iff.mp hpop
        cases hf
        exact ⟨hlines, hcommands⟩
      · exact ⟨rfl, rfl⟩

/-! ### Rounds -/

/-- The script that a call leads to. -/
def Host.find (h : Host) (name : String) : Option Script :=
  match h.loader with
  | none => none
  | some load => match load name with
    | .error _ => none
    | .ok script =>
      if h.config.tolerance.refuseDefects && (script.survey.fault? name).isSome then none
      else some script

/-- How far ahead a timer for a span is set. -/
def Span.ticks (d : Span) : Nat :=
  if Nat.pow 2 63 ≤ d.secs then Player.horizon else d.millisUp

lemma Player.timer_eq (p : Player) (span : Span) : p.timer span = p.now + span.ticks := rfl

/-- Nothing goes wrong with a line in itself: its text can be shown, or its command takes no longer
than it may. -/
def Line.GoesWell (host : Host) : Line → Prop
  | .text source => ∀ presenter text, host.presenter = some presenter →
      TextKind.ofText source = .narrative text → presenter.respond text = .ok ()
  | .command _ (some c) => ∀ n view span, (c.attempt n view).pace = .lasts span →
      span.ticks ≤ (host.policy c.type).timeout.ticks
  | .command _ none => True

/-- The configuration of the host is the default one. -/
structure Host.Plain (h : Host) : Prop where
  config : h.config = {}
  registry : h.registry = {}

lemma Host.Plain.policy {h : Host} (hplain : h.Plain) (type : String) : h.policy type = {} := by
  rw [Host.policy, hplain.registry]
  rfl

/-- A player with the given host can follow the next turn of the machine: nothing goes wrong with
the line in itself, and a line that fails asks for the default configuration. -/
structure Performance.Playable (host : Host) (r : Performance) : Prop where
  builtin : r.machine.script.IsBuiltin
  names : ∀ name script, host.find name = some script → script.name = name
  well : ∀ line, r.machine.unwind.script.line? r.machine.unwind.pc = some line →
    line.GoesWell host
  plain : ∀ line m index, r.machine.unwind.script.line? r.machine.unwind.pc = some line →
    r.machine.unwind.read host.find line = .halts m (.failed index) → host.Plain

namespace Player

variable {id : Nat} {token : Token} {play : Play} {host : Host}
  {course before : List Milestone} {r : Performance} {p q : Player} {w : Work}
    {c : Player × Progress}

/-- A call finds the script that the host finds. -/
lemma fetch_eq {name : String} {script : Script} (h : p.host.find name = some script) :
    p.fetch w name = .ok (script, script.survey.labels) := by
  unfold Host.find at h
  unfold fetch
  cases hload : p.host.loader with
  | none =>
    rw [hload] at h
    cases h
  | some load =>
    rw [hload] at h
    dsimp only at h ⊢
    cases hfound : load name with
    | error e =>
      rw [hfound] at h
      cases h
    | ok found =>
      rw [hfound] at h
      dsimp only at h ⊢
      split at h
      · cases h
      · next hfault =>
        cases h
        have hnone : (if p.tolerance.refuseDefects then script.survey.fault? name else none) =
            none := by
          split
          · next hrefuse =>
            cases hf : script.survey.fault? name with
            | none => rfl
            | some fault =>
              refine absurd ?_ hfault
              rw [hf]
              simpa [tolerance] using hrefuse
          · rfl
        rw [hnone]

/-- A call fails if the host does not find its script. -/
lemma fetch_eq_error {name : String} (h : p.host.find name = none) :
    ∃ fault, p.fetch w name = .error fault := by
  unfold Host.find at h
  unfold fetch
  cases hload : p.host.loader with
  | none => exact ⟨_, rfl⟩
  | some load =>
    rw [hload] at h
    dsimp only at h ⊢
    cases hfound : load name with
    | error e => exact ⟨_, rfl⟩
    | ok script =>
      rw [hfound] at h
      dsimp only at h ⊢
      split at h
      · next hfault =>
        obtain ⟨hrefuse, hsome⟩ := Bool.and_eq_true_iff.mp hfault
        obtain ⟨fault, hf⟩ := Option.isSome_iff_exists.mp hsome
        have htolerance : p.tolerance.refuseDefects = true := hrefuse
        rw [if_pos htolerance, hf]
        exact ⟨fault, rfl⟩
      · cases h

/-- The playback goes on undisturbed, and its course is the given one. -/
structure OnCourse (id : Nat) (token : Token) (host : Host) (course : List Milestone) (p : Player) :
    Prop where
  undisturbed : Undisturbed id token p
  host : p.host = host
  closed : p.bus.closed = false
  course : p.bus.course = course

/-- The lines of a playback and what they do keep it on a course. -/
lemma OnCourse.of_core {context : Context} {recovery : Recovery} {spent : Tally} {run : Run}
    {serial : Nat} {course' : List Milestone} (h : OnCourse id token host course p)
    (hcore : q.core = { p.core with context, recovery, spent, run, serial })
    (hcourse : q.bus.course = course') : OnCourse id token host course' q where
  undisturbed := h.undisturbed.of_core hcore
  host := (congrArg Player.host hcore).trans h.host
  closed := (congrArg (·.bus.closed) hcore).trans h.closed
  course := hcourse

/-- A command is launched where the playback stands, with a view of the line that the machine is
at. -/
lemma OnCourse.launched {n : Nat} {attempt : Attempt} {command : Command} {m : Machine} {o : Player}
    {course : List Milestone} (hp : OnCourse id token host course p) (hindex : w.index = m.pc)
    (hwaits : q.gist = { p.gist with state := .waiting })
    (hattempt : attempt = command.attempt n (q.context.view w.index w.script))
    (hgist : o.gist = { q with
      context := attempt.effects.foldl (·.affect w.index w.script) q.context }.gist) :
    OnCourse id token host course o ∧ o.state = .waiting ∧
      o.context = attempt.effects.foldl (·.affect m.pc w.script) p.context ∧
      attempt = command.attempt n (p.context.view m.pc w.script) := by
  have hcore : q.core = p.core := congrArg Gist.core hwaits
  have hcontext : q.context = p.context := (congrArg Player.context hcore).trans rfl
  have hcore' := congrArg Gist.core hgist
  have hq := hp.of_core hcore ((congrArg Gist.course hwaits).trans hp.course)
  rw [← hcontext, ← hindex]
  exact ⟨hq.of_core hcore' ((congrArg Gist.course hgist).trans hq.course),
    (congrArg Gist.state hgist).trans (congrArg Gist.state hwaits),
    (congrArg Player.context hcore').trans rfl, hattempt⟩

/-- A playback agrees with a performance: it stands where the machine does, has come the same way
after what came before, and goes on or has ended as the machine does. -/
structure Agrees (id : Nat) (host : Host) (before : List Milestone) (r : Performance)
    (c : Player × Progress) : Prop where
  shows : c.1.context.Shows r.machine
  course : c.1.bus.course = before ++ r.course
  counts : (∀ line, r.halt ≠ some (.failed line)) →
    c.1.context.linesExecuted = r.lines ∧ c.1.context.commandsExecuted = r.commands
  going : r.halt = none → ∃ play, c.2 = .goes (.playLock play) ∧ c.1.state = .playing ∧
    OnCourse id play.token host (before ++ r.course) c.1
  ended : ∀ halt, r.halt = some halt → ∃ report, c.2 = .ends (.report report) ∧
    report.outcome = halt.outcome ∧ report.lineIndex = halt.line? ∧
    report.scriptName = r.machine.script.name ∧
    report.linesExecuted = c.1.context.linesExecuted ∧
    report.commandsExecuted = c.1.context.commandsExecuted

/-- A playback that agrees with a performance is at the head of its loop or has ended. -/
lemma Agrees.settled (h : Agrees id host before r c) :
    c.2.isLoopHead = true ∨ c.2.isEnded = true := by
  cases hhalt : r.halt with
  | none =>
    obtain ⟨play, hc, -⟩ := h.going hhalt
    rw [hc]
    exact .inl rfl
  | some halt =>
    obtain ⟨report, hc, -⟩ := h.ended halt hhalt
    rw [hc]
    exact .inr rfl

/-- A performance that a playback in progress agrees with has not halted. -/
lemma Agrees.halt_eq_none_of_goes {phase : Phase} (h : Agrees id host before r c)
    (hc : c.2 = .goes phase) : r.halt = none := by
  cases hhalt : r.halt with
  | none => rfl
  | some halt =>
    obtain ⟨report, hended, -⟩ := h.ended halt hhalt
    rw [hc] at hended
    cases hended

lemma Agrees.halt_eq_none (h : Agrees id host before r c) (hhead : c.2.isLoopHead = true) :
    r.halt = none := by
  cases hhalt : r.halt with
  | none => rfl
  | some halt =>
    obtain ⟨report, hended, -⟩ := h.ended halt hhalt
    rw [hended] at hhead
    cases hhead

/-- A performance that a playback that has ended agrees with has halted. -/
lemma Agrees.exists_halt (h : Agrees id host before r c) (hend : c.2.isEnded = true) :
    ∃ halt, r.halt = some halt := by
  cases hhalt : r.halt with
  | some halt => exact ⟨halt, rfl⟩
  | none =>
    obtain ⟨play, hc, -⟩ := h.going hhalt
    rw [hc] at hend
    cases hend

lemma Agrees.ne_blocked (h : Agrees id host before r c) : c.2 ≠ .blocked := by
  intro hc
  rcases h.settled with hhead | hend
  · rw [hc] at hhead
    cases hhead
  · rw [hc] at hend
    cases hend

/-- A playback that has come round agrees with a performance that goes on. -/
lemma agrees_of_returned (hq : OnCourse id token host (before ++ r.course) q)
    (hstate : q.state = .playing) (hshows : q.context.Shows r.machine)
    (hlines : q.context.linesExecuted = r.lines)
    (hcommands : q.context.commandsExecuted = r.commands) (hhalt : r.halt = none)
    (hc : Returned id token q c) : Agrees id host before r c := by
  obtain ⟨q', play', recovery, rfl, htoken, hgist, -⟩ := hc
  have hcore : q'.core = { q.core with recovery, lineLock := { holder := some id } } :=
    congrArg Gist.core hgist
  have hcontext : q'.context = q.context := (congrArg Player.context hcore).trans rfl
  have hcourse : q'.bus.course = before ++ r.course := (congrArg Gist.course hgist).trans hq.course
  have hundisturbed : Undisturbed id token q' :=
    { lock := (congrArg Player.lineLock hcore).trans rfl
      deferred := (congrArg Player.deferred hcore).trans hq.undisturbed.deferred
      pause := (congrArg Player.pauseRequested hcore).trans hq.undisturbed.pause
      going := (congrArg (·.isCancelled token) hcore).trans hq.undisturbed.going }
  have honcourse : OnCourse id play'.token host (before ++ r.course) q' := by
    rw [htoken]
    exact
      { undisturbed := hundisturbed
        host := (congrArg Player.host hcore).trans hq.host
        closed := (congrArg (·.bus.closed) hcore).trans hq.closed
        course := hcourse }
  exact
    { shows := by rw [hcontext]; exact hshows
      course := hcourse
      counts := fun _ => by rw [hcontext]; exact ⟨hlines, hcommands⟩
      going := fun _ => ⟨play', rfl, (congrArg Gist.state hgist).trans hstate, honcourse⟩
      ended := fun halt hsome => by rw [hhalt] at hsome; cases hsome }

/-- A playback that has ended agrees with a performance that has halted. -/
lemma agrees_of_reported {finish : Finish} {halt : Machine.Halt} {report : Report}
    (hcourse : p.bus.course = before ++ r.course) (hshows : p.context.Shows r.machine)
    (hcounts : (∀ line, r.halt ≠ some (.failed line)) →
      p.context.linesExecuted = r.lines ∧ p.context.commandsExecuted = r.commands)
    (hhalt : r.halt = some halt) (houtcome : finish.outcome = halt.outcome)
    (hline : finish.line? = halt.line?) (hc : Reported p finish c report) :
    Agrees id host before r c where
  shows := by rw [hc.context]; exact hshows
  course := hc.course.trans hcourse
  counts := by rw [hc.context]; exact hcounts
  going := fun hnone => by rw [hhalt] at hnone; cases hnone
  ended := by
    intro halt' hhalt'
    rw [hhalt] at hhalt'
    cases hhalt'
    refine ⟨report, hc.progress, hc.outcome.trans houtcome, hc.line.trans hline, ?_, ?_, ?_⟩
    · rw [hc.scriptName, hshows.scriptName]
    · rw [hc.lines, hc.context]
    · rw [hc.commands, hc.context]

/-- A line that is given up ends the playback where faults are not passed over. -/
lemma leads_fails {fault : Fault} {m : Machine} {line : Line} {index : Nat}
    (hp : OnCourse id play.token host (before ++ (r.course ++ [.line index])) p)
    (hstate : p.state = .playing) (hstrict : host.config.tolerance.continueOnError = false)
    (hindex : w.index = index) (hshows : p.context.Shows m) (hpc : m.pc = index) :
    Leads id play (Agrees id host before (r.record index line m.fails))
    (p.closeFailed w fault) := by
  have htolerance : p.tolerance.continueOnError = false := by
    rw [tolerance, hp.host]
    exact hstrict
  refine leads_closeFailed hp.undisturbed hstate ?_ ?_
  · intro hpass
    rw [htolerance] at hpass
    cases hpass
  · intro _ c report hreport
    refine agrees_of_reported hp.course hshows ?_ rfl rfl ?_ hreport
    · intro hnot
      exact absurd rfl (hnot m.pc)
    · rw [hindex, ← hpc]
      rfl

/-- The flow action of a line leads where the turn of the machine does. -/
lemma leads_carries {flow : Flow} {turn : Machine.Turn} {line : Line} {index : Nat}
    (hp : OnCourse id play.token host (before ++ (r.course ++ [.line index])) p)
    (hstate : p.state = .playing) (hlines : p.context.linesExecuted = Word.next 64 r.lines)
    (hcommands : p.context.commandsExecuted = line.countOn r.commands) (hhalt : r.halt = none)
    (hindex : w.index = index)
    (hstrict : ∀ m line, turn = .halts m (.failed line) →
      host.config.tolerance.continueOnError = false ∧ m.pc = index)
    (hnames : ∀ name script, host.find name = some script → script.name = name)
    (hcarries : p.context.Carries host.find flow turn) :
    Leads id play (Agrees id host before (r.record index line turn))
      (p.applyFlow w flow false) := by
  cases hcarries with
  | @goes flow resolution resolved context m hresolve hgoes hshows hlines' hcommands' =>
    refine leads_applyFlow hp.undisturbed hstate hresolve hgoes fun c hc => ?_
    have hmoved : OnCourse id play.token host (before ++ (r.course ++ [.line index]))
        { p with context } := hp.of_core (q := { p with context }) rfl hp.course
    exact agrees_of_returned (q := { p with context }) hmoved hstate hshows
      (hlines'.trans hlines) (hcommands'.trans hcommands) hhalt hc
  | @ends flow resolution context m finish halt hresolve hfinish hshows houtcome hline hlines'
      hcommands' =>
    refine leads_applyFlow_finished hp.undisturbed.pause hresolve hfinish fun c report hc => ?_
    exact agrees_of_reported (p := { p with context }) hp.course hshows
      (fun _ => ⟨hlines'.trans hlines, hcommands'.trans hcommands⟩) rfl houtcome hline hc
  | @calls name script m hfind hshows =>
    have hpfind : p.host.find name = some script := by rw [hp.host]; exact hfind
    obtain ⟨load, hload⟩ : ∃ load, p.host.loader = some load := by
      cases hloader : p.host.loader with
      | none => simp [Host.find, hloader] at hpfind
      | some load => exact ⟨load, rfl⟩
    refine leads_applyFlow_call hload (fun _ => Agrees.ne_blocked) fun now => ?_
    have hlater : OnCourse id play.token host (before ++ (r.course ++ [.line index]))
        (p.at_ now) := hp.of_core rfl hp.course
    refine leads_switchScript (p := p.at_ now) hlater.undisturbed hstate hlater.closed
      (fetch_eq hpfind) fun q c recovery run serial hgist hc => ?_
    have hcore := congrArg Gist.core hgist
    have hcontext : q.context = p.context.switchTo script script.survey.labels :=
      (congrArg Player.context hcore).trans rfl
    have hcourse :
        q.bus.course = before ++ (r.course ++ [.line index] ++ [.script script.name]) := by
      refine (congrArg Gist.course hgist).trans ?_
      have hcourse' : (p.at_ now).bus.course = before ++ (r.course ++ [.line index]) := hp.course
      rw [hcourse', hnames name script hfind, List.append_assoc]
    refine agrees_of_returned (q := q) (hlater.of_core hcore hcourse) ?_ ?_ ?_ ?_ hhalt hc
    · exact (congrArg Gist.state hgist).trans hstate
    · rw [hcontext]
      exact ⟨rfl, rfl, rfl, rfl, rfl, hshows.breakpoints⟩
    · rw [hcontext]
      exact hlines
    · rw [hcontext]
      exact hcommands
  | @fails flow fault m hrefuse hshows =>
    obtain ⟨hcontinue, hpc⟩ := hstrict m m.pc rfl
    exact leads_applyFlow_error hrefuse (leads_fails hp hstate hcontinue hindex hshows hpc)
  | @misses name m hfind hshows =>
    obtain ⟨hcontinue, hpc⟩ := hstrict m m.pc rfl
    have hpfind : p.host.find name = none := by rw [hp.host]; exact hfind
    cases hload : p.host.loader with
    | none =>
      have happly : p.applyFlow w (.call name) false =
          p.closeFailed w ((noLoaderFault name).located w.index w.script) := by
        have hunfold : p.applyFlow w (.call name) false =
            match p.host.loader with
            | none => p.closeFailed w ((noLoaderFault name).located w.index w.script)
            | some _ => (p, .goes (.switching w p.run name false)) := rfl
        rw [hunfold, hload]
      rw [happly]
      exact leads_fails hp hstate hcontinue hindex hshows hpc
    | some load =>
      refine leads_applyFlow_call hload (fun _ => Agrees.ne_blocked) fun now => ?_
      have hlater : OnCourse id play.token host (before ++ (r.course ++ [.line index]))
          (p.at_ now) := hp.of_core rfl hp.course
      obtain ⟨fault, hfetch⟩ := fetch_eq_error (p := p.at_ now) (w := w) hpfind
      have hswitch : (p.at_ now).switchScript w p.run name false =
          (p.at_ now).closeFailed w fault := by
        simp only [switchScript, hfetch]
      rw [hswitch]
      exact leads_fails hlater hstate hcontinue hindex hshows hpc

/-- A fault without a remedy is given up. -/
lemma leads_handleFault {Q : Player × Progress → Prop} {fault : Fault} {policy : Policy}
    (hremedy : Recovery.remedyFor fault policy = none)
    (h : Leads id play Q (p.closeFailed w fault)) :
    Leads id play Q (p.handleFault w fault policy) := by
  have hplan : ∀ spent limit, p.recovery.plan fault policy spent limit = (.giveUp, p.recovery) := by
    intro spent limit
    simp only [Recovery.plan, hremedy]
  have hhandle : p.handleFault w fault policy = p.closeFailed w fault := by
    unfold handleFault
    split
    · rfl
    · rw [hplan]
  rw [hhandle]
  exact h

/-- A line that was executed leads where the turn of the machine does. -/
lemma leads_finishes {flow : Flow} {turn : Machine.Turn} {line : Line} {index : Nat} {m : Machine}
    (hp : OnCourse id play.token host (before ++ (r.course ++ [.line index])) p)
    (hstate : p.state = .playing) (hlines : p.context.linesExecuted = r.lines)
    (hcommands : p.context.commandsExecuted = line.countOn r.commands) (hhalt : r.halt = none)
    (hindex : w.index = index)
    (hstrict : ∀ m line, turn = .halts m (.failed line) →
      host.config.tolerance.continueOnError = false ∧ m.pc = index)
    (hnames : ∀ name script, host.find name = some script → script.name = name)
    (hshows : p.context.Shows m)
    (hcarries : ∀ d : Context, d.Shows m → d.Carries host.find flow turn) :
    Leads id play (Agrees id host before (r.record index line turn))
      (p.finishLine w flow false) := by
  refine leads_finishLine fun q hgist => ?_
  have hcore := congrArg Gist.core hgist
  have hcontext : q.context = p.context.recordLine.lineFinished w.index :=
    (congrArg Player.context hcore).trans rfl
  have hcourse := (congrArg Gist.course hgist).trans hp.course
  obtain ⟨hl, hc⟩ := p.context.recordLine.lineFinished_counts w.index
  refine leads_carries (hp.of_core hcore hcourse) ((congrArg Gist.state hgist).trans hstate) ?_ ?_
    hhalt hindex hstrict hnames ?_
  · rw [hcontext, hl, ← hlines]
    rfl
  · rw [hcontext, hc, ← hcommands]
    rfl
  · rw [hcontext]
    exact hcarries _ (hshows.recordLine.lineFinished _)

/-- A command line leads where the turn of the machine does. -/
lemma leads_command {command : Command} {source : String} {m : Machine}
    (hp : OnCourse id play.token host (before ++ (r.course ++ [.line m.pc])) p)
    (hstate : p.state = .playing) (hlines : p.context.linesExecuted = r.lines)
    (hcommands : p.context.commandsExecuted = r.commands) (hhalt : r.halt = none)
    (hindex : w.index = m.pc) (htoken : w.token = play.token) (hshows : p.context.Shows m)
    (hbuiltin : command.IsBuiltin)
    (hwell : (Line.command source (some command)).GoesWell host)
    (hplain : ∀ m' line, m.execute host.find command = .halts m' (.failed line) → host.Plain)
    (hnames : ∀ name script, host.find name = some script → script.name = name) :
    Leads id play
      (Agrees id host before
        (r.record m.pc (.command source (some command)) (m.execute host.find command)))
      (p.beginCommand w (some command)) := by
  have hstrict : ∀ m' line, m.execute host.find command = .halts m' (.failed line) →
      host.config.tolerance.continueOnError = false ∧ m'.pc = m.pc := by
    intro m' line hturn
    rw [(hplain m' line hturn).config]
    exact ⟨rfl, (Machine.execute_failed hturn).1 ▸ rfl⟩
  refine leads_beginCommand hstate fun q₁ hgist₁ => ?_
  have hcore₁ : q₁.core = p.core := congrArg Gist.core hgist₁
  have hp₁ := hp.of_core hcore₁ ((congrArg Gist.course hgist₁).trans hp.course)
  refine leads_launch hp₁.undisturbed htoken (fun _ => Agrees.ne_blocked)
    fun n q₂ f attempt verdict hattempt hgist₂ hverdict => ?_
  obtain ⟨hp₂, hstate₂, hcontext₂, hview⟩ := hp.launched hindex hgist₁ hattempt hgist₂
  -- The command is in time, so that it ends with what it reports.
  have hintime : verdict = attempt.verdict := by
    rcases hverdict with hverdict | ⟨-, hlate⟩
    · exact hverdict
    · obtain ⟨span, hspan⟩ := hbuiltin.exists_lasts n (p.context.view m.pc w.script)
      have hle := hwell n (p.context.view m.pc w.script) span hspan
      have hlt := hlate span (by rw [hview]; exact hspan)
      rw [hp₁.host, timer_eq, timer_eq] at hlt
      exact absurd (Nat.lt_of_add_lt_add_left hlt) (Nat.not_lt.mpr hle)
  rcases hshows.executes host.find hbuiltin n w.script with
    ⟨m₁, flow, context, hcontext, hshows₁, hlines₁, hcommands₁, hconclude, hcarries⟩ |
    ⟨label, detail, hgosub, hfails, hattempt'⟩
  · have hok : command.conclude verdict = .ok flow := by
      rw [hintime, hview]
      exact hconclude
    rw [hview, hcontext] at hcontext₂
    refine leads_land rfl hstate₂ hok fun q₃ hgist₃ => ?_
    have hcore₃ := congrArg Gist.core hgist₃
    have hcontext₃ : q₃.context = context.recordCommand := by
      refine (congrArg Player.context hcore₃).trans ?_
      rw [← hcontext₂]
    have hp₃ := hp₂.of_core hcore₃ ((congrArg Gist.course hgist₃).trans hp₂.course)
    refine leads_finishes hp₃ (congrArg Gist.state hgist₃) ?_ ?_ hhalt hindex hstrict hnames
      (hcontext₃ ▸ hshows₁.recordCommand) hcarries
    · rw [hcontext₃]
      exact hlines₁.trans hlines
    · rw [hcontext₃]
      exact congrArg (Word.next 64) (hcommands₁.trans hcommands)
  · have hplain' := hplain m m.pc hfails
    rw [hview, hattempt'] at hintime hcontext₂
    have herror : command.conclude verdict = .error (.invalidArgument detail) := by
      rw [hintime]
      rfl
    have hgoing : q₂.isCancelled w.token = false := by
      rw [htoken]
      exact hp₂.undisturbed.going
    rw [hfails]
    refine leads_land_error hgoing herror fun q₃ hgist₃ => ?_
    have hcore₃ := congrArg Gist.core hgist₃
    have hp₃ := hp₂.of_core hcore₃ ((congrArg Gist.course hgist₃).trans hp₂.course)
    have hstate₃ : q₃.state = .waiting := (congrArg Gist.state hgist₃).trans hstate₂
    have hpolicy₃ : q₃.host.policy command.type = {} := by rw [hp₃.host, hplain'.policy]
    have hcontext₃ : q₃.context = p.context.recordCommand := by
      refine (congrArg Player.context hcore₃).trans ?_
      exact congrArg Context.recordCommand hcontext₂
    refine leads_attemptFailed hp₃.undisturbed rfl htoken hstate₃ (fun _ => Agrees.ne_blocked) ?_ ?_
    · -- A wrong argument is not attempted again.
      intro hretryable
      rw [hpolicy₃] at hretryable
      cases hretryable
    · intro q₄ hgist₄
      rw [hpolicy₃]
      have hcore₄ : q₄.core = q₃.core := congrArg Gist.core hgist₄
      have hp₄ := hp₃.of_core hcore₄ ((congrArg Gist.course hgist₄).trans hp₃.course)
      have hcontext₄ : q₄.context = p.context.recordCommand :=
        (congrArg Player.context hcore₄).trans hcontext₃
      refine leads_handleFault rfl (leads_fails hp₄ (congrArg Gist.state hgist₄) ?_ hindex ?_ rfl)
      · exact (hstrict m m.pc hfails).1
      · rw [hcontext₄]
        exact hshows.recordCommand

/-- A round begins with the line that the machine is at, or with the end that it has come to. -/
lemma Agrees.inevitably_begin {phase : Phase} {now : Nat} {m : Machine}
    {Q : Player × Progress → Prop} (h : Agrees id host before r c) (hc : c.2 = .goes phase)
    (hm : r.machine.unwind = m)
    (hend : m.script.line? m.pc = none → ∀ (p : Player) (d : Player × Progress) (report : Report),
      p.bus.course = before ++ r.course → p.context.Shows m → p.context.linesExecuted = r.lines →
      p.context.commandsExecuted = r.commands → Reported p .completed d report → Q d)
    (hline : ∀ (play : Play) (line : Line) (q : Player) (w : Work),
      m.script.line? m.pc = some line → w.index = m.pc → w.token = play.token →
      OnCourse id play.token host (before ++ (r.course ++ [.line m.pc])) q →
      q.state = .playing → q.context.Shows m → q.context.linesExecuted = r.lines →
      q.context.commandsExecuted = r.commands →
      Leads id play Q
        (match line with
        | .command _ command => q.beginCommand w command
        | .text text => q.beginText w text)) :
    Inevitably (AdvancesWithin id) Q ((c.1.at_ now).step id phase) := by
  have hhalt : r.halt = none := h.halt_eq_none_of_goes hc
  obtain ⟨play, hgoes, hstate, hp⟩ := h.going hhalt
  obtain ⟨p, progress⟩ := c
  obtain rfl : progress = .goes (.playLock play) := hgoes
  obtain rfl : phase = .playLock play := by cases hc; rfl
  obtain ⟨hlines, hcommands⟩ := h.counts fun line => by simp [hhalt]
  obtain ⟨context, hcontext⟩ : ∃ context, p.context.settleCursor = context := ⟨_, rfl⟩
  have hshows : context.Shows m := by
    rw [← hm, ← hcontext]
    exact h.shows.settleCursor
  obtain ⟨hclines, hccommands⟩ := p.context.implicitReturn_counts p.context.frames.length
  have hclines' : context.linesExecuted = r.lines := by
    rw [← hcontext]
    exact hclines.trans hlines
  have hccommands' : context.commandsExecuted = r.commands := by
    rw [← hcontext]
    exact hccommands.trans hcommands
  have hlater : OnCourse id play.token host (before ++ r.course) (p.at_ now) :=
    hp.of_core rfl hp.course
  rw [step_playLock (p := p.at_ now) hlater.undisturbed hstate h.shows.breakpoints]
  refine leads_beginLine (p := p.at_ now) hcontext ?_ ?_
  · intro hnone d report hreport
    rw [hshows.currentLine] at hnone
    exact hend hnone { p.at_ now with context } d report hp.course hshows hclines' hccommands'
      hreport
  · intro line q w hsome hindex _ htoken hcore hqstate hcourse
    rw [hshows.currentLine] at hsome
    rw [hshows.cursor] at hindex hcourse
    have hqcontext : q.context = context := (congrArg Player.context hcore).trans rfl
    have hq : OnCourse id play.token host (before ++ (r.course ++ [.line m.pc])) q := by
      refine hlater.of_core hcore ((hcourse hlater.closed).trans ?_)
      rw [hlater.course, List.append_assoc]
    rw [← hqcontext] at hshows hclines' hccommands'
    exact hline play line q w hsome hindex htoken hq (hqstate.trans hstate) hshows hclines'
      hccommands'

/-- One round of an undisturbed playback is one turn of the machine. -/
lemma Agrees.inevitably_step {phase : Phase} {now : Nat} (h : Agrees id host before r c)
    (hc : c.2 = .goes phase) (hplayable : r.Playable host) :
    Inevitably (AdvancesWithin id) (Agrees id host before (r.step host.find))
      ((c.1.at_ now).step id phase) := by
  obtain ⟨m, hm⟩ : ∃ m, r.machine.unwind = m := ⟨_, rfl⟩
  have hhalt : r.halt = none := h.halt_eq_none_of_goes hc
  obtain ⟨hbuiltin, hnames, hwell, hplain⟩ := hplayable
  rw [hm] at hwell hplain
  have hmbuiltin : m.script.IsBuiltin := by
    rw [← hm, Machine.unwind_script]
    exact hbuiltin
  refine h.inevitably_begin hc hm ?_ ?_
  · intro hnone p d report hcourse hshows hlines hcommands hreport
    rw [Performance.step_eq_end hhalt hm hnone]
    exact agrees_of_reported hcourse hshows (fun _ => ⟨hlines, hcommands⟩) rfl rfl rfl hreport
  · intro play line q w hline hindex htoken hq hstate hshows hlines hcommands
    rw [Performance.step_eq_record hhalt hm hline]
    have hlinebuiltin : line.IsBuiltin := hmbuiltin line (List.mem_of_getElem? hline)
    cases line with
    | text source =>
      refine leads_beginText hq.undisturbed htoken (fun _ => Agrees.ne_blocked) ?_ ?_
      · intro q' hgist
        have hcore' : q'.core = q.core := congrArg Gist.core hgist
        have hcontext' : q'.context = q.context := (congrArg Player.context hcore').trans rfl
        have hq' := hq.of_core hcore' ((congrArg Gist.course hgist).trans hq.course)
        rw [← hcontext'] at hshows hlines hcommands
        refine leads_finishes hq' ((congrArg Gist.state hgist).trans hstate) hlines hcommands hhalt
          hindex ?_ hnames hshows fun d hd => hd.carries_next
        intro m' index hturn
        cases hturn
      · intro q' presenter text failure _ hpresenter hkind hrespond
        rw [hq.host] at hpresenter
        rw [hwell _ hline presenter text hpresenter hkind] at hrespond
        cases hrespond
    | command source command =>
      cases command with
      | some command =>
        exact leads_command hq hstate hlines hcommands hhalt hindex htoken hshows hlinebuiltin
          (hwell _ hline) (fun m' index hturn => hplain _ m' index hline hturn) hnames
      | none =>
        have hplain' : host.Plain := hplain _ m m.pc hline rfl
        have hstrict : host.config.tolerance.continueOnError = false := by rw [hplain'.config]
        have hpolicy : q.host.policy "unresolved" = {} := by rw [hq.host, hplain'.policy]
        unfold beginCommand
        dsimp only
        rw [hpolicy]
        exact leads_handleFault rfl (leads_fails hq hstate hstrict hindex hshows rfl)

/-- A playback that has started from the beginning agrees with a performance that has not begun. -/
lemma Started.agrees_opening {script : Script} (h : Started id p script .beginning c)
    (hopen : p.bus.closed = false) (hbreakpoints : p.context.breakpoints = []) :
    Agrees id p.host p.bus.course (.opening script) c := by
  obtain ⟨play, hprogress, hundisturbed⟩ := h.progress
  obtain ⟨now, hcontext⟩ := h.context
  have hcourse := h.course hopen
  exact
    { shows := by
        rw [hcontext]
        exact ⟨rfl, rfl, rfl, rfl, rfl, hbreakpoints⟩
      course := hcourse
      counts := fun _ => by
        rw [hcontext]
        exact ⟨rfl, rfl⟩
      going := fun _ =>
        ⟨play, hprogress, h.state, hundisturbed, h.host, h.closed.trans hopen, hcourse⟩
      ended := fun halt hhalt => by cases hhalt }

/-- A playback goes on as long as the machine does. -/
lemma Agrees.exists_advances (h : Agrees id host before r c) (hhead : c.2.isLoopHead = true)
    (hplayable : r.Playable host) : ∃ d, Advances id c d := by
  obtain ⟨play, hgoes, -⟩ := h.going (h.halt_eq_none hhead)
  refine ⟨_, .playLock play, c.1.now, hgoes, Nat.le_refl _, rfl, ?_⟩
  exact ne_blocked_of_inevitably (h.inevitably_step hgoes hplayable) fun _ => Agrees.ne_blocked

/-- What a playback agrees with when it has ended, it agrees with ever after. -/
lemma Agrees.stay {find : String → Option Script} {k n : Nat}
    (h : Agrees id host before (r.after find k) c) (hend : c.2.isEnded = true) (hk : k ≤ n) :
    Agrees id host before (r.after find n) c := by
  obtain ⟨halt, hhalt⟩ := h.exists_halt hend
  obtain ⟨m, rfl⟩ := Nat.exists_eq_add_of_le hk
  rw [Performance.after_add, Performance.after_eq_self hhalt]
  exact h

section Following

/- A playback that begins where a performance does, all of whose turns can be followed. -/
variable {start : Player × Progress}
  (hstart : Inevitably (AdvancesWithin id) (Agrees id host before r) start)
  (hplayable : ∀ n, (r.after host.find n).halt = none → (r.after host.find n).Playable host)

include hplayable in
/-- Each round of the playback follows the machine. -/
lemma inevitably_agrees_after {n : Nat} {d e : Player × Progress}
    (h : Agrees id host before (r.after host.find n) d) (hhead : d.2.isLoopHead = true)
    (hstep : Advances id d e) :
    Inevitably (AdvancesWithin id) (Agrees id host before (r.after host.find (n + 1))) e := by
  obtain ⟨phase, now, hphase, -, rfl, -⟩ := hstep
  rw [Performance.after_succ]
  exact h.inevitably_step hphase (hplayable n (h.halt_eq_none hhead))

include hstart hplayable

/-- After any number of rounds, the playback agrees with the performance after as many turns. -/
lemma agrees_of_after {n : Nat} (h : After id start n c) :
    Agrees id host before (r.after host.find n) c :=
  After.settled (Q := fun n => Agrees id host before (r.after host.find n)) hstart
    (fun _ _ _ => inevitably_agrees_after hplayable) (fun _ _ => Agrees.settled)
    (fun _ _ _ hk hd hend => hd.stay hend hk) h

/-- Any number of rounds is played. -/
lemma exists_after_of_playable (n : Nat) : ∃ c, After id start n c :=
  exists_after (Q := fun n => Agrees id host before (r.after host.find n)) hstart
    (fun _ _ _ => inevitably_agrees_after hplayable) (fun _ _ => Agrees.settled)
    (fun n _ hd hhead => hd.exists_advances hhead (hplayable n (hd.halt_eq_none hhead))) n

end Following

/-! ### Families of scripts -/

/-- A player that is free to play, without breakpoints, and whose loader finds scripts of a finite
family that was read with the built-in commands. -/
structure Equipped (p : Player) (family : Table Script)
    (load : String → Except LoadError Script) : Prop where
  ready : Ready p
  closed : p.bus.closed = false
  breakpoints : p.context.breakpoints = []
  loader : p.host.loader = some load
  knows : ∀ name script, load name = .ok script → family.get? name = some script
  parsed : ∀ name script, family.get? name = some script →
    ∃ source, Parser.standard.parse name source = .ok script

namespace Equipped

variable {family : Table Script} {load : String → Except LoadError Script} {name : String}
  {script : Script}

/-- What the host finds for a call is a script of the family that is not refused. -/
lemma get?_of_find (hp : Equipped p family load) (hfind : p.host.find name = some script) :
    family.get? name = some script ∧
      (p.tolerance.refuseDefects = true → script.survey.fault? name = none) := by
  unfold Host.find at hfind
  rw [hp.loader] at hfind
  dsimp only at hfind
  split at hfind
  · cases hfind
  · next found hfound =>
    split at hfind
    · cases hfind
    · next hfault =>
      cases hfind
      refine ⟨hp.knows name script hfound, fun hrefuse => ?_⟩
      cases hf : script.survey.fault? name with
      | none => rfl
      | some fault =>
        refine absurd ?_ hfault
        rw [hf]
        simpa [tolerance] using hrefuse

/-- A script of the family has the name it is known by. -/
lemma name_eq (hp : Equipped p family load) (h : family.get? name = some script) :
    script.name = name := by
  obtain ⟨source, hparse⟩ := hp.parsed name script h
  exact Parser.name_of_parse hparse

lemma isBuiltin (hp : Equipped p family load) (h : family.get? name = some script) :
    script.IsBuiltin := by
  obtain ⟨source, hparse⟩ := hp.parsed name script h
  exact Parser.isBuiltin_of_parse hparse

lemma find_name (hp : Equipped p family load) (h : p.host.find name = some script) :
    script.name = name :=
  hp.name_eq (hp.get?_of_find h).1

/-- The machine reads scripts of the family; those that are called are not refused. -/
lemma after_script (hp : Equipped p family load) (hscript : family.get? name = some script)
    (hclean : p.tolerance.refuseDefects = true → script.survey.fault? script.name = none)
    (n : Nat) {s : Script}
    (hs : ((Performance.opening script).after p.host.find n).machine.script = s) :
    family.get? s.name = some s ∧
      (p.tolerance.refuseDefects = true → s.survey.fault? s.name = none) := by
  rw [← hs]
  refine Performance.after_script
    (P := fun s => family.get? s.name = some s ∧
      (p.tolerance.refuseDefects = true → s.survey.fault? s.name = none)) ⟨?_, hclean⟩ ?_ n
  · change family.get? script.name = some script
    rw [hp.name_eq hscript]
    exact hscript
  · intro name' s' hfind
    rw [hp.find_name hfind]
    exact hp.get?_of_find hfind

end Equipped

end Player

end Recital

import Recital.Proofs.Player.BeforeLines
import Recital.Proofs.Session.Finish

/-!
# What belongs to a playback

A playback has the gate, a token and a run, it stands at a place in its script, and lines leave
something for it: an end, and the repetitions that they have used up.  All this is its estate
(`Player.estate`).  Requests to play, to step, to reset and to shut down are regular, and a step of
a regular request is of one of four kinds.  It executes a line, for the token of the playback
(`Executes`); it goes on with a playback between two lines, which keeps the estate or ends the
playback (`Lulls`); it comes nearer to the gate or to the line lock, which changes nothing but who
waits for them (`Aside`); or, having the gate, it starts a playback with an estate of its own
(`Inherits`) or resets the player (`resetAll_spec`).
-/

namespace Recital

namespace Phase

/-- A phase of a request to reset or to shut down. -/
def isClosing : Phase → Bool
  | .entering .reset | .entering .shutDown | .resetGate | .closeGate => true
  | _ => false

/-- A phase of a request to play, to step, to reset or to shut down. -/
def isRegular (phase : Phase) : Bool := phase.isPlayback || phase.isStep || phase.isClosing

variable {phase : Phase} {token : Token}

/-- Only a playback has a token. -/
lemma isPlayback_of_token? (h : phase.token? = some token) : phase.isPlayback = true := by
  cases phase with
  | preloading | paused | playLock | playing | delaying | autosaving => rfl
  | _ => cases h

lemma isRegular_of_isPlayback (h : phase.isPlayback = true) : phase.isRegular = true := by
  simp [isRegular, h]

end Phase

/-- The snapshot stands where the playback stands. -/
structure Snapshot.StandsAt (s : Snapshot) (c : Context) : Prop where
  name : c.scriptName? = some s.scriptName
  cursor : s.cursor = c.cursor
  frames : s.frames = c.frames
  lines : s.linesExecuted = c.linesExecuted
  commands : s.commandsExecuted = c.commandsExecuted

/-- Returning at the end of the script keeps to the script. -/
lemma Context.script_settleCursor (c : Context) : c.settleCursor.script = c.script := by
  unfold Context.settleCursor
  generalize c.frames.length = depth
  induction depth generalizing c with
  | zero => rfl
  | succ depth ih =>
    unfold Context.implicitReturn
    split
    · rfl
    · split
      · next frame d hpop =>
        obtain ⟨g, -, heq⟩ := Option.map_eq_some_iff.mp hpop
        obtain ⟨-, rfl⟩ := Prod.mk.inj heq
        exact ih _
      · rfl

/-- A snapshot is taken where the playback stands. -/
lemma Context.standsAt_of_snapshot {c : Context} {at_ : Instant} {s : Snapshot}
    (h : c.snapshot? at_ = some s) : s.StandsAt c := by
  unfold Context.snapshot? at h
  obtain ⟨script, hscript, rfl⟩ := Option.map_eq_some_iff.mp h
  exact ⟨by simp [Context.scriptName?, hscript], rfl, rfl, rfl, rfl⟩

/-- Where a playback of a script stands when it starts. -/
def Start.opening (start : Start) (script : Script) : Context :=
  Player.startAt { script := some script, labels := script.survey.labels } start

namespace Player

variable {p q : Player} {id : Nat} {play : Play} {token : Token} {phase : Phase} {run : Run}
  {f : Finish} {x : Player × Progress} {y : Player × LineProgress}

/-! ### The estate -/

/-- What belongs to a playback. -/
structure Estate where
  /-- Held for the whole of the playback. -/
  gate : Lock
  token : Option Token
  /-- The next identifier. -/
  serial : Nat
  run : Run
  /-- Where the playback stands. -/
  place : Context
  lines : Nat
  commands : Nat
  /-- An end that a single step has left for the playback. -/
  deferred : Option Finish
  /-- What each line has used up. -/
  spent : Tally

/-- The estate of a player. -/
def estate (p : Player) : Estate :=
  { gate := p.gate
    token := p.token
    serial := p.serial
    run := p.run
    place := p.context.bare
    lines := p.context.linesExecuted
    commands := p.context.commandsExecuted
    deferred := p.deferred
    spent := p.spent }

lemma estate_of_core (h : q.core = p.core) : q.estate = p.estate :=
  (congrArg estate h : q.core.estate = p.core.estate)

lemma estate_with_gate (h : q.estate = p.estate) : q.estate = { p.estate with gate := q.gate } := by
  have hgate : q.gate = p.gate := congrArg Estate.gate h
  rw [h, hgate]
  rfl

lemma estate_of_gist (h : q.gist = p.gist) : q.estate = p.estate :=
  estate_of_core (congrArg Gist.core h)

@[simp] lemma estate_moveFrom {a b : State} : (p.moveFrom run a b).2.estate = p.estate :=
  estate_of_core (congrArg Gist.core (gist_moveFrom p run))

@[simp] lemma estate_moveIfAllowed {b : State} : (p.moveIfAllowed run b).estate = p.estate :=
  estate_of_core (congrArg Gist.core (gist_moveIfAllowed p run))

@[simp] lemma estate_measureMemory : p.measureMemory.estate = p.estate :=
  estate_of_gist (gist_measureMemory p)

@[simp] lemma estate_write {key : String} {s : Snapshot} : (p.write key s).2.estate = p.estate :=
  estate_of_gist (gist_write p)

@[simp] lemma estate_setCheckpoint : p.setCheckpoint.estate = p.estate := by
  have hcore : p.setCheckpoint.core = { p.core with recovery := p.setCheckpoint.recovery } :=
    congrArg Gist.core (gist_setCheckpoint p)
  exact (congrArg estate hcore : p.setCheckpoint.core.estate = _)

lemma estate_stop : p.stop.estate = p.estate := by
  obtain ⟨cell, bus, stopRequested, cancelled, hstop⟩ := p.exists_stop_eq
  rw [hstop]
  rfl

/-- A playback that has ended lets go of its token and of the gate. -/
lemma core_finish :
    (p.finish f).1.core = { p.core with token := none, gate := p.gate.release } := by
  obtain ⟨q, hq⟩ : ∃ q, q = (p.conclude f).1 := ⟨_, rfl⟩
  obtain ⟨r, hr⟩ : ∃ r, r = q.report (p.conclude f).2.1 (p.conclude f).2.2 := ⟨_, rfl⟩
  have hqcore : q.core = p.core := by
    rw [hq]
    exact congrArg Gist.core (gist_conclude (p := p) (f := f))
  obtain ⟨e, he⟩ : ∃ e, e = (q.publishEnd r).measureMemory := ⟨_, rfl⟩
  have hcore : e.core = p.core := by
    have hmeasured : e.core = (q.publishEnd r).core := by
      rw [he]
      exact congrArg Gist.core (gist_measureMemory _)
    rw [hmeasured, ← hqcore]
    unfold publishEnd
    split <;> exact core_publish _ _ _
  have hfinish : (p.finish f).1 = { e with token := none, gate := e.gate.release } := by
    rw [he, hr, hq]
    rfl
  have hgate : e.gate = p.gate := (congrArg Player.gate hcore).trans rfl
  rw [hfinish, ← hgate]
  exact congrArg (fun c : Player => { c with token := none, gate := e.gate.release }) hcore

lemma estate_finish :
    (p.finish f).1.estate = { p.estate with token := none, gate := p.gate.release } :=
  (congrArg estate (core_finish (p := p) (f := f)) : (p.finish f).1.core.estate = _)

/-- A call leaves the estate alone. -/
lemma estate_perform {c : Call} : (p.perform c).estate = p.estate := by
  cases c with
  | pause =>
    simp only [perform, pause]
    split
    · rfl
    · exact (estate_moveFrom (p := p) : _ = p.estate)
    · rfl
    · rfl
  | resume =>
    simp only [perform, resume]
    split
    · exact (estate_moveFrom (p := { p with pauseRequested := false }) : _ = p.estate)
    · rfl
    · rfl
    · rfl
  | stop => exact estate_stop
  | setSpeed speed =>
    simp only [perform, setSpeed]
    split <;> rfl
  | removeBreakpoint index =>
    simp only [perform, removeBreakpoint, Context.removeBreakpoint, Context.unrelease]
    split <;> rfl
  | unassignAll =>
    have hestate : (p.clearVariables p.run).estate =
        { p with context := p.context.clearVariables }.estate :=
      estate_of_gist (gist_clearVariables p p.run)
    exact hestate
  | cancel | addBreakpoint | clearBreakpoints | assign => rfl

/-! ### The checkpoint -/

/-- Where the playback stands is part of its estate, whoever waits for the gate. -/
lemma standsAt_of_estate {s : Snapshot} (h : s.StandsAt p.context)
    (hestate : q.estate = { p.estate with gate := q.gate }) : s.StandsAt q.context := by
  have hbare : q.context.bare = p.context.bare := congrArg Estate.place hestate
  have hscript := Context.script_of_bare hbare
  refine ⟨?_, h.cursor.trans ?_, h.frames.trans ?_, h.lines.trans ?_, h.commands.trans ?_⟩
  · rw [Context.scriptName?, hscript]
    exact h.name
  · exact (congrArg Context.cursor hbare).symm
  · exact (congrArg Context.frames hbare).symm
  · exact (congrArg Estate.lines hestate).symm
  · exact (congrArg Estate.commands hestate).symm

/-- The checkpoint is the same, or it was set to where the playback stands. -/
def Marks (p q : Player) : Prop :=
  q.recovery.checkpoint = p.recovery.checkpoint ∨
    ∃ s, q.recovery.checkpoint = some s ∧ s.StandsAt p.context

lemma Marks.trans {r : Player} (hpq : p.Marks q) (hqr : q.Marks r) (hestate : q.estate = p.estate) :
    p.Marks r := by
  rcases hqr with hsame | ⟨s, hset, hstands⟩
  · unfold Marks
    rw [hsame]
    exact hpq
  · exact .inr ⟨s, hset, standsAt_of_estate hstands (estate_with_gate hestate.symm)⟩

lemma marks_setCheckpoint : p.Marks p.setCheckpoint := by
  unfold setCheckpoint
  split
  · next s hs => exact .inr ⟨s, rfl, Context.standsAt_of_snapshot hs⟩
  · exact .inl rfl

/-- The checkpoint of a script that is loaded is set. -/
lemma checkpoint_setCheckpoint (h : p.context.script.isSome = true) :
    ∃ s, p.setCheckpoint.recovery.checkpoint = some s ∧ s.StandsAt p.context := by
  obtain ⟨script, hscript⟩ := Option.isSome_iff_exists.mp h
  obtain ⟨s, hs⟩ : ∃ s, p.context.snapshot? (Instant.ofMillis p.now) = some s := by
    simp [Context.snapshot?, hscript]
  exact ⟨s, (setCheckpoint_checkpoint p hscript).trans hs, Context.standsAt_of_snapshot hs⟩

lemma checkpoint_moveFrom {a b : State} :
    (p.moveFrom run a b).2.recovery.checkpoint = p.recovery.checkpoint :=
  congrArg Place.checkpoint place_moveFrom

lemma checkpoint_measureMemory : p.measureMemory.recovery.checkpoint = p.recovery.checkpoint :=
  congrArg Place.checkpoint (place_of_gist (gist_measureMemory p))

lemma checkpoint_write {key : String} {s : Snapshot} :
    (p.write key s).2.recovery.checkpoint = p.recovery.checkpoint :=
  congrArg Place.checkpoint (place_of_gist (gist_write p))

/-! ### A playback between two lines -/

/-- What becomes of a playback that executes no line: it goes on with its estate, or it ends. -/
inductive Lulls (token : Token) (p : Player) : Player × Progress → Prop
  | goes {q : Player} {next : Phase} (htoken : next.token? = some token)
    (hline : next.line? = none) (hestate : q.estate = p.estate) (hmarks : p.Marks q) :
    Lulls token p (q, .goes next)
  | ends {q : Player} {f : Finish}
    (hestate : q.estate = { p.estate with deferred := q.deferred }) : Lulls token p (q.finish f)

/-- A playback that was left as it is goes on from there. -/
lemma Lulls.of_estate (h : Lulls token q x) (hestate : q.estate = p.estate) (hmarks : p.Marks q) :
    Lulls token p x := by
  cases h with
  | goes htoken hline hsame hnext =>
    exact .goes htoken hline (hsame.trans hestate) (hmarks.trans hnext hestate)
  | ends hsame => exact .ends (hestate ▸ hsame)

/-- The estate after a step of a playback that executes no line. -/
lemma Lulls.estate (h : Lulls token p x) :
    (∃ next, x.2 = .goes next ∧ next.token? = some token ∧ next.line? = none ∧
        x.1.estate = p.estate ∧ p.Marks x.1) ∨
      ∃ answer, x.2 = .ends answer ∧ x.1.token = none ∧ x.1.gate = p.gate.release ∧
        x.1.serial = p.serial ∧ x.1.context.bare = p.context.bare := by
  cases h with
  | goes htoken hline hestate hmarks => exact .inl ⟨_, rfl, htoken, hline, hestate, hmarks⟩
  | @ends q f hestate =>
    obtain ⟨r, hends, -⟩ := finish_spec q f
    have hgate : q.gate = p.gate := congrArg Estate.gate hestate
    have hserial : q.serial = p.serial := congrArg Estate.serial hestate
    have hplace : q.context.bare = p.context.bare := congrArg Estate.place hestate
    have hfinish := estate_finish (p := q) (f := f)
    refine .inr ⟨_, hends, congrArg Estate.token hfinish, ?_, ?_, ?_⟩
    · rw [← hgate]
      exact congrArg Estate.gate hfinish
    · exact (congrArg Estate.serial hfinish).trans hserial
    · exact (congrArg Estate.place hfinish).trans hplace

lemma lulls_finish : Lulls token p (p.finish f) := .ends rfl

lemma lulls_playOn : Lulls play.token p (p.playOn id play) := by
  unfold playOn
  split
  · exact .ends rfl
  · split
    · exact lulls_finish
    · split
      · exact .goes rfl rfl rfl (.inl rfl)
      · exact .goes rfl rfl rfl (.inl rfl)
      · exact .goes rfl rfl rfl (.inl rfl)
      · exact lulls_finish
      · exact lulls_finish

lemma lulls_continuePlay : Lulls play.token p (p.continuePlay id play) := by
  unfold continuePlay
  split
  · exact .goes rfl rfl rfl (.inl rfl)
  · exact lulls_playOn

/-- A snapshot that is saved automatically was taken where the playback stands. -/
lemma standsAt_of_autosaveDue {s : Snapshot} (h : p.autosaveDue play = some s) :
    s.StandsAt p.context := by
  unfold autosaveDue at h
  split at h
  · split at h
    · exact Context.standsAt_of_snapshot h
    · cases h
  · cases h

lemma lulls_autosave : Lulls play.token p (p.autosave id play) := by
  unfold autosave
  split
  · next s hdue => exact .goes rfl rfl rfl (.inr ⟨s, rfl, standsAt_of_autosaveDue hdue⟩)
  · exact lulls_continuePlay

lemma lulls_afterLine {by_ : LineEnd} : Lulls play.token p (p.afterLine id play by_) := by
  unfold afterLine
  cases by_ with
  | finished f => exact .ends rfl
  | next =>
    dsimp only
    split
    · exact lulls_autosave.of_estate rfl (.inl rfl)
    · exact .goes rfl rfl rfl (.inl rfl)

/-- A breakpoint that is taken pauses the playback where it stands. -/
lemma estate_takeBreakpoint :
    { p with context := p.context.takeBreakpoint.2 }.estate = p.estate := by
  have hbare : p.context.takeBreakpoint.2.bare = p.context.bare := Context.bare_takeBreakpoint
  have hcount : p.context.takeBreakpoint.2.linesExecuted = p.context.linesExecuted ∧
      p.context.takeBreakpoint.2.commandsExecuted = p.context.commandsExecuted := by
    unfold Context.takeBreakpoint
    split
    · exact ⟨rfl, rfl⟩
    · split <;> exact ⟨rfl, rfl⟩
  simp only [estate]
  rw [hbare, hcount.1, hcount.2]

/-- A playback that has the line lock and does not execute a line. -/
lemma lulls_playLine (h : p.execution? id (.playLock play) = none)
    (hheld : p.lineLock.isHeldBy id = true) : Lulls play.token p (p.playLine id play) := by
  have hengages := p.engages_playLine id play
  generalize p.playLine id play = x at hengages ⊢
  cases hengages with
  | yields => exact lulls_continuePlay.of_estate rfl (.inl rfl)
  | @pauses q r index context _ _ htaken hq hr =>
    have htakes : { p with context := p.context.takeBreakpoint.2 }.estate = p.estate :=
      estate_takeBreakpoint
    rw [htaken] at htakes
    have hhit : q.estate = p.estate := hq ▸ (estate_of_core (core_publish _ _ _)).trans htakes
    have hpaused : r.estate = p.estate := hr ▸ estate_moveFrom.trans hhit
    have hcheckpoint : r.recovery.checkpoint = p.recovery.checkpoint := by
      rw [hr, checkpoint_moveFrom, hq]
      rfl
    exact lulls_continuePlay.of_estate hpaused (.inl hcheckpoint)
  | begins hdeferred hstate htaken =>
    cases h.symm.trans (execution?_playLock hheld hdeferred hstate htaken)

/-- The checkpoint of a playback that comes to its lines is set to where they begin. -/
lemma lulls_startLines {script : String} : Lulls token p (p.startLines id token run script) ∧
    (p.context.script.isSome = true → ∀ next, (p.startLines id token run script).2 = .goes next →
      ∃ s, (p.startLines id token run script).1.recovery.checkpoint = some s ∧
        s.StandsAt p.context) := by
  have hended : ∀ (q : Player) (next : Phase), (q.finish .cancelled).2 ≠ .goes next := by
    intro q next hnext
    obtain ⟨r, hends, -⟩ := finish_spec q .cancelled
    rw [hends] at hnext
    cases hnext
  unfold startLines
  split
  · exact ⟨lulls_finish, fun _ next hnext => absurd hnext (hended _ _)⟩
  · obtain ⟨e, he⟩ : ∃ e, e = (p.publish run (.scriptStarted script)).setCheckpoint := ⟨_, rfl⟩
    have hestate : e.estate = p.estate := by
      rw [he, estate_setCheckpoint]
      exact estate_of_core (core_publish _ _ _)
    have hmarks : p.Marks e := by
      rw [he]
      exact (marks_setCheckpoint : (p.publish run (.scriptStarted script)).Marks _)
    have hset : p.context.script.isSome = true →
        ∃ s, e.recovery.checkpoint = some s ∧ s.StandsAt p.context := by
      intro hsome
      rw [he]
      exact checkpoint_setCheckpoint (p := p.publish run (.scriptStarted script)) hsome
    obtain ⟨q, hq⟩ : ∃ q, q = (e.moveFrom run .loading .playing).2 := ⟨_, rfl⟩
    have hqestate : q.estate = e.estate := by rw [hq, estate_moveFrom]
    have hqcheckpoint : q.recovery.checkpoint = e.recovery.checkpoint := by
      rw [hq, checkpoint_moveFrom]
    have hplay : ∀ play : Play, play.token = token → Lulls token e (q.continuePlay id play) := by
      rintro play rfl
      exact lulls_continuePlay.of_estate hqestate (.inl hqcheckpoint)
    dsimp only
    rw [← he, ← hq]
    split
    · obtain ⟨x, hx⟩ : ∃ x, x = q.continuePlay id ⟨token, q.stopwatch⟩ := ⟨_, rfl⟩
      have hlulls : Lulls token e x := hx ▸ hplay ⟨token, q.stopwatch⟩ rfl
      rw [← hx]
      refine ⟨hlulls.of_estate hestate hmarks, fun hsome next hnext => ?_⟩
      rcases hlulls.estate with ⟨-, -, -, -, -, hkept⟩ | ⟨answer, hends, -⟩
      · rcases hkept with hsame | ⟨s, hs, hstands⟩
        · rw [hsame]
          exact hset hsome
        · exact ⟨s, hs, standsAt_of_estate hstands (estate_with_gate hestate.symm)⟩
      · rw [hnext] at hends
        cases hends
    · exact ⟨lulls_finish.of_estate (hqestate.trans hestate)
        (hmarks.trans (.inl hqcheckpoint) hestate), fun _ next hnext => absurd hnext (hended _ _)⟩

/-- What a playback does that executes no line. -/
lemma lulls_step (id : Nat) (htoken : phase.token? = some token)
    (h : p.execution? id phase = none) :
    (p.step id phase).2 = .blocked ∨ Lulls token p (p.step id phase) := by
  cases phase with
  | preloading _ run script until_ =>
    cases htoken
    simp only [step]
    split
    · exact .inr lulls_startLines.1
    · exact .inl rfl
  | paused play =>
    cases htoken
    simp only [step]
    split
    · exact .inr lulls_finish
    · split
      · exact .inl rfl
      · exact .inr lulls_playOn
  | playLock play =>
    cases htoken
    simp only [step]
    split
    · next hheld => exact .inr (lulls_playLine h hheld)
    · exact .inl rfl
  | playing play line => cases h
  | delaying play until_ =>
    cases htoken
    simp only [step]
    split
    · exact .inr lulls_finish
    · split
      · exact .inr lulls_autosave
      · exact .inl rfl
  | autosaving play s =>
    cases htoken
    refine .inr ?_
    simp only [step]
    split
    · exact lulls_continuePlay.of_estate estate_measureMemory (.inl checkpoint_measureMemory)
    · exact lulls_continuePlay.of_estate (estate_measureMemory.trans estate_write)
        (.inl (checkpoint_measureMemory.trans checkpoint_write))
  | _ => cases htoken

/-! ### Lines -/

/-- A line is executed for the token. -/
structure Executes (token : Token) (p : Player) (y : Player × LineProgress) : Prop where
  gate : y.1.gate = p.gate
  keeps : y.1.token = p.token
  serial : p.serial ≤ y.1.serial
  loaded : p.context.script.isSome = true → y.1.context.script.isSome = true
  line : ∀ line, y.2 = .goes line → y.1.context.script.isSome = true ∧ line.work.token = token

/-- What a line leaves alone. -/
lemma Follows.keeps {b : Bearing} {entered : Bool} (h : Follows entered b y) :
    y.1.lineLock = b.lock ∧ y.1.backdrop = b.rest := by
  obtain ⟨q, progress⟩ := y
  have hkept : ∀ c : Bearing, q.bearing = c → c.lock = b.lock ∧ c.rest = b.rest →
      q.lineLock = b.lock ∧ q.backdrop = b.rest := fun c hq hc =>
    ⟨(congrArg Bearing.lock hq).trans hc.1, (congrArg Bearing.rest hq).trans hc.2⟩
  cases progress with
  | blocked => exact h.elim
  | goes line =>
    rcases h with ⟨hq, -⟩ | ⟨hq, -⟩
    · exact hkept b hq ⟨rfl, rfl⟩
    · exact hkept _ hq ⟨Bearing.lock_left, Bearing.rest_left⟩
  | ends by_ =>
    have hclosed : Closed b entered q := h.imp_right And.left
    exact hclosed.keeps

/-- A line that goes on. -/
lemma executes_stepLine {line : LinePhase} (hloaded : p.context.script.isSome = true) :
    (p.stepLine line).2 = .blocked ∨ Executes line.work.token p (p.stepLine line) := by
  rcases follows_stepLine p line with hblocked | hfollows
  · exact .inl (by rw [hblocked])
  · have hserves := serves_stepLine p line
    have hback : (p.stepLine line).1.backdrop = p.backdrop := hfollows.keeps.2
    have hgate := congrArg Player.gate hback
    have htoken := congrArg Player.token hback
    refine .inr ⟨hgate, htoken, hserves.furthers.serial, hserves.furthers.loaded,
      fun next hnext => ⟨hserves.furthers.loaded hloaded, ?_⟩⟩
    rw [hserves.work next hnext]

/-- A line that is begun. -/
lemma executes_beginLine (p : Player) (token : Token) :
    Executes token p (p.beginLine token) := by
  have hback : (p.beginLine token).1.backdrop = p.backdrop := by
    rcases follows_beginLine p token with ⟨hbearing, -⟩ | ⟨index, entered, -, hfollows⟩
    · exact congrArg Bearing.rest hbearing
    · exact hfollows.keeps.2
  have hgate := congrArg Player.gate hback
  have htoken := congrArg Player.token hback
  have hsettled := p.context.script_settleCursor
  have hscript : ∀ line, (p.beginLine token).2 = .goes line → p.context.script.isSome = true := by
    intro line hgoes
    cases hnone : p.context.script with
    | some script => rfl
    | none =>
      have hline : p.context.settleCursor.currentLine = none := by
        rw [Context.currentLine, hsettled, hnone]
        rfl
      unfold beginLine at hgoes
      dsimp only at hgoes
      rw [hline] at hgoes
      cases hgoes
  rcases serves_beginLine p token with ⟨heq, -⟩ | ⟨w, hw, -, hserves⟩
  · rw [heq] at hgate htoken ⊢
    exact ⟨hgate, htoken, Nat.le_refl _, fun h => (congrArg Option.isSome hsettled).trans h,
      fun _ h => LineProgress.noConfusion h⟩
  · have hloaded : p.context.script.isSome = true →
        (p.beginLine token).1.context.script.isSome = true := fun h =>
      hserves.furthers.loaded ((congrArg Option.isSome hsettled).trans h)
    refine ⟨hgate, htoken, hserves.furthers.serial, hloaded, fun line hline => ⟨?_, ?_⟩⟩
    · exact hloaded (hscript line hline)
    · rw [hserves.work line hline, hw]

/-- A line that a request executes is one of the playback in progress, if there is one. -/
lemma executes_step (id : Nat) (hown : ∀ T, phase.token? = some T → p.token = some T)
    (hlines : ∀ line, phase.line? = some line → p.context.script.isSome = true ∧
      ∀ T, p.token = some T → line.work.token = T)
    (h : p.execution? id phase = some y) (hready : y.2 ≠ .blocked) :
    ∃ token, Executes token p y ∧ ∀ T, p.token = some T → token = T := by
  have hline : ∀ line, phase.line? = some line → y = p.stepLine line →
      ∃ token, Executes token p y ∧ ∀ T, p.token = some T → token = T := by
    rintro line hphase rfl
    obtain ⟨hloaded, htoken⟩ := hlines line hphase
    exact ⟨line.work.token, (executes_stepLine hloaded).resolve_left hready, htoken⟩
  have hbegins : ∀ (context : Context) (token : Token), p.token = some token →
      context.script = p.context.script → y = { p with context }.beginLine token →
      ∃ token, Executes token p y ∧ ∀ T, p.token = some T → token = T := by
    rintro context token htoken hscript rfl
    obtain ⟨hgate, hkeeps, hserial, hloaded, hgoes⟩ := executes_beginLine { p with context } token
    refine ⟨token, ⟨hgate, hkeeps, hserial, fun h => hloaded ?_, hgoes⟩, fun T hT => ?_⟩
    · exact (congrArg Option.isSome hscript).trans h
    · exact Option.some.inj (htoken.symm.trans hT)
  cases phase with
  | playing play line => exact hline line rfl (Option.some.inj h).symm
  | stepping line => exact hline line rfl (Option.some.inj h).symm
  | playLock play =>
    simp only [execution?] at h
    split at h
    · refine hbegins _ play.token (hown _ rfl) ?_ (Option.some.inj h).symm
      exact Context.script_of_bare Context.bare_takeBreakpoint
    · cases h
  | stepLock =>
    simp only [execution?] at h
    split at h
    · obtain ⟨token, htoken, hy⟩ := Option.map_eq_some_iff.mp h
      exact hbegins { p.context with stepMode := true } token htoken rfl hy.symm
    · cases h
  | _ => cases h

/-! ### On the way to the gate and to the line lock -/

/-- A step that waits for something is made only when it is there. -/
lemma holds_of_ready {waits : Prop} [Decidable waits] {x : Player × Progress}
    (hready : (if waits then x else (p, .blocked)).2 ≠ .blocked) : waits := by
  by_contra hnot
  rw [if_neg hnot] at hready
  exact hready rfl

/-- The request has the gate, to play or to reset. -/
def Enters (id : Nat) (p : Player) : Phase → Prop
  | .playGate .. | .resetGate => p.gate.isHeldBy id = true
  | _ => False

/-- A step that changes nothing but who waits for the gate or for the line lock, or stops the
playback. -/
structure Aside (id : Nat) (p : Player) (x : Player × Progress) : Prop where
  estate : x.1.estate = { p.estate with gate := x.1.gate }
  gate : p.gate.Passes id x.1.gate
  checkpoint : x.1.recovery.checkpoint = p.recovery.checkpoint
  idle : p.state = .idle → x.1.state = .idle
  next : ∀ next, x.2 = .goes next →
    next.isRegular = true ∧ next.token? = none ∧ next.line? = none

/-- A request that ends aside. -/
lemma aside_ends {answer : Answer} (hestate : q.estate = { p.estate with gate := q.gate })
    (hgate : p.gate.Passes id q.gate) (hcheckpoint : q.recovery.checkpoint = p.recovery.checkpoint)
    (hidle : p.state = .idle → q.state = .idle) : Aside id p (q, .ends answer) :=
  ⟨hestate, hgate, hcheckpoint, hidle, fun _ h => Progress.noConfusion h⟩

/-- A request that waits for the gate, having stopped the playback. -/
lemma aside_request {next : Phase} (hestate : q.estate = p.estate)
    (hcheckpoint : q.recovery.checkpoint = p.recovery.checkpoint)
    (hidle : p.state = .idle → q.state = .idle)
    (hnext : next.isRegular = true ∧ next.token? = none ∧ next.line? = none) :
    Aside id p ({ q with gate := q.gate.request id }, .goes next) := by
  have hgate : q.gate = p.gate := congrArg Estate.gate hestate
  refine ⟨?_, ?_, hcheckpoint, hidle, fun n hn => ?_⟩
  · exact congrArg (fun e : Estate => { e with gate := q.gate.request id }) hestate
  · exact hgate ▸ .asked
  · cases hn
    exact hnext

/-- A stop leaves the estate and the checkpoint alone. -/
lemma checkpoint_stop : p.stop.recovery.checkpoint = p.recovery.checkpoint :=
  congrArg Place.checkpoint stays_stop.place

lemma idle_stop (h : p.state = .idle) : p.stop.state = .idle := by
  unfold stop
  rw [h]
  exact h

lemma aside_requestPlay {script : Script} {start : Start} {bound : Bool} :
    Aside id p (p.requestPlay id script start bound) := by
  unfold requestPlay
  split
  · exact aside_ends rfl .same rfl fun h => h
  · split
    · exact aside_ends rfl .same rfl fun h => h
    · exact aside_request estate_stop checkpoint_stop idle_stop ⟨rfl, rfl, rfl⟩

/-- What a request does that comes nearer to the gate or to the line lock. -/
lemma aside_step (id : Nat) (hphase : phase.isRegular = true) (htoken : phase.token? = none)
    (hexec : p.execution? id phase = none) (hgate : ¬ Enters id p phase) :
    (p.step id phase).2 = .blocked ∨ Aside id p (p.step id phase) := by
  cases phase with
  | entering r =>
    refine .inr ?_
    cases r with
    | play script start bound => exact aside_requestPlay
    | playNamed name =>
      simp only [step, accept]
      split
      · exact aside_ends rfl .same rfl fun h => h
      · exact ⟨rfl, .same, rfl, fun h => h, fun n hn => by cases hn; exact ⟨rfl, rfl, rfl⟩⟩
    | reset => exact aside_request estate_stop checkpoint_stop idle_stop ⟨rfl, rfl, rfl⟩
    | shutDown =>
      obtain ⟨q, hq⟩ : ∃ q, q = { p with isShutDown := true } := ⟨_, rfl⟩
      have hestate : q.estate = p.estate := by rw [hq]; rfl
      have hcheckpoint : q.recovery.checkpoint = p.recovery.checkpoint := by rw [hq]
      have hstate : p.state = .idle → q.state = .idle := by rw [hq]; exact fun h => h
      simp only [step, accept]
      rw [← hq]
      exact aside_request (estate_stop.trans hestate) (checkpoint_stop.trans hcheckpoint)
        (fun h => idle_stop (hstate h)) ⟨rfl, rfl, rfl⟩
    | stepForward =>
      simp only [step, accept]
      split
      · exact aside_ends rfl .same rfl fun h => h
      · exact ⟨rfl, .same, rfl, fun h => h, fun n hn => by cases hn; exact ⟨rfl, rfl, rfl⟩⟩
    | _ => cases hphase
  | loading name =>
    refine .inr ?_
    simp only [step, loadAndPlay]
    split
    · exact aside_ends rfl .same rfl fun h => h
    · split
      · exact aside_ends rfl .same rfl fun h => h
      · exact aside_requestPlay
  | playGate script start bound =>
    have hwaits : ¬ p.gate.isHeldBy id = true := hgate
    simp only [step]
    exact .inl (by rw [if_neg hwaits])
  | resetGate =>
    have hwaits : ¬ p.gate.isHeldBy id = true := hgate
    simp only [step]
    exact .inl (by rw [if_neg hwaits])
  | closeGate =>
    simp only [step]
    split
    · next hheld => exact .inr (aside_ends rfl (.released hheld) rfl fun h => h)
    · exact .inl rfl
  | stepLock =>
    simp only [step]
    split
    · next hheld =>
      refine .inr ?_
      unfold beginStep
      split
      · exact aside_ends rfl .same rfl fun h => h
      · exact aside_ends rfl .same rfl fun h => h
      · next token hrefusal htoken =>
        simp only [execution?] at hexec
        rw [if_pos ⟨hheld, hrefusal⟩, htoken] at hexec
        cases hexec
    · exact .inl rfl
  | stepping line => cases hexec
  | preloading | paused | playLock | playing | delaying | autosaving => cases htoken
  | backLock | skipLock | storing | fetching | restoreLock => cases hphase

/-! ### Steps that leave the gate to its holder -/

/-- A step that lets no request pass the gate. -/
structure Keeps (id : Nat) (p : Player) (phase : Phase) (x : Player × Progress) : Prop where
  gate : p.gate.Passes id x.1.gate
  /-- Nobody but the playback in progress ends it. -/
  token : x.1.token = p.token ∨ x.1.token = none ∧ p.gate.isHeldBy id = true
  serial : p.serial ≤ x.1.serial
  loaded : p.context.script.isSome = true → x.1.context.script.isSome = true
  regular : ∀ next, x.2 = .goes next → next.isRegular = true
  own : ∀ next T, x.2 = .goes next → next.token? = some T →
    x.1.gate.isHeldBy id = true ∧ x.1.token = some T
  /-- A playback in progress keeps its token until it ends. -/
  owner : ∀ T, phase.token? = some T → (∀ next, x.2 = .goes next → next.token? = some T) ∧
    ∀ answer, x.2 = .ends answer → x.1.token = none
  /-- A line that is executed is one of the playback in progress, if there is one. -/
  line : ∀ next line, x.2 = .goes next → next.line? = some line →
    x.1.context.script.isSome = true ∧ ∀ T, x.1.token = some T → line.work.token = T

/-- A playback that executes no line. -/
lemma Lulls.keeps (h : Lulls token p x) (hphase : phase.token? = some token)
    (hheld : p.gate.isHeldBy id = true) (htoken : p.token = some token) : Keeps id p phase x := by
  have hloaded : x.1.context.bare = p.context.bare → p.context.script.isSome = true →
      x.1.context.script.isSome = true := fun hbare hsome =>
    (congrArg Option.isSome (Context.script_of_bare hbare)).trans hsome
  rcases h.estate with ⟨next, hgoes, hnext, hline, hestate, -⟩ |
    ⟨answer, hends, hnone, hgate, hserial, hbare⟩
  · have hgate : x.1.gate = p.gate := congrArg Estate.gate hestate
    have hsame : x.1.token = p.token := congrArg Estate.token hestate
    refine ⟨hgate ▸ .same, .inl hsame, Nat.le_of_eq (congrArg Estate.serial hestate).symm,
      hloaded (congrArg Estate.place hestate), fun n hn => ?_, fun n T hn hT => ?_,
      fun T hT => ⟨fun n hn => ?_, fun answer hn => ?_⟩, fun n line hn hl => ?_⟩ <;>
      cases hgoes.symm.trans hn
    · exact Phase.isRegular_of_isPlayback (Phase.isPlayback_of_token? hnext)
    · cases hnext.symm.trans hT
      exact ⟨by rw [hgate]; exact hheld, hsame.trans htoken⟩
    · exact hnext.trans (hphase.symm.trans hT)
    · cases hline.symm.trans hl
  · have hnot : ∀ next, x.2 ≠ .goes next := fun next hnext => by
      rw [hends] at hnext
      cases hnext
    exact ⟨hgate ▸ .released hheld, .inr ⟨hnone, hheld⟩, Nat.le_of_eq hserial.symm, hloaded hbare,
      fun n hn => absurd hn (hnot n), fun n T hn => absurd hn (hnot n),
      fun _ _ => ⟨fun n hn => absurd hn (hnot n), fun _ _ => hnone⟩,
      fun n line hn => absurd hn (hnot n)⟩

/-- A playback that goes on from its line. -/
lemma Keeps.of_executes (h : Keeps id y.1 phase x) (hy : Executes token p y) :
    Keeps id p phase x :=
  ⟨hy.gate ▸ h.gate, by rw [← hy.keeps, ← hy.gate]; exact h.token, Nat.le_trans hy.serial h.serial,
    fun hsome => h.loaded (hy.loaded hsome), h.regular, h.own, h.owner, h.line⟩

/-- A line is in flight. -/
lemma keeps_lined {line : LinePhase} {next : Phase} (hline : next.line? = some line)
    (hregular : next.isRegular = true) (hloaded : q.context.script.isSome = true)
    (hwork : ∀ T, q.token = some T → line.work.token = T)
    (hsame : next.token? = phase.token?)
    (hown : ∀ T, phase.token? = some T → q.gate.isHeldBy id = true ∧ q.token = some T) :
    Keeps id q phase (q, .goes next) where
  gate := .same
  token := .inl rfl
  serial := Nat.le_refl _
  loaded h := h
  regular n hn := by cases hn; exact hregular
  own n T hn hT := by cases hn; exact hown T (hsame.symm.trans hT)
  owner T hT := ⟨fun n hn => by cases hn; exact hsame.trans hT, fun _ h => Progress.noConfusion h⟩
  line n l hn hl := by
    cases hn
    cases hline.symm.trans hl
    exact ⟨hloaded, hwork⟩

/-- What a playback makes of its line. -/
lemma Executes.followPlay (hy : Executes token p y) (htoken : ∀ T, p.token = some T → token = T)
    (hphase : phase.token? = some play.token) (hheld : p.gate.isHeldBy id = true)
    (hown : p.token = some play.token) (hready : y.2 ≠ .blocked) :
    Keeps id p phase (Player.followPlay id play y) := by
  refine Keeps.of_executes ?_ hy
  have hgate : y.1.gate.isHeldBy id = true := by rw [hy.gate]; exact hheld
  have hsame : y.1.token = some play.token := hy.keeps.trans hown
  obtain ⟨q, progress⟩ := y
  cases progress with
  | blocked => exact absurd rfl hready
  | goes line =>
    obtain ⟨hloaded, hwork⟩ := hy.line line rfl
    refine keeps_lined rfl rfl hloaded (fun T hT => hwork.trans (htoken T ?_)) hphase.symm
      fun T hT => ?_
    · exact hy.keeps.symm.trans hT
    · cases hphase.symm.trans hT
      exact ⟨hgate, hsame⟩
  | ends by_ => exact lulls_afterLine.keeps hphase hgate hsame

/-- What a single step makes of its line. -/
lemma Executes.followStep (hy : Executes token p y) (htoken : ∀ T, p.token = some T → token = T)
    (hphase : phase.token? = none) (hready : y.2 ≠ .blocked) :
    Keeps id p phase (Player.followStep y) := by
  have hnone : ∀ T, phase.token? ≠ some T := fun T hT => by
    rw [hphase] at hT
    cases hT
  refine Keeps.of_executes ?_ hy
  obtain ⟨q, progress⟩ := y
  cases progress with
  | blocked => exact absurd rfl hready
  | goes line =>
    obtain ⟨hloaded, hwork⟩ := hy.line line rfl
    exact keeps_lined rfl rfl hloaded
      (fun T hT => hwork.trans (htoken T (hy.keeps.symm.trans hT))) hphase.symm
      fun T hT => absurd hT (hnone T)
  | ends by_ =>
    have hends : ∀ (r : Player) (answer : Answer), r.gate = q.gate → r.token = q.token →
        r.serial = q.serial → r.context.script = q.context.script →
          Keeps id q phase (r, .ends answer) := fun r answer hgate hkept hserial hscript =>
      ⟨hgate ▸ .same, .inl hkept, Nat.le_of_eq hserial.symm,
        fun h => (congrArg Option.isSome hscript).trans h, fun _ h => Progress.noConfusion h,
        fun _ _ h => Progress.noConfusion h, fun T hT => absurd hT (hnone T),
        fun _ _ h => Progress.noConfusion h⟩
    cases by_ with
    | next => exact hends _ _ rfl rfl rfl rfl
    | finished f =>
      have hdeferred : ({ q with context := { q.context with stepMode := false }
                                 deferred := some f }.moveFrom q.run .paused .playing).2.estate =
          { q with context := { q.context with stepMode := false }, deferred := some f }.estate :=
        estate_moveFrom
      exact hends _ _ (congrArg Estate.gate hdeferred) (congrArg Estate.token hdeferred)
        (congrArg Estate.serial hdeferred)
        (Context.script_of_bare (congrArg Estate.place hdeferred))

/-- Every step of a regular request that lets nothing pass the gate leaves it to its holder. -/
lemma keeps_step (id : Nat) (hphase : phase.isRegular = true)
    (hown : ∀ T, phase.token? = some T → p.gate.isHeldBy id = true ∧ p.token = some T)
    (hlines : ∀ line, phase.line? = some line → p.context.script.isSome = true ∧
      ∀ T, p.token = some T → line.work.token = T)
    (hgate : ¬ Enters id p phase) (hready : (p.step id phase).2 ≠ .blocked) :
    Keeps id p phase (p.step id phase) := by
  cases hexec : p.execution? id phase with
  | some y =>
    have hy : y.2 ≠ .blocked := by
      intro hblocked
      refine hready ?_
      obtain ⟨q, progress⟩ := y
      cases hblocked
      rcases step_of_execution hexec with ⟨-, hstep⟩ | ⟨-, play, -, hstep⟩ <;> rw [hstep] <;> rfl
    obtain ⟨token, hexecutes, htoken⟩ :=
      executes_step id (fun T hT => (hown T hT).2) hlines hexec hy
    rcases step_of_execution hexec with ⟨hside, hstep⟩ | ⟨-, play, hplay, hstep⟩
    · rw [hstep]
      exact hexecutes.followStep htoken (Phase.token?_of_isSide hside) hy
    · obtain ⟨hheld, hsame⟩ := hown _ hplay
      rw [hstep]
      exact hexecutes.followPlay htoken hplay hheld hsame hy
  | none =>
    cases htoken : phase.token? with
    | some token =>
      obtain ⟨hheld, hsame⟩ := hown token htoken
      exact ((lulls_step id htoken hexec).resolve_left hready).keeps htoken hheld hsame
    | none =>
      obtain ⟨hestate, hpasses, -, -, hnext⟩ :=
        (aside_step id hphase htoken hexec hgate).resolve_left hready
      have hbare : (p.step id phase).1.context.bare = p.context.bare :=
        congrArg Estate.place hestate
      refine ⟨hpasses, .inl (congrArg Estate.token hestate),
        Nat.le_of_eq (congrArg Estate.serial hestate).symm, fun h => ?_,
        fun n hn => (hnext n hn).1, fun n T hn hT => ?_, fun T hT => ?_, fun n line hn hl => ?_⟩
      · exact (congrArg Option.isSome (Context.script_of_bare hbare)).trans h
      · cases (hnext n hn).2.1.symm.trans hT
      · cases htoken.symm.trans hT
      · cases (hnext n hn).2.2.symm.trans hl

/-! ### Having the gate -/

/-- The estate of a playback that has the gate and has just started. -/
def opening (p : Player) (script : Script) (start : Start) (bound : Bool) : Estate :=
  { gate := p.gate
    token := some ⟨p.serial, bound⟩
    serial := p.serial + 1
    run := .numbered p.serial
    place := (start.opening script).bare
    lines := (start.opening script).linesExecuted
    commands := (start.opening script).commandsExecuted
    deferred := none
    spent := {} }

/-- A playback that has started with an estate of its own, or has ended at once. -/
inductive Inherits (p : Player) (script : Script) (start : Start) (bound : Bool) :
    Player × Progress → Prop
  | goes {q : Player} {next : Phase} (htoken : next.token? = some ⟨p.serial, bound⟩)
    (hline : next.line? = none) (hestate : q.estate = p.opening script start bound)
    (hcheckpoint : next.isEarly = false →
      ∃ s, q.recovery.checkpoint = some s ∧ s.StandsAt q.context) :
    Inherits p script start bound (q, .goes next)
  | ends {q : Player} {answer : Answer} (hgate : q.gate = p.gate.release)
    (hserial : p.serial ≤ q.serial) (htoken : q.token = none ∨ q.token = p.token) :
    Inherits p script start bound (q, .ends answer)

/-- A playback that is ended as soon as it has started. -/
lemma inherits_finish {script : Script} {start : Start} {bound : Bool} (hgate : q.gate = p.gate)
    (hserial : p.serial ≤ q.serial) : Inherits p script start bound (q.finish f) := by
  obtain ⟨r, hends, -⟩ := finish_spec q f
  have hestate := estate_finish (p := q) (f := f)
  obtain ⟨e, he⟩ : ∃ e, e = q.finish f := ⟨_, rfl⟩
  rw [← he] at hends hestate ⊢
  obtain ⟨e, progress⟩ := e
  cases hends
  refine .ends ?_ (Nat.le_trans hserial ?_) (.inl (congrArg Estate.token hestate))
  · rw [← hgate]
    exact congrArg Estate.gate hestate
  · exact Nat.le_of_eq (congrArg Estate.serial hestate).symm

lemma inherits_startLines {script : Script} {start : Start} {bound : Bool} {name : String}
    (hestate : q.estate = p.opening script start bound)
    (hloaded : q.context.script.isSome = true) :
    Inherits p script start bound (q.startLines id ⟨p.serial, bound⟩ run name) := by
  obtain ⟨x, hx⟩ : ∃ x, x = q.startLines id ⟨p.serial, bound⟩ run name := ⟨_, rfl⟩
  have hstarts : Lulls ⟨p.serial, bound⟩ q x ∧ (q.context.script.isSome = true →
      ∀ next, x.2 = .goes next →
        ∃ s, x.1.recovery.checkpoint = some s ∧ s.StandsAt q.context) := by
    rw [hx]
    exact lulls_startLines
  obtain ⟨hlulls, hset⟩ := hstarts
  have hgate : q.gate = p.gate := congrArg Estate.gate hestate
  have hserial : q.serial = p.serial + 1 := congrArg Estate.serial hestate
  rw [← hx]
  rcases hlulls.estate with ⟨next, hgoes, htoken, hline, hsame, -⟩ |
    ⟨answer, hends, hnone, hopen, hlast, -⟩
  · obtain ⟨s, hs, hstands⟩ := hset hloaded next hgoes
    obtain ⟨r, progress⟩ := x
    cases hgoes
    exact .goes htoken hline (hsame.trans hestate) fun _ =>
      ⟨s, hs, standsAt_of_estate hstands (estate_with_gate hsame)⟩
  · obtain ⟨r, progress⟩ := x
    cases hends
    refine .ends (hgate ▸ hopen) ?_ (.inl hnone)
    rw [hlast, hserial]
    exact Nat.le_succ _

/-- A playback that has the gate gets an estate of its own, or ends. -/
lemma inherits_beginPlay {script : Script} {start : Start} {bound : Bool} :
    Inherits p script start bound (p.beginPlay id script start bound) := by
  obtain ⟨now, hgist⟩ := gist_prepare (p := p) script bound
  have htoken : (p.prepare script bound).1 = ⟨p.serial, bound⟩ := rfl
  obtain ⟨q, hq⟩ : ∃ q, q = (p.prepare script bound).2 := ⟨_, rfl⟩
  rw [← hq] at hgist
  have hcore := congrArg Gist.core hgist
  have hgate : q.gate = p.gate := (congrArg Player.gate hcore).trans rfl
  have hserial : q.serial = p.serial + 1 := (congrArg Player.serial hcore).trans rfl
  have hcontext : q.context = p.context.resetFor script now :=
    (congrArg Player.context hcore).trans rfl
  obtain ⟨c, hc⟩ : ∃ c, c = startAt { q.context with labels := script.survey.labels } start :=
    ⟨_, rfl⟩
  have hplace : c.bare = (start.opening script).bare ∧
      c.linesExecuted = (start.opening script).linesExecuted ∧
        c.commandsExecuted = (start.opening script).commandsExecuted ∧ c.script.isSome = true := by
    rw [hc, hcontext]
    cases start <;> exact ⟨rfl, rfl, rfl, rfl⟩
  have hopening :
      ∀ trace, { q with context := c, trace }.estate = p.opening script start bound := by
    intro trace
    have hestate : { q with context := c, trace }.estate = { q.estate with
        place := c.bare, lines := c.linesExecuted, commands := c.commandsExecuted } := rfl
    have hqestate : q.estate = _ := (congrArg estate hcore : q.core.estate = _)
    rw [hestate, hqestate, hplace.1, hplace.2.1, hplace.2.2.1]
    rfl
  have hnext : p.serial ≤ q.serial := by omega
  unfold beginPlay
  split
  · exact .ends rfl (Nat.le_refl _) (.inr rfl)
  · dsimp only
    rw [htoken, ← hq]
    split
    · next fault _ =>
      have hestate : (q.moveFrom q.run .loading .failed).2.estate = q.estate := estate_moveFrom
      refine inherits_finish ((congrArg Estate.gate hestate).trans hgate) ?_
      exact Nat.le_trans hnext (Nat.le_of_eq (congrArg Estate.serial hestate).symm)
    · rw [← hc]
      split
      · split
        · exact inherits_finish hgate hnext
        · exact .goes rfl rfl (hopening _) fun h => absurd h Bool.noConfusion
      · obtain ⟨r, hr⟩ : ∃ r, r = { q with context := c } := ⟨_, rfl⟩
        have hrestate : r.estate = p.opening script start bound := hr ▸ hopening q.trace
        have hloaded : r.context.script.isSome = true := by
          rw [hr]
          exact hplace.2.2.2
        have hstarts : ∀ run, Inherits p script start bound
            (r.startLines id ⟨p.serial, bound⟩ run script.name) := fun run =>
          inherits_startLines hrestate hloaded
        rw [hr] at hstarts
        exact hstarts q.run

/-- Nothing of any playback is left. -/
structure Blank (p : Player) : Prop where
  state : p.state = .idle
  place : p.context.bare = {}
  lines : p.context.linesExecuted = 0
  commands : p.context.commandsExecuted = 0
  deferred : p.deferred = none
  spent : p.spent = {}
  checkpoint : p.recovery.checkpoint = none

/-- A player that is reset keeps its token and opens the gate. -/
lemma resetAll_spec : p.resetAll.1.Blank ∧ p.resetAll.1.gate = p.gate.release ∧
    p.resetAll.1.token = p.token ∧ p.resetAll.1.serial = p.serial ∧
      p.resetAll.2 = .ends .done := by
  obtain ⟨q, hq⟩ : ∃ q, q = p.resetState p.run := ⟨_, rfl⟩
  have hgist := gist_resetState p p.run
  rw [← hq] at hgist
  have hstate : q.state = .idle := congrArg Gist.state hgist
  have hcore : q.core = p.core := congrArg Gist.core hgist
  have hgate : q.gate = p.gate := (congrArg Player.gate hcore).trans rfl
  have htoken : q.token = p.token := (congrArg Player.token hcore).trans rfl
  have hserial : q.serial = p.serial := (congrArg Player.serial hcore).trans rfl
  unfold resetAll
  dsimp only
  rw [← hq]
  refine ⟨⟨hstate, rfl, rfl, rfl, rfl, rfl, rfl⟩, ?_, htoken, hserial, rfl⟩
  exact congrArg Lock.release hgate

end Player

end Recital

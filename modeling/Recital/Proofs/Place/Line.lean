import Recital.Proofs.Place.Context
import Recital.Proofs.Player.Line

/-!
# Lines keep to the script

While a line is executed, nothing else moves the cursor.  Each phase of the line remembers its
index, and the line under the cursor is still the one that the phase is about (`LinePhase.Fits`).
From this follows that the line after it exists or is the end of the script, that a return address
that is left follows a subroutine call, and, since the checkpoint fits the script, that a rollback
keeps to it.  A call continues in another script with everything that belongs to a script set anew,
the checkpoint included.
-/

namespace Recital

/-- A host that has scripts of built-in commands only. -/
def Host.LoadsBuiltin (h : Host) : Prop :=
  ∀ load, h.loader = some load → ∀ name script, load name = .ok script → script.IsBuiltin

/-- The line is the one under the cursor. -/
structure Work.IsAt (w : Work) (c : Context) : Prop where
  /-- The cursor is on the line. -/
  cursor : c.cursor = w.index
  /-- There is such a line. -/
  lt : w.index < c.lineCount

/-- The command is the one under the cursor. -/
structure Job.IsAt (j : Job) (c : Context) : Prop where
  /-- The cursor is on the line of the command. -/
  cursor : c.cursor = j.work.index
  /-- The command stands on the line. -/
  line : ∃ source, c.line? j.work.index = some (.command source (some j.command))

/-- A phase of the line under the cursor. -/
def LinePhase.Fits (c : Context) : LinePhase → Prop
  | .flying j _ => j.IsAt c
  | .resting j _ => j.IsAt c
  | .presenting w _ _ => w.IsAt c
  | .switching w _ _ _ => w.IsAt c

/-- Planning a recovery does not move the checkpoint, and a rollback leads to it. -/
lemma Recovery.plan_spec (r : Recovery) (fault : Fault) (policy : Policy) (spent limit : Nat) :
    (r.plan fault policy spent limit).2.checkpoint = r.checkpoint ∧
      ∀ s, (r.plan fault policy spent limit).1 = .rollback s → r.checkpoint = some s := by
  unfold plan
  split
  · exact ⟨rfl, fun s hs => Plan.noConfusion hs⟩
  · next remedy _ =>
    refine ⟨rfl, fun s hs => ?_⟩
    dsimp only [planFor] at hs
    cases remedy with
    | skip | jump | stop => cases hs
    | retry =>
      simp only at hs
      split at hs <;> cases hs
    | rollback =>
      simp only at hs
      split at hs
      · next snapshot hsnapshot =>
        split at hs
        · cases hs
          exact hsnapshot
        · cases hs
      · cases hs

/-- A line stays the one under the cursor as long as the place stays the same. -/
lemma Work.IsAt.of_bare {w : Work} {c d : Context} (hw : w.IsAt c) (hbare : d.bare = c.bare) :
    w.IsAt d := by
  have hcursor : d.cursor = c.cursor :=
    (congrArg Context.cursor hbare : d.bare.cursor = c.bare.cursor)
  refine ⟨hcursor.trans hw.cursor, ?_⟩
  rw [Context.lineCount_of_script (Context.script_of_bare hbare)]
  exact hw.lt

/-- A command stays the one under the cursor as long as the place stays the same. -/
lemma Job.IsAt.of_bare {j : Job} {c d : Context} (hj : j.IsAt c) (hbare : d.bare = c.bare) :
    j.IsAt d := by
  have hcursor : d.cursor = c.cursor :=
    (congrArg Context.cursor hbare : d.bare.cursor = c.bare.cursor)
  refine ⟨hcursor.trans hj.cursor, ?_⟩
  rw [Context.line?_of_script (Context.script_of_bare hbare)]
  exact hj.line

/-- The line of a command under the cursor is under the cursor. -/
lemma Job.IsAt.work {j : Job} {c : Context} (hj : j.IsAt c) : j.work.IsAt c := by
  obtain ⟨source, hline⟩ := hj.line
  exact ⟨hj.cursor, Context.lt_lineCount_of_line? hline⟩

/-- The effects of a command keep the cursor and the script.  A return address is left by a
subroutine call, and leads to the line after it. -/
lemma Context.IsSound.affects {c : Context} {index : Nat} {source : String} {command : Command}
    (hc : c.IsSound) (hline : c.line? index = some (.command source (some command)))
    (hbuiltin : command.IsBuiltin) (n : Nat) (script : String) :
    let d := (command.attempt n (c.view index script)).effects.foldl (·.affect index script) c
    d.IsSound ∧ d.script = c.script ∧ d.cursor = c.cursor := by
  cases command with
  | gosub label =>
    have hreturn : c.IsReturn ⟨index + 1⟩ := ⟨index, _, hline, ⟨source, label, rfl⟩, rfl⟩
    simp only [Command.attempt]
    split
    · exact ⟨hc.pushFrame hreturn, rfl, rfl⟩
    · exact ⟨hc, rfl, rfl⟩
  | custom => exact hbuiltin.elim
  | assign | clear | jump | back | stop | wait | log | call =>
    exact ⟨of_bare (c := c) rfl hc, rfl, rfl⟩

namespace Player

variable {p q : Player} {w : Work} {j : Job} {f : Flight} {run : Run}

/-- A player with scripts of built-in commands, at a place in one of them. -/
structure IsSound (p : Player) : Prop where
  /-- The cursor, the return addresses and the labels belong to the loaded script. -/
  context : p.context.IsSound
  /-- The loaded script is one of built-in commands. -/
  isBuiltin : ∀ script, p.context.script = some script → script.IsBuiltin
  /-- So are the scripts that can be called. -/
  loads : p.host.LoadsBuiltin

/-- The command of a line of the loaded script is built in. -/
lemma IsSound.isBuiltin_of_line? {index : Nat} {source : String} {command : Command}
    (hp : p.IsSound) (hline : p.context.line? index = some (.command source (some command))) :
    command.IsBuiltin := by
  obtain ⟨script, hscript, hget⟩ := Option.bind_eq_some_iff.mp hline
  exact hp.isBuiltin script hscript _ (List.mem_of_getElem? hget)

/-- A player that may return to its checkpoint. -/
structure IsSafe (p : Player) : Prop extends IsSound p where
  /-- The checkpoint fits the loaded script. -/
  fits : ∀ s, p.recovery.checkpoint = some s → s.Fits p.context

/-! ### The place of a player -/

/-- What the place of a player consists of. -/
structure Place where
  /-- Where scripts come from. -/
  host : Host
  /-- Where the playback stands. -/
  context : Context
  /-- Where it may return to. -/
  checkpoint : Option Snapshot

/-- The place of a player. -/
def place (p : Player) : Place := ⟨p.host, p.context.bare, p.recovery.checkpoint⟩

lemma place_of_core (h : q.core = p.core) : q.place = p.place :=
  (congrArg place h : q.core.place = p.core.place)

lemma place_of_gist (h : q.gist = p.gist) :
    q.place = p.place := place_of_core (congrArg Gist.core h)

/-- Soundness carries over to another place in the same script. -/
lemma IsSound.of_context (hp : p.IsSound) (hhost : q.host = p.host)
    (hscript : q.context.script = p.context.script) (hcontext : q.context.IsSound) :
    q.IsSound := by
  refine ⟨hcontext, ?_, ?_⟩
  · rw [hscript]
    exact hp.isBuiltin
  · rw [hhost]
    exact hp.loads

/-- Safety carries over to another place in the same script. -/
lemma IsSafe.of_context (hp : p.IsSafe) (hhost : q.host = p.host)
    (hcheckpoint : q.recovery.checkpoint = p.recovery.checkpoint)
    (hscript : q.context.script = p.context.script) (hcontext : q.context.IsSound) :
    q.IsSafe := by
  refine ⟨hp.toIsSound.of_context hhost hscript hcontext, fun s hs => ?_⟩
  rw [hcheckpoint] at hs
  exact (hp.fits s hs).of_script hscript

lemma IsSafe.of_place (hp : p.IsSafe) (h : q.place = p.place) : q.IsSafe := by
  have hbare : q.context.bare = p.context.bare := congrArg Place.context h
  exact hp.of_context (congrArg Place.host h) (congrArg Place.checkpoint h)
    (Context.script_of_bare hbare) (hp.context.of_bare hbare)

/-- A player whose checkpoint is set to a snapshot that fits is safe. -/
lemma IsSound.safe_of_checkpoint {s : Snapshot} (hp : p.IsSound) (hs : s.Fits p.context)
    (hhost : q.host = p.host) (hcontext : q.context = p.context)
    (hcheckpoint : q.recovery.checkpoint = some s) : q.IsSafe := by
  refine ⟨hp.of_context hhost (congrArg Context.script hcontext) (hcontext ▸ hp.context), ?_⟩
  intro t ht
  rw [hcheckpoint] at ht
  cases ht
  rw [hcontext]
  exact hs

/-! ### Record keeping and changes of state -/

@[simp] lemma place_moveFrom {a b : State} : (p.moveFrom run a b).2.place = p.place :=
  place_of_core (congrArg Gist.core (gist_moveFrom p run))

@[simp] lemma place_leaveWaiting : (p.leaveWaiting j).place = p.place := by
  unfold leaveWaiting
  split
  · exact place_moveFrom
  · rfl

@[simp] lemma place_applyPause : (p.applyPause run).place = p.place := by
  unfold applyPause
  split
  · exact place_moveFrom
  · rfl

@[simp] lemma place_recordAttempt {result : Except Failure Flow} :
    (p.recordAttempt j f result).place = p.place :=
  place_of_gist (gist_recordAttempt p j f)

/-- Setting the checkpoint of a script that is loaded makes a player safe. -/
lemma IsSound.setCheckpoint {script : Script} (hp : p.IsSound)
    (hscript : p.context.script = some script) : p.setCheckpoint.IsSafe := by
  obtain ⟨s, hs⟩ : ∃ s, p.context.snapshot? (Instant.ofMillis p.now) = some s := by
    simp [Context.snapshot?, hscript]
  have hcore : p.setCheckpoint.core = { p.core with recovery := p.setCheckpoint.recovery } :=
    congrArg Gist.core (gist_setCheckpoint p)
  exact hp.safe_of_checkpoint (hp.context.fits hs) ((congrArg Player.host hcore).trans rfl)
    ((congrArg Player.context hcore).trans rfl) ((setCheckpoint_checkpoint p hscript).trans hs)

/-! ### The end of a line -/

/-- What became of a line: the playback is at a place in its script, and if the line goes on, it is
still the one under the cursor. -/
structure KeepsPlace (x : Player × LineProgress) : Prop where
  /-- The playback may return to its checkpoint. -/
  safe : x.1.IsSafe
  /-- The line is the one under the cursor. -/
  fits : ∀ phase, x.2 = .goes phase → phase.Fits x.1.context

/-- The end of a line keeps the place. -/
lemma keepsPlace_ends {b : LineEnd} (hp : p.IsSafe) : KeepsPlace (p, .ends b) :=
  ⟨hp, fun _ hgoes => LineProgress.noConfusion hgoes⟩

lemma keepsPlace_closeLine {b : LineEnd} (hp : p.IsSafe) : KeepsPlace (p.closeLine w b) := by
  have hplace : (p.publishProgress.applyPause w.run).place = p.place := place_applyPause
  exact keepsPlace_ends (hp.of_place hplace)

/-- A line that is passed over is followed by another one or by the end of the script. -/
lemma IsSafe.passOver {fault : Fault} (hp : p.IsSafe) (hindex : w.index < p.context.lineCount) :
    (p.passOver w fault).1.IsSafe := by
  unfold Player.passOver
  dsimp only
  split
  · have hfinished : (p.context.lineFinished w.index).IsSound :=
      hp.context.of_bare Context.bare_lineFinished
    have hscript : (p.context.lineFinished w.index).script = p.context.script :=
      Context.script_of_bare Context.bare_lineFinished
    refine hp.of_context rfl rfl hscript (hfinished.moveTo ?_)
    rw [Context.lineCount_of_script hscript]
    exact hindex
  · exact hp.of_place rfl

lemma keepsPlace_closeFailed {fault : Fault} (hp : p.IsSafe)
    (hindex : w.index < p.context.lineCount) : KeepsPlace (p.closeFailed w fault) :=
  keepsPlace_closeLine (hp.passOver hindex)

lemma keepsPlace_closeDone {recovered : Bool} {b : LineEnd} (hp : p.IsSafe) :
    KeepsPlace (p.closeDone w recovered b) := by
  unfold closeDone
  dsimp only
  split
  · exact keepsPlace_closeLine (hp.of_place rfl)
  · exact keepsPlace_closeLine hp

/-! ### Flow actions -/

/-- A flow action of the line under the cursor keeps to the script. -/
lemma keepsPlace_applyFlow {flow : Flow} {recovered : Bool} (hp : p.IsSafe)
    (hw : w.IsAt p.context) : KeepsPlace (p.applyFlow w flow recovered) := by
  unfold applyFlow
  split
  · exact keepsPlace_closeFailed hp hw.lt
  · next resolution context hresolve =>
    obtain ⟨hcontext, hscript, hcursor⟩ := hp.context.resolve hresolve
    have hcount : context.lineCount = p.context.lineCount := Context.lineCount_of_script hscript
    have hmoved : { p with context }.IsSafe := hp.of_context rfl rfl hscript hcontext
    dsimp only
    split
    · -- The line under the cursor is not the end of the script, so there is one to advance to.
      have hlt : context.cursor < context.lineCount := by
        rw [hcursor (.inl rfl), hw.cursor, hcount]
        exact hw.lt
      exact keepsPlace_closeDone (hp.of_context rfl rfl hscript (hcontext.moveTo hlt))
    · exact keepsPlace_closeDone hmoved
    · exact keepsPlace_closeDone hmoved
    · exact keepsPlace_closeDone hmoved
    · exact keepsPlace_closeDone hmoved
    · next name =>
      have hat : w.IsAt context := by
        refine ⟨(hcursor (.inr ⟨name, rfl⟩)).trans hw.cursor, ?_⟩
        rw [hcount]
        exact hw.lt
      split
      · exact keepsPlace_closeFailed hmoved hat.lt
      · refine ⟨hmoved, fun phase hgoes => ?_⟩
        cases hgoes
        exact hat

lemma keepsPlace_finishLine {flow : Flow} {recovered : Bool} (hp : p.IsSafe)
    (hw : w.IsAt p.context) : KeepsPlace (p.finishLine w flow recovered) := by
  have hbare : (p.context.recordLine.lineFinished w.index).bare = p.context.bare :=
    Context.bare_lineFinished.trans rfl
  refine keepsPlace_applyFlow (hp.of_context rfl rfl (Context.script_of_bare hbare) ?_) ?_
  · exact hp.context.of_bare hbare
  · exact hw.of_bare hbare

/-- A script that is continued in has built-in commands and comes with its own labels. -/
lemma IsSound.fetch {name : String} {script : Script} {labels : Table Nat} (hp : p.IsSound)
    (h : p.fetch w name = .ok (script, labels)) :
    script.IsBuiltin ∧ labels = script.survey.labels := by
  unfold Player.fetch at h
  split at h
  · cases h
  · next load hload =>
    split at h
    · cases h
    · next s hs =>
      dsimp only at h
      split at h
      · cases h
      · cases h
        exact ⟨hp.loads load hload name script hs, rfl⟩

/-- A call leaves nothing of the script that it leaves. -/
lemma IsSound.enter {caller : Run} {name : String} {script : Script} (hp : p.IsSound)
    (hscript : script.IsBuiltin) :
    (p.enter caller name script script.survey.labels).IsSafe := by
  obtain ⟨q, hq⟩ : ∃ q, q = { p with
      context := p.context.switchTo script script.survey.labels, attempts := {} } := ⟨_, rfl⟩
  have hqscript : q.context.script = some script := by rw [hq]; rfl
  have hsound : q.IsSound := by
    refine ⟨?_, fun s hs => ?_, ?_⟩
    · rw [hq]
      exact Context.isSound_switchTo _ _
    · rw [hqscript] at hs
      cases hs
      exact hscript
    · rw [hq]
      exact hp.loads
  have hplace : (p.enter caller name script script.survey.labels).place =
      q.setCheckpoint.place := by
    rw [hq]
    rfl
  exact (hsound.setCheckpoint hqscript).of_place hplace

lemma keepsPlace_switchScript {caller : Run} {name : String} {recovered : Bool} (hp : p.IsSafe)
    (hw : w.IsAt p.context) : KeepsPlace (p.switchScript w caller name recovered) := by
  unfold switchScript
  split
  · exact keepsPlace_closeFailed hp hw.lt
  · next script labels hfetch =>
    obtain ⟨hscript, rfl⟩ := hp.fetch hfetch
    exact keepsPlace_closeDone (hp.enter hscript)

/-! ### Failures -/

/-- Whatever is done about a fault keeps to the script. -/
lemma keepsPlace_handleFault {fault : Fault} {policy : Policy} (hp : p.IsSafe)
    (hw : w.IsAt p.context) : KeepsPlace (p.handleFault w fault policy) := by
  obtain ⟨hcheckpoint, hrollback⟩ := p.recovery.plan_spec fault policy (p.spent.count w.index)
    p.tolerance.maxRecoveries
  unfold handleFault
  split
  · exact keepsPlace_closeFailed hp hw.lt
  · dsimp only
    have hplanned : ∀ recovery : Recovery, recovery.checkpoint = p.recovery.checkpoint →
        { p with recovery }.IsSafe :=
      fun recovery hsame => hp.of_context rfl hsame rfl hp.context
    split
    · exact keepsPlace_finishLine (hplanned _ hcheckpoint) hw
    · exact keepsPlace_closeLine ((hplanned _ hcheckpoint).of_place rfl)
    · next snapshot hplan =>
      have hfits : snapshot.Fits p.context := hp.fits snapshot (hrollback snapshot hplan)
      exact keepsPlace_closeLine
        ((hplanned _ hcheckpoint).of_context rfl rfl rfl (hp.context.restore hfits))
    · exact keepsPlace_closeLine ((hplanned _ hcheckpoint).of_place rfl)
    · exact keepsPlace_closeFailed (hplanned _ hcheckpoint) hw.lt

/-! ### Commands -/

/-- An attempt of the command under the cursor is begun. -/
lemma keepsPlace_launch (hp : p.IsSafe) (hj : j.IsAt p.context) : KeepsPlace (p.launch j) := by
  cases hcancelled : p.isCancelled j.work.token with
  | true =>
    obtain ⟨q, hq⟩ : ∃ q, q =
        p.publish j.work.run (.commandExecuting j.work.index j.command.type) := ⟨_, rfl⟩
    have hqcancelled : q.isCancelled j.work.token = true := by rw [hq]; exact hcancelled
    have hqcontext : q.context = p.context := by rw [hq]; rfl
    have hlaunch : p.launch j = (q, .goes (.flying j q.stillborn)) := by
      simp only [launch, ← hq, hqcancelled, if_true]
    rw [hlaunch]
    refine ⟨hp.of_place (by rw [hq]; rfl), fun phase hgoes => ?_⟩
    cases hgoes
    exact hqcontext ▸ hj
  | false =>
    obtain ⟨n, q, f, attempt, hlaunch, hattempt, hgist, -⟩ := launch_spec hcancelled
    obtain ⟨source, hline⟩ := hj.line
    obtain ⟨hcontext, hscript, hcursor⟩ :=
      hp.context.affects hline (hp.isBuiltin_of_line? hline) n j.work.script
    rw [← hattempt] at hcontext hscript hcursor
    have hcore := congrArg Gist.core hgist
    have hqcontext : q.context = attempt.effects.foldl (·.affect j.work.index j.work.script)
        p.context := (congrArg Player.context hcore).trans rfl
    rw [← hqcontext] at hcontext hscript hcursor
    rw [hlaunch]
    refine ⟨?_, fun phase hgoes => ?_⟩
    · exact hp.of_context ((congrArg Player.host hcore).trans rfl)
        ((congrArg (·.recovery.checkpoint) hcore).trans rfl) hscript hcontext
    · cases hgoes
      refine ⟨hcursor.trans hj.cursor, source, ?_⟩
      rw [← hline]
      exact Context.line?_of_script hscript

/-- A failed attempt is followed by another one, or something is done about it. -/
lemma keepsPlace_attemptFailed {failure : Failure} (hp : p.IsSafe) (hj : j.IsAt p.context) :
    KeepsPlace (p.attemptFailed j failure) := by
  unfold attemptFailed
  dsimp only
  split
  · have hplace : (p.backoff (p.host.policy j.command.type) j.attempt).2.place = p.place :=
      place_of_gist (gist_backoff p)
    refine ⟨hp.of_place hplace, fun phase hgoes => ?_⟩
    cases hgoes
    exact hj.of_bare (congrArg Place.context hplace)
  · have hplace : (p.leaveWaiting j).place = p.place := place_leaveWaiting
    exact keepsPlace_handleFault (hp.of_place hplace)
      (hj.work.of_bare (congrArg Place.context hplace))

/-- An attempt has ended. -/
lemma keepsPlace_land {verdict : Except Failure CommandResult} (hp : p.IsSafe)
    (hj : j.IsAt p.context) : KeepsPlace (p.land j f verdict) := by
  obtain ⟨result, hresult⟩ : ∃ r, r = j.command.conclude verdict := ⟨_, rfl⟩
  obtain ⟨q, hq⟩ : ∃ q, q = p.recordAttempt j f result := ⟨_, rfl⟩
  have hplace : q.place = p.place := by rw [hq, place_recordAttempt]
  have hcounted : { q with context := q.context.recordCommand }.place = p.place := hplace
  have hleft : ({ q with context := q.context.recordCommand }.leaveWaiting j).place = p.place :=
    place_leaveWaiting.trans hcounted
  unfold land
  dsimp only
  rw [← hresult, ← hq]
  split
  · exact keepsPlace_finishLine (hp.of_place hleft)
      (hj.work.of_bare (congrArg Place.context hleft))
  · split
    · exact keepsPlace_ends (hp.of_place (place_leaveWaiting.trans hplace))
    · exact keepsPlace_attemptFailed (hp.of_place hcounted)
        (hj.of_bare (congrArg Place.context hcounted))

/-- The command of a line is begun; a line without one is at fault. -/
lemma keepsPlace_beginCommand {source : String} {command : Option Command} (hp : p.IsSafe)
    (hcursor : p.context.cursor = w.index)
    (hline : p.context.line? w.index = some (.command source command)) :
    KeepsPlace (p.beginCommand w command) := by
  unfold beginCommand
  split
  · exact keepsPlace_handleFault hp ⟨hcursor, Context.lt_lineCount_of_line? hline⟩
  · have hplace : (p.moveFrom w.run .playing .waiting).2.place = p.place := place_moveFrom
    refine keepsPlace_launch (hp.of_place hplace) ?_
    exact Job.IsAt.of_bare ⟨hcursor, source, hline⟩ (congrArg Place.context hplace)

/-! ### Text -/

lemma keepsPlace_beginText {text : String} (hp : p.IsSafe) (hw : w.IsAt p.context) :
    KeepsPlace (p.beginText w text) := by
  unfold beginText
  split
  · split
    · exact keepsPlace_ends hp
    · refine ⟨hp.of_place rfl, fun phase hgoes => ?_⟩
      cases hgoes
      exact hw
  · exact keepsPlace_finishLine hp hw

lemma keepsPlace_presented {verdict : Except Failure Unit} (hp : p.IsSafe)
    (hw : w.IsAt p.context) : KeepsPlace (p.presented w verdict) := by
  unfold presented
  split
  · exact keepsPlace_finishLine hp hw
  · split
    · exact keepsPlace_ends hp
    · exact keepsPlace_handleFault hp hw

/-! ### Phases -/

/-- A line that is begun is the one under the cursor, once past the end of the script is seen to. -/
lemma keepsPlace_beginLine (token : Token) (hp : p.IsSafe) : KeepsPlace (p.beginLine token) := by
  obtain ⟨hcontext, hscript⟩ := hp.context.settleCursor
  have hsettled : { p with context := p.context.settleCursor }.IsSafe :=
    hp.of_context rfl rfl hscript hcontext
  cases hcurrent : p.context.settleCursor.currentLine with
  | none =>
    have hbegin : p.beginLine token =
        ({ p with context := p.context.settleCursor }, .ends (.finished .completed)) := by
      unfold beginLine
      dsimp only
      rw [hcurrent]
    rw [hbegin]
    exact keepsPlace_ends hsettled
  | some line =>
    obtain ⟨q, w, hindex, -, -, hcore, -, -, hbegin⟩ := exists_beginLine token rfl hcurrent
    have hplace : q.place = { p with context := p.context.settleCursor }.place :=
      place_of_core hcore
    have hqcontext : q.context = p.context.settleCursor :=
      (congrArg Player.context hcore).trans rfl
    have hcursor : q.context.cursor = w.index := by rw [hqcontext, hindex]
    have hline : q.context.line? w.index = some line := by
      rw [hqcontext, hindex]
      exact hcurrent
    have hq : q.IsSafe := hsettled.of_place hplace
    rw [hbegin]
    cases line with
    | command source command => exact keepsPlace_beginCommand hq hcursor hline
    | text text => exact keepsPlace_beginText hq ⟨hcursor, Context.lt_lineCount_of_line? hline⟩

/-- Each step of a line keeps to the script, and to the line until it has ended. -/
lemma keepsPlace_stepLine {line : LinePhase} (hp : p.IsSafe) (hline : line.Fits p.context) :
    KeepsPlace (p.stepLine line) := by
  have hblocked : KeepsPlace (p, .blocked) := ⟨hp, fun _ hgoes => LineProgress.noConfusion hgoes⟩
  cases line with
  | flying j f =>
    simp only [stepLine]
    split
    · exact keepsPlace_land hp hline
    · exact hblocked
  | resting j until_ =>
    simp only [stepLine]
    split
    · exact keepsPlace_ends (hp.of_place place_leaveWaiting)
    · split
      · exact keepsPlace_launch hp ⟨hline.cursor, hline.line⟩
      · exact hblocked
  | presenting w until_ verdict =>
    simp only [stepLine]
    split
    · exact keepsPlace_ends hp
    · split
      · exact keepsPlace_presented hp hline
      · exact hblocked
  | switching w caller name recovered => exact keepsPlace_switchScript hp hline

end Player

end Recital

import Recital.Proofs.Player.Alone
import Recital.Proofs.Player.Gist

/-!
# The beginning, the rounds and the end of an undisturbed playback

What comes before, between and after the lines of a playback that nothing interferes with: it is
started, after each line it comes round to the head of its loop again, with delays and automatic
saves on the way, and in the end it reports.
-/

namespace Recital

/-- How a playback that was not cancelled ends. -/
def Finish.outcome : Finish → Outcome
  | .completed => .success
  | .stopped _ => .stopped
  | .failed .. => .failure
  | .halted .. => .stopped
  | .cancelled => .cancelled

/-- The line whose fault has ended the playback. -/
def Finish.line? : Finish → Option Nat
  | .failed _ line => some line
  | .halted _ line => some line
  | _ => none

namespace Player

variable {id : Nat} {token : Token} {p q : Player}

/-- The playback of a token goes on undisturbed: it has the line lock to itself, and nothing was
asked of it meanwhile. -/
structure Undisturbed (id : Nat) (token : Token) (p : Player) : Prop where
  lock : p.lineLock = { holder := some id }
  deferred : p.deferred = none
  pause : p.pauseRequested = false
  going : p.isCancelled token = false

/-- The lines of a playback and what they do leave it undisturbed. -/
lemma Undisturbed.of_core {context : Context} {recovery : Recovery} {spent : Tally} {run : Run}
    {serial : Nat} (hp : Undisturbed id token p)
    (hq : q.core = { p.core with context, recovery, spent, run, serial }) :
    Undisturbed id token q where
  lock := (congrArg Player.lineLock hq).trans hp.lock
  deferred := (congrArg Player.deferred hq).trans hp.deferred
  pause := (congrArg Player.pauseRequested hq).trans hp.pause
  going := (congrArg (·.isCancelled token) hq).trans hp.going

/-! ### Coming round -/

/-- The playback has come to the head of its loop.  Nothing has changed but for the checkpoint,
which an automatic save may have set. -/
def Returned (id : Nat) (token : Token) (p : Player) (c : Player × Progress) : Prop :=
  ∃ q play recovery, c = (q, .goes (.playLock play)) ∧ play.token = token ∧
    q.gist = { p.gist with core := { p.core with recovery, lineLock := { holder := some id } } } ∧
    (recovery = p.recovery ∨
      ∃ at_ s, p.context.snapshot? at_ = some s ∧ recovery = p.recovery.setCheckpoint s)

lemma Returned.ne_blocked {c : Player × Progress} (h : Returned id token p c) : c.2 ≠ .blocked := by
  obtain ⟨q, play, recovery, hc, -⟩ := h
  rw [hc]
  exact Progress.noConfusion

/-- Between two lines, an undisturbed playback asks for the line lock. -/
lemma continuePlay_eq {play : Play} (hdeferred : p.deferred = none)
    (hgoing : p.isCancelled play.token = false) (hstate : p.state = .playing) :
    p.continuePlay id play =
      ({ p with lineLock := p.lineLock.request id }, .goes (.playLock play)) := by
  simp only [continuePlay, playOn, hdeferred, hgoing, hstate]
  rfl

/-- What a playback does once it has the line lock. -/
inductive Engages (p : Player) (id : Nat) (play : Play) : Player × Progress → Prop
  /-- An end was left for it, or it is not playing. -/
  | yields (h : ¬ (p.deferred = none ∧ p.state = .playing)) :
    Engages p id play ({ p with lineLock := p.lineLock.release }.continuePlay id play)
  /-- A breakpoint pauses it. -/
  | pauses {q r : Player} {index : Nat} {context : Context} (hdeferred : p.deferred = none)
    (hstate : p.state = .playing) (htaken : p.context.takeBreakpoint = (some index, context))
    (hq : q = { p with context }.publish p.run (.breakpointHit index))
    (hr : r = (q.moveFrom q.run .playing .paused).2) :
    Engages p id play ({ r with lineLock := r.lineLock.release }.continuePlay id play)
  | begins {context : Context} (hdeferred : p.deferred = none) (hstate : p.state = .playing)
    (htaken : p.context.takeBreakpoint = (none, context)) :
    Engages p id play (followPlay id play ({ p with context }.beginLine play.token))

lemma engages_playLine (p : Player) (id : Nat) (play : Play) :
    Engages p id play (p.playLine id play) := by
  unfold playLine
  split
  · next hnot =>
    refine .yields fun ⟨hdeferred, hstate⟩ => ?_
    simp [hdeferred, hstate] at hnot
  · next hgo =>
    obtain ⟨hdeferred, hstate⟩ : p.deferred = none ∧ p.state = .playing := by simpa using hgo
    generalize htaken : p.context.takeBreakpoint = taken
    obtain ⟨hit, context⟩ := taken
    cases hit with
    | some index => exact .pauses hdeferred hstate htaken rfl rfl
    | none => exact .begins hdeferred hstate htaken

/-- After a line that does not end the playback there may be a delay. -/
lemma afterLine_next {play : Play} (hq : q = { p with lineLock := p.lineLock.release }) :
    p.afterLine id play .next =
      if q.lineDelay = .zero then q.autosave id play
      else (q, .goes (.delaying play (q.timer q.lineDelay))) := by
  rw [hq]
  rfl

section Returning

/- Once the line is over the lock is free; only records may have been kept since. -/
variable {play : Play} (hlock : p.lineLock = {}) (hdeferred : p.deferred = none)
  (hgoing : p.isCancelled play.token = false) (hstate : p.state = .playing)

include hlock hdeferred hgoing hstate

/-- A playback between two lines comes round; the checkpoint may have been set before. -/
lemma returned_continuePlay {play' : Play} {recovery : Recovery} (htoken : play'.token = play.token)
    (hq : q.gist = { p.gist with core := { p.core with recovery } })
    (hrecovery : recovery = p.recovery ∨
      ∃ at_ s, p.context.snapshot? at_ = some s ∧ recovery = p.recovery.setCheckpoint s) :
    Returned id play.token p (q.continuePlay id play') := by
  have hcore : q.core = { p.core with recovery } := congrArg Gist.core hq
  have hstate' : q.state = .playing := (congrArg Gist.state hq).trans hstate
  have hdeferred' : q.deferred = none := (congrArg Player.deferred hcore).trans hdeferred
  have hgoing' : q.isCancelled play'.token = false := by
    rw [htoken]
    exact (congrArg (·.isCancelled play.token) hcore).trans hgoing
  have hlock' : q.lineLock = {} := (congrArg Player.lineLock hcore).trans hlock
  refine ⟨_, play', recovery, continuePlay_eq hdeferred' hgoing' hstate', htoken, ?_, hrecovery⟩
  have hgist : { q with lineLock := { holder := some id } }.gist =
      { q.gist with core := { q.core with lineLock := { holder := some id } } } := rfl
  rw [hlock']
  refine hgist.trans ?_
  rw [hq, hcore]

/-- An automatic save is made when it is due, and the playback comes round. -/
lemma inevitably_autosave :
    Inevitably (AdvancesWithin id) (Returned id play.token p) (p.autosave id play) := by
  unfold autosave
  split
  · next s hs =>
    have hsnapshot : p.context.snapshot? (Instant.ofMillis p.now) = some s := by
      unfold autosaveDue at hs
      split at hs
      · split at hs
        · exact hs
        · cases hs
      · cases hs
    have hreturned : ∀ q : Player, q.gist = { p with recovery := p.recovery.setCheckpoint s }.gist →
        Returned id play.token p
          (q.measureMemory.continuePlay id { play with savedAt := p.stopwatch }) := by
      intro q hq
      refine returned_continuePlay hlock hdeferred hgoing hstate rfl ?_
        (.inr ⟨_, s, hsnapshot, rfl⟩)
      rw [gist_measureMemory, hq]
      rfl
    refine inevitably_of_ready rfl (fun _ => Returned.ne_blocked) fun now _ => .here ?_
    simp only [step]
    split
    · exact hreturned _ rfl
    · exact hreturned _ (gist_write _)
  · exact .here (returned_continuePlay hlock hdeferred hgoing hstate rfl rfl (.inl rfl))

/-- The delay after a line passes, and the playback comes round. -/
lemma inevitably_delaying {until_ : Nat} :
    Inevitably (AdvancesWithin id) (Returned id play.token p)
      (p, .goes (.delaying play until_)) := by
  have hstep : ∀ now, (p.at_ now).step id (.delaying play until_) =
      if until_ ≤ now then (p.at_ now).autosave id play else (p.at_ now, .blocked) := by
    intro now
    simp only [step, at_isCancelled, hgoing]
    rfl
  exact inevitably_of_timer (f := (·.autosave id play)) rfl (fun _ => Returned.ne_blocked) hstep
    fun now => inevitably_autosave (p := p.at_ now) hlock hdeferred hgoing hstate

end Returning

/-- After a line that does not end the playback, it comes round. -/
lemma inevitably_afterLine {play : Play} (hp : Undisturbed id play.token p)
    (hstate : p.state = .playing) :
    Inevitably (AdvancesWithin id) (Returned id play.token p) (p.afterLine id play .next) := by
  have hlock : p.lineLock.release = {} := by rw [hp.lock]; rfl
  obtain ⟨q, hq⟩ : ∃ q, q = { p with lineLock := p.lineLock.release } := ⟨_, rfl⟩
  have hqlock : q.lineLock = {} := by rw [hq]; exact hlock
  have hdeferred : q.deferred = none := by rw [hq]; exact hp.deferred
  have hgoing : q.isCancelled play.token = false := by rw [hq]; exact hp.going
  have hqstate : q.state = .playing := by rw [hq]; exact hstate
  -- Only the lock tells the player after the release from the one before.
  have hreturned : ∀ c, Returned id play.token q c → Returned id play.token p c := by
    rintro c ⟨r, play', recovery, hc, htoken, hr, hrecovery⟩
    subst hq
    exact ⟨r, play', recovery, hc, htoken, hr, hrecovery⟩
  unfold afterLine
  rw [← hq]
  dsimp only
  split
  · exact (inevitably_autosave hqlock hdeferred hgoing hqstate).mono hreturned
  · exact (inevitably_delaying hqlock hdeferred hgoing hqstate).mono hreturned

/-! ### The end -/

/-- The playback has ended with a report of where it stood. -/
structure Reported (p : Player) (f : Finish) (c : Player × Progress) (r : Report) : Prop where
  progress : c.2 = .ends (.report r)
  context : c.1.context = p.context
  course : c.1.bus.course = p.bus.course
  outcome : r.outcome = f.outcome
  line : r.lineIndex = f.line?
  scriptName : r.scriptName = p.context.scriptName
  lines : r.linesExecuted = p.context.linesExecuted
  commands : r.commandsExecuted = p.context.commandsExecuted

/-- Entering the last state changes nothing else. -/
lemma gist_conclude {f : Finish} :
    (p.conclude f).1.gist = { p.gist with state := (p.conclude f).1.state } := by
  cases f with
  | completed =>
    simp only [conclude]
    rw [gist_moveIfAllowed, gist_moveFrom]
  | stopped | failed | halted | cancelled => exact gist_moveIfAllowed _ _

/-- The end of a playback that was not cancelled is reported. -/
lemma exists_reported {f : Finish} (hf : f ≠ .cancelled) : ∃ r, Reported p f (p.finish f) r := by
  have hcontext : (p.conclude f).1.context = p.context :=
    congrArg (fun g : Gist => g.core.context) (gist_conclude (p := p) (f := f))
  have hcourse : (p.conclude f).1.bus.course = p.bus.course :=
    congrArg Gist.course (gist_conclude (p := p) (f := f))
  have houtcome : (p.conclude f).2.1 = f.outcome := by
    cases f with
    | cancelled => exact absurd rfl hf
    | completed | stopped | failed | halted => rfl
  have hline : (p.conclude f).2.2.map Prod.snd = f.line? := by
    cases f <;> rfl
  have hend : ∀ (q : Player) (r : Report), (q.publishEnd r).measureMemory.gist = q.gist := by
    intro q r
    rw [gist_measureMemory]
    unfold publishEnd
    split <;> exact gist_publish _ _ rfl
  refine ⟨_, rfl, ?_, ?_, houtcome, hline, ?_, ?_, ?_⟩
  · exact (congrArg (fun g : Gist => g.core.context) (hend _ _)).trans hcontext
  · exact (congrArg Gist.course (hend _ _)).trans hcourse
  · exact congrArg Context.scriptName hcontext
  · exact congrArg Context.linesExecuted hcontext
  · exact congrArg Context.commandsExecuted hcontext

/-- A line that ends the playback leads to the report. -/
lemma exists_reported_afterLine (id : Nat) (play : Play) {f : Finish} (hf : f ≠ .cancelled) :
    ∃ r, Reported p f (p.afterLine id play (.finished f)) r := by
  obtain ⟨r, hr⟩ := exists_reported (p := { p with lineLock := p.lineLock.release }) hf
  exact ⟨r, hr.progress, hr.context, hr.course, hr.outcome, hr.line, hr.scriptName, hr.lines,
    hr.commands⟩

/-! ### The beginning -/

/-- A player that nothing keeps from playing: nobody holds or wants its locks, and the number of the
next playback is new. -/
structure Ready (p : Player) : Prop where
  gate : p.gate = {}
  lock : p.lineLock = {}
  up : p.isShutDown = false
  fresh : p.serial ∉ p.cancelled
  old : ∀ t, p.token = some t → t.id ≠ p.serial

/-- A new player is ready. -/
lemma ready_of_new {host : Host} {bus : Bus} {store : Option Store} :
    Ready { host, bus, store : Player } :=
  ⟨rfl, rfl, rfl, List.not_mem_nil, fun _ h => by cases h⟩

/-- Where a playback of a script from a starting point first stands. -/
structure Started (id : Nat) (p : Player) (script : Script) (start : Start)
    (c : Player × Progress) : Prop where
  progress : ∃ play, c.2 = .goes (.playLock play) ∧ Undisturbed id play.token c.1
  state : c.1.state = .playing
  host : c.1.host = p.host
  closed : c.1.bus.closed = p.bus.closed
  context : ∃ now, c.1.context = startAt
    { p.context.resetFor script now with labels := script.survey.labels } start
  spent : c.1.spent = {}
  checkpoint : ∃ at_, c.1.recovery.checkpoint = c.1.context.snapshot? at_
  course : p.bus.closed = false → c.1.bus.course = p.bus.course ++ [.script script.name]

lemma Started.ne_blocked {script : Script} {start : Start} {c : Player × Progress}
    (h : Started id p script start c) : c.2 ≠ .blocked := by
  obtain ⟨play, hc, -⟩ := h.progress
  rw [hc]
  exact Progress.noConfusion

/-- Stopping what is left of an earlier playback cancels an old number at most. -/
lemma stop_spec (hp : Ready p) : ∃ stopRequested cancelled,
    p.stop.core = { p.core with stopRequested, cancelled } ∧ p.serial ∉ cancelled ∧
      p.stop.bus.course = p.bus.course := by
  unfold stop
  split
  · obtain ⟨q, hq⟩ : ∃ q, q = { p with stopRequested := true }.moveIfAllowed p.run .stopped :=
      ⟨_, rfl⟩
    have hgist := gist_moveIfAllowed { p with stopRequested := true } p.run (b := .stopped)
    rw [← hq] at hgist ⊢
    have hcore : q.core = { p.core with stopRequested := true } := congrArg Gist.core hgist
    have hcourse : q.bus.course = p.bus.course := congrArg Gist.course hgist
    have htoken : q.token = p.token := (congrArg Player.token hcore).trans rfl
    have hcancelled : q.cancelled = p.cancelled := (congrArg Player.cancelled hcore).trans rfl
    unfold cancelRun
    split
    · next t ht =>
      refine ⟨true, t.id :: p.cancelled, ?_, ?_, hcourse⟩
      · have hcons : { q with cancelled := t.id :: q.cancelled }.core =
            { q.core with cancelled := t.id :: q.cancelled } := rfl
        rw [hcons, hcore, hcancelled]
      · rw [htoken] at ht
        simpa using ⟨(hp.old t ht).symm, hp.fresh⟩
    · exact ⟨true, p.cancelled, hcore, hp.fresh, hcourse⟩
  · exact ⟨p.stopRequested, p.cancelled, rfl, hp.fresh, rfl⟩

/-- Getting ready for a playback forgets the last one. -/
lemma gist_prepare (script : Script) (bound : Bool) : ∃ now,
    (p.prepare script bound).2.gist =
      { core :=
          { p.core with
            token := some ⟨p.serial, bound⟩
            run := .numbered p.serial
            serial := p.serial + 1
            pauseRequested := false
            stopRequested := false
            deferred := none
            spent := {}
            context := p.context.resetFor script now }
        state := .loading
        course := p.bus.course } := by
  -- The player is numbered and cleared, goes to `idle`, then to `loading`, and takes the script.
  let cleared : Player := Player.clearLeftovers
    { p with
      token := some ⟨p.serial, bound⟩
      run := .numbered p.serial
      serial := p.serial + 1 }
  have hidle := gist_resetState cleared (.numbered p.serial)
  have hstate : (cleared.resetState (.numbered p.serial)).state = .idle :=
    congrArg Gist.state hidle
  obtain ⟨r, hr⟩ : ∃ r, r =
      ((cleared.resetState (.numbered p.serial)).moveFrom (.numbered p.serial) .idle .loading).2 :=
    ⟨_, rfl⟩
  have hloading : r.gist = { cleared.gist with state := .loading } := by
    rw [hr, moveFrom_eq _ _ hstate rfl, gist_commit, hidle]
  have hprepare : (p.prepare script bound).2 =
      { r with context := r.context.resetFor script r.stopwatch, attempts := {} } := by
    rw [hr]
    rfl
  have hcore : r.core = cleared.core := congrArg Gist.core hloading
  have hcontext : r.context = p.context := (congrArg Player.context hcore).trans rfl
  refine ⟨r.stopwatch, ?_⟩
  rw [hprepare, hcontext]
  have hgist : { r with context := p.context.resetFor script r.stopwatch, attempts := {} }.gist =
      { r.gist with
        core := { r.core with context := p.context.resetFor script r.stopwatch } } := rfl
  rw [hgist, hloading, hcore]
  rfl

/-- Once a script is loaded, its first line comes up. -/
lemma startLines_spec (id : Nat) (run : Run) (name : String) {script : Script}
    (hlock : p.lineLock = {}) (hdeferred : p.deferred = none) (hgoing : p.isCancelled token = false)
    (hstate : p.state = .loading) (hscript : p.context.script = some script) :
    ∃ q play, p.startLines id token run name = (q, .goes (.playLock play)) ∧
      play.token = token ∧ q.state = .playing ∧
      (∃ recovery, q.core = { p.core with recovery, lineLock := { holder := some id } }) ∧
      (∃ at_, q.recovery.checkpoint = p.context.snapshot? at_) ∧
      (p.bus.closed = false → q.bus.course = p.bus.course ++ [.script name]) := by
  obtain ⟨r, hr⟩ : ∃ r, r = (p.publish run (.scriptStarted name)).setCheckpoint := ⟨_, rfl⟩
  have hset := gist_setCheckpoint (p.publish run (.scriptStarted name))
  rw [← hr] at hset
  have hcore : r.core = { p.core with recovery := r.recovery } := by
    rw [← core_publish p run (.scriptStarted name)]
    exact congrArg Gist.core hset
  have hcheckpoint : r.recovery.checkpoint =
      p.context.snapshot? (Instant.ofMillis p.now) := by
    rw [hr]
    exact setCheckpoint_checkpoint _ hscript
  have hcourse : p.bus.closed = false → r.bus.course = p.bus.course ++ [.script name] := by
    intro hopen
    have hpublish := gist_publish_milestone p run (e := .scriptStarted name) rfl hopen
    exact (congrArg Gist.course hset).trans (congrArg Gist.course hpublish)
  have hrstate : r.state = .loading := (congrArg Gist.state hset).trans hstate
  obtain ⟨t, ht⟩ : ∃ t, t = r.commit run (r.cell.commit .playing) := ⟨_, rfl⟩
  have htgist : t.gist = { r.gist with state := .playing } := by rw [ht, gist_commit]
  have htcore : t.core = { p.core with recovery := r.recovery } :=
    (congrArg Gist.core htgist).trans hcore
  have hstart : p.startLines id token run name =
      t.continuePlay id { token, savedAt := t.stopwatch } := by
    unfold startLines
    rw [hgoing, ← hr]
    simp only [moveFrom_eq r run (b := .playing) hrstate rfl, ← ht]
    rfl
  have htlock : t.lineLock = {} := (congrArg Player.lineLock htcore).trans hlock
  have htdeferred : t.deferred = none := (congrArg Player.deferred htcore).trans hdeferred
  have htgoing : t.isCancelled token = false :=
    (congrArg (·.isCancelled token) htcore).trans hgoing
  have htstate : t.state = .playing := congrArg Gist.state htgist
  rw [hstart, continuePlay_eq htdeferred htgoing htstate, htlock]
  refine ⟨_, _, rfl, rfl, htstate, ⟨r.recovery, ?_⟩, ⟨Instant.ofMillis p.now, ?_⟩, ?_⟩
  · have hlocked : { t with lineLock := { holder := some id } }.core =
        { t.core with lineLock := { holder := some id } } := rfl
    exact hlocked.trans (by rw [htcore])
  · have htrecovery : t.recovery = r.recovery := (congrArg Player.recovery htcore).trans rfl
    exact (congrArg Recovery.checkpoint htrecovery).trans hcheckpoint
  · exact fun hopen => (congrArg Gist.course htgist).trans (hcourse hopen)

/-- A script is loaded and about to be started. -/
structure Loaded (token : Token) (p : Player) (script : Script) (start : Start) (q : Player) :
    Prop where
  lock : q.lineLock = {}
  deferred : q.deferred = none
  pause : q.pauseRequested = false
  going : q.isCancelled token = false
  state : q.state = .loading
  host : q.host = p.host
  closed : q.bus.closed = p.bus.closed
  context : ∃ now, q.context = startAt
    { p.context.resetFor script now with labels := script.survey.labels } start
  spent : q.spent = {}
  course : q.bus.course = p.bus.course

/-- The script that a playback starts with stays loaded wherever it starts. -/
lemma startAt_script {context : Context} {start : Start} :
    (startAt context start).script = context.script := by
  cases start <;> rfl

/-- A script that is loaded is started. -/
lemma Loaded.started {script : Script} {start : Start} {run : Run}
    (hq : Loaded token p script start q) :
    Started id p script start (q.startLines id token run script.name) := by
  obtain ⟨now, hcontext⟩ := hq.context
  have hscript : q.context.script = some script := by
    rw [hcontext, startAt_script]
    rfl
  obtain ⟨r, play, hr, htoken, hstate, ⟨recovery, hcore⟩, ⟨at_, hcheckpoint⟩, hcourse⟩ :=
    startLines_spec id run script.name hq.lock hq.deferred hq.going
      hq.state hscript
  have hrcontext : r.context = q.context := (congrArg Player.context hcore).trans rfl
  have hundisturbed : Undisturbed id play.token r := by
    rw [htoken]
    exact
      { lock := (congrArg Player.lineLock hcore).trans rfl
        deferred := (congrArg Player.deferred hcore).trans hq.deferred
        pause := (congrArg Player.pauseRequested hcore).trans hq.pause
        going := (congrArg (·.isCancelled token) hcore).trans hq.going }
  rw [hr]
  exact
    { progress := ⟨play, rfl, hundisturbed⟩
      state := hstate
      host := (congrArg Player.host hcore).trans hq.host
      closed := (congrArg (·.bus.closed) hcore).trans hq.closed
      context := ⟨now, hrcontext.trans hcontext⟩
      spent := (congrArg Player.spent hcore).trans hq.spent
      checkpoint := ⟨at_, by rw [hrcontext]; exact hcheckpoint⟩
      course := fun hopen => by rw [hcourse (hq.closed.trans hopen), hq.course] }

/-- Resources are fetched, and the script that is loaded is started. -/
lemma inevitably_preloading {script : Script} {start : Start} {run : Run} {until_ : Nat}
    (hq : Loaded token p script start q) :
    Inevitably (AdvancesWithin id) (Started id p script start)
      (q, .goes (.preloading token run script.name until_)) := by
  have hstep : ∀ now, (q.at_ now).step id (.preloading token run script.name until_) =
      if until_ ≤ now then (q.at_ now).startLines id token run script.name
      else (q.at_ now, .blocked) := by
    intro now
    have hunfold : (q.at_ now).step id (.preloading token run script.name until_) =
        if q.isCancelled token || decide (until_ ≤ now) then
          (q.at_ now).startLines id token run script.name
        else (q.at_ now, .blocked) := rfl
    rw [hunfold, hq.going]
    simp
  have hlater : ∀ now, Loaded token p script start (q.at_ now) := fun now =>
    ⟨hq.lock, hq.deferred, hq.pause, hq.going, hq.state, hq.host, hq.closed, hq.context, hq.spent,
      hq.course⟩
  exact inevitably_of_timer (f := (·.startLines id token run script.name)) rfl
    (fun _ => Started.ne_blocked) hstep fun now => .here (hlater now).started

/-- With the gate, a playback of a script without defects comes to its first line. -/
lemma inevitably_beginPlay {script : Script} {start : Start} (hup : p.isShutDown = false)
    (hlock : p.lineLock = {}) (hfresh : p.serial ∉ p.cancelled)
    (hclean : p.tolerance.refuseDefects = true → script.survey.fault? script.name = none) :
    Inevitably (AdvancesWithin id) (Started id p script start)
      (p.beginPlay id script start false) := by
  obtain ⟨now, hgist⟩ := gist_prepare (p := p) script false
  obtain ⟨q, hq⟩ : ∃ q, q = (p.prepare script false).2 := ⟨_, rfl⟩
  rw [← hq] at hgist
  have hcore := congrArg Gist.core hgist
  have hhost : q.host = p.host := (congrArg Player.host hcore).trans rfl
  have hcontext : q.context = p.context.resetFor script now :=
    (congrArg Player.context hcore).trans rfl
  have hfault : (if q.tolerance.refuseDefects then script.survey.fault? script.name else none) =
      none := by
    rw [tolerance, hhost]
    split
    · next hrefuse => exact hclean hrefuse
    · rfl
  have hloaded : ∀ trace, Loaded ⟨p.serial, false⟩ p script start
      { q with
        context := startAt { q.context with labels := script.survey.labels } start
        trace } := by
    intro trace
    exact
      { lock := (congrArg Player.lineLock hcore).trans hlock
        deferred := (congrArg Player.deferred hcore).trans rfl
        pause := (congrArg Player.pauseRequested hcore).trans rfl
        going := by
          refine (congrArg (·.isCancelled ⟨p.serial, false⟩) hcore).trans ?_
          simpa [isCancelled, core] using hfresh
        state := congrArg Gist.state hgist
        host := hhost
        closed := (congrArg (·.bus.closed) hcore).trans rfl
        context := ⟨now, by rw [hcontext]⟩
        spent := (congrArg Player.spent hcore).trans rfl
        course := congrArg Gist.course hgist }
  have hprepare : p.prepare script false = (⟨p.serial, false⟩, q) := by
    rw [hq]
    rfl
  obtain ⟨r, hr⟩ : ∃ r, r =
      { q with context := startAt { q.context with labels := script.survey.labels } start } :=
    ⟨_, rfl⟩
  have hrloaded : Loaded ⟨p.serial, false⟩ p script start r := by
    rw [hr]
    exact hloaded q.trace
  simp only [beginPlay, hup, Bool.false_eq_true, if_false, hprepare, hfault, ← hr]
  split
  · rw [hrloaded.going, Bool.and_false]
    exact inevitably_preloading (hloaded _)
  · exact .here hrloaded.started

/-- The request has the gate of a player that is free to play. -/
structure Admitted (p q : Player) : Prop where
  host : q.host = p.host
  context : q.context = p.context
  closed : q.bus.closed = p.bus.closed
  course : q.bus.course = p.bus.course
  up : q.isShutDown = false
  lock : q.lineLock = {}
  fresh : q.serial ∉ q.cancelled

/-- A request to play is admitted: it stops what is left of an earlier playback and takes the
gate. -/
lemma inevitably_entering {script : Script} {start : Start} {Q : Player × Progress → Prop}
    (hp : Ready p) (hstart : startRefusal? script start = none)
    (hQ : ∀ d, Q d → d.2 ≠ .blocked)
    (h : ∀ q, Admitted p q →
      Inevitably (AdvancesWithin id) Q (q.beginPlay id script start false)) :
    Inevitably (AdvancesWithin id) Q (p, .goes (.entering (.play script start false))) := by
  have henter : ∀ now, (p.at_ now).step id (.entering (.play script start false)) =
      ({ (p.at_ now).stop with gate := (p.at_ now).stop.gate.request id },
        .goes (.playGate script start false)) := by
    intro now
    have hup : (p.at_ now).isShutDown = false := hp.up
    simp only [step, accept, requestPlay, hstart, hup]
    rfl
  refine inevitably_of_ready rfl hQ fun now _ => ?_
  rw [henter]
  obtain ⟨stopRequested, cancelled, hcore, hfresh, hcourse⟩ :=
    stop_spec (p := p.at_ now) ⟨hp.gate, hp.lock, hp.up, hp.fresh, hp.old⟩
  obtain ⟨q, hq⟩ : ∃ q, q = { (p.at_ now).stop with
      gate := (p.at_ now).stop.gate.request id } := ⟨_, rfl⟩
  rw [← hq]
  have hfree : (p.at_ now).stop.gate = {} := (congrArg Player.gate hcore).trans hp.gate
  have hgate : q.gate.isHeldBy id = true := by
    rw [hq, hfree]
    simp [Lock.request, Lock.isFree, Lock.isHeldBy]
  have hserial : (p.at_ now).stop.serial = p.serial := (congrArg Player.serial hcore).trans rfl
  have hcancelled : (p.at_ now).stop.cancelled = cancelled :=
    (congrArg Player.cancelled hcore).trans rfl
  have hstopped : (p.at_ now).stop.serial ∉ (p.at_ now).stop.cancelled := by
    rw [hserial, hcancelled]
    exact hfresh
  have hadmitted : ∀ now', Admitted p (q.at_ now') := by
    intro now'
    rw [hq]
    exact
      { host := (congrArg Player.host hcore).trans rfl
        context := (congrArg Player.context hcore).trans rfl
        closed := (congrArg (·.bus.closed) hcore).trans rfl
        course := hcourse
        up := (congrArg Player.isShutDown hcore).trans hp.up
        lock := (congrArg Player.lineLock hcore).trans hp.lock
        fresh := hstopped }
  refine inevitably_of_ready rfl hQ fun now' _ => ?_
  have hgo : (q.at_ now').step id (.playGate script start false) =
      (q.at_ now').beginPlay id script start false := if_pos hgate
  rw [hgo]
  exact h _ (hadmitted now')

/-- A snapshot of a script is accepted if its cursor is in range. -/
lemma startRefusal?_snapshot {script : Script} {s : Snapshot} (hname : s.scriptName = script.name)
    (hcursor : s.cursor ≤ script.size) : startRefusal? script (.snapshot s) = none := by
  simp only [startRefusal?]
  rw [if_neg (not_not.mpr hname), if_neg (Nat.not_lt.mpr hcursor)]

/-- A playback of a script without defects comes to its first line. -/
lemma inevitably_started {script : Script} {start : Start} (hp : Ready p)
    (hstart : startRefusal? script start = none)
    (hclean : p.tolerance.refuseDefects = true → script.survey.fault? script.name = none) :
    Inevitably (AdvancesWithin id) (Started id p script start)
      (p, .goes (.entering (.play script start false))) := by
  refine inevitably_entering hp hstart (fun _ => Started.ne_blocked) fun q hq => ?_
  refine (inevitably_beginPlay hq.up hq.lock hq.fresh ?_).mono ?_
  · intro hrefuse
    apply hclean
    rw [tolerance, ← hq.host]
    exact hrefuse
  · intro c hc
    obtain ⟨now, hcontext⟩ := hc.context
    exact
      { progress := hc.progress
        state := hc.state
        host := hc.host.trans hq.host
        closed := hc.closed.trans hq.closed
        context := ⟨now, by rw [← hq.context]; exact hcontext⟩
        spent := hc.spent
        checkpoint := hc.checkpoint
        course := fun hopen =>
          (hc.course (hq.closed.trans hopen)).trans (congrArg (· ++ _) hq.course) }

/-- A playback of a script with defects that are refused ends with the first of them. -/
lemma inevitably_refused {script : Script} {start : Start} {fault : Fault} (hp : Ready p)
    (hstart : startRefusal? script start = none) (hrefuse : p.tolerance.refuseDefects = true)
    (hfault : script.survey.fault? script.name = some fault) :
    Inevitably (AdvancesWithin id)
      (fun c => ∃ q r, Reported q (.failed fault (fault.lineIndex.getD 0)) c r)
      (p, .goes (.entering (.play script start false))) := by
  refine inevitably_entering hp hstart ?_ fun q hq => ?_
  · rintro d ⟨q, r, hr⟩
    rw [hr.progress]
    exact Progress.noConfusion
  obtain ⟨now, hgist⟩ := gist_prepare (p := q) script false
  obtain ⟨s, hs⟩ : ∃ s, s = (q.prepare script false).2 := ⟨_, rfl⟩
  rw [← hs] at hgist
  have hhost : s.host = p.host :=
    (congrArg (fun g : Gist => g.core.host) hgist).trans hq.host
  have hprepare : q.prepare script false = (⟨q.serial, false⟩, s) := by
    rw [hs]
    rfl
  have hrefuse' : s.tolerance.refuseDefects = true := by
    rw [tolerance, hhost]
    exact hrefuse
  have hbegin : q.beginPlay id script start false =
      (s.moveFrom s.run .loading .failed).2.finish
        (.failed fault (fault.lineIndex.getD 0)) := by
    simp only [beginPlay, hq.up, hprepare, hrefuse', if_true, hfault]
    rfl
  rw [hbegin]
  obtain ⟨r, hr⟩ := exists_reported (p := (s.moveFrom s.run .loading .failed).2)
    (f := .failed fault (fault.lineIndex.getD 0)) Finish.noConfusion
  exact .here ⟨_, r, hr⟩

end Player

end Recital

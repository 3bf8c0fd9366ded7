import Recital.Proofs.Player.FollowsCourse
import Recital.Proofs.Session.Ownership

/-!
# Steps without a line

Most steps of requests execute no line.  They publish plain events only, and leave the variables,
the counts, the script and the run alone (`Player.PublishesPlain`).  The exceptions are told apart
here.  A playback tells of its end with one event (`Player.Finished`) and of the start of its script
with another (`Player.Introduces`); who has passed the gate to play gets a run and a context of its
own (`Player.Prepares`, `Player.Enrolls`); and a request beside the playback may save or restore a
snapshot, or close the bus (`Player.Tends`).
-/

namespace Recital

/-- The event that tells of the end of a playback. -/
def Report.news (r : Report) : Event.Payload :=
  match r.fault with
  | some fault => .scriptFailed r.scriptName fault
  | none => .scriptCompleted r.scriptName r

namespace Player

variable {p q : Player} {id : Nat} {play : Play} {phase : Phase} {run : Run} {f : Finish}
  {token : Token} {x : Player × Progress} {report : Report} {script : Script} {bound : Bool}

/-! ### PublishesPlain changes -/

/-- Only plain events of the run were published.  Identifiers may have been used up, the checkpoint
may have been set and the player shut down, and nothing else has changed that is kept account
of. -/
structure PublishesPlain (p q : Player) : Prop where
  news : ∃ news, (∀ e ∈ news, e.payload.isPlain = true ∧ e.run = p.run) ∧ q.bus = p.bus.tell news
  ground : q.ground = { p.ground with
    serial := q.serial, checkpoint := q.recovery.checkpoint, isShutDown := q.isShutDown }
  serial : p.serial ≤ q.serial
  shut : p.isShutDown = true → q.isShutDown = true
  /-- No playback has got under way. -/
  state : q.state.isUnderway = true → p.state.isUnderway = true

lemma TellsPlain.publishesPlain (h : TellsPlain p.run p q) : PublishesPlain p q := by
  have hserial : q.serial = p.serial := congrArg Ground.serial h.ground
  have hcheckpoint : q.recovery.checkpoint = p.recovery.checkpoint :=
    congrArg Ground.checkpoint h.ground
  have hshut : q.isShutDown = p.isShutDown := congrArg Ground.isShutDown h.ground
  refine ⟨h.news, ?_, Nat.le_of_eq hserial.symm, fun h => hshut.trans h, h.state⟩
  rw [h.ground, hserial, hcheckpoint, hshut]
  rfl

lemma PublishesPlain.trans {r : Player} (hpq : PublishesPlain p q) (hqr : PublishesPlain q r) :
    PublishesPlain p r := by
  obtain ⟨news, hnews, hbus⟩ := hpq.news
  obtain ⟨more, hmore, hbus'⟩ := hqr.news
  have hrun : q.run = p.run := congrArg Ground.run hpq.ground
  refine ⟨⟨news ++ more, fun e he => ?_, ?_⟩, ?_, Nat.le_trans hpq.serial hqr.serial,
    fun h => hqr.shut (hpq.shut h), fun h => hpq.state (hqr.state h)⟩
  · rcases List.mem_append.mp he with he | he
    · exact hnews e he
    · exact ⟨(hmore e he).1, (hmore e he).2.trans hrun⟩
  · rw [hbus', hbus, Bus.tell_append]
  · rw [hqr.ground, hpq.ground]

/-- What publishes nothing and changes nothing that is kept account of. -/
lemma PublishesPlain.of_eq (hbus : q.bus = p.bus) (hground : q.ground = p.ground)
    (hcell : q.cell = p.cell) :
    PublishesPlain p q :=
  TellsPlain.publishesPlain (.of_eq hbus hground hcell)

lemma measureMemory_spec (p : Player) : p.measureMemory.bus = p.bus ∧
    p.measureMemory.ground = p.ground ∧ p.measureMemory.cell = p.cell := by
  unfold measureMemory
  dsimp only
  split
  · split <;> exact ⟨rfl, rfl, rfl⟩
  · exact ⟨rfl, rfl, rfl⟩

lemma tellsPlain_measureMemory : TellsPlain run p p.measureMemory := by
  obtain ⟨hbus, hground, hcell⟩ := p.measureMemory_spec
  exact .of_eq hbus hground hcell

lemma tellsPlain_write {key : String} {s : Snapshot} : TellsPlain run p (p.write key s).2 := by
  unfold write
  split
  · exact .refl p
  · exact .of_eq rfl rfl rfl

lemma tellsPlain_stop : TellsPlain p.run p p.stop := by
  unfold stop
  split
  · have hmoved : TellsPlain p.run p
        ({ p with stopRequested := true }.moveIfAllowed p.run .stopped) :=
      TellsPlain.trans (q := { p with stopRequested := true }) (.of_eq rfl rfl rfl)
        (tellsPlain_moveIfAllowed rfl)
    rw [cancelRun_eq]
    exact hmoved.trans (.of_eq rfl rfl rfl)
  · exact .refl p

/-! ### The end of a playback -/

/-- A playback has ended and told so. -/
structure Finished (report : Report) (p : Player) (x : Player × Progress) : Prop where
  ends : x.2 = .ends (.report report)
  news : ∃ news at_, (∀ e ∈ news, e.payload.isPlain = true ∧ e.run = p.run) ∧
    x.1.bus = p.bus.tell (news ++ [⟨report.news, at_, p.run⟩])
  ground : x.1.ground = p.ground
  /-- No playback has got under way. -/
  state : x.1.state.isUnderway = true → p.state.isUnderway = true

/-- The same end, after nothing but plain events. -/
lemma Finished.after (h : Finished report q x) (hpq : TellsPlain p.run p q) :
    Finished report p x := by
  obtain ⟨news, hnews, hbus⟩ := hpq.news
  obtain ⟨more, at_, hmore, hbus'⟩ := h.news
  have hrun : q.run = p.run := congrArg Ground.run hpq.ground
  refine ⟨h.ends, ⟨news ++ more, at_, fun e he => ?_, ?_⟩, h.ground.trans hpq.ground,
    fun hunder => hpq.state (h.state hunder)⟩
  · rcases List.mem_append.mp he with he | he
    · exact hnews e he
    · exact ⟨(hmore e he).1, (hmore e he).2.trans hrun⟩
  · rw [hbus', hbus, hrun, ← Bus.tell_append, List.append_assoc]

lemma tellsPlain_conclude : TellsPlain p.run p (p.conclude f).1 := by
  cases f with
  | completed =>
    have hmoved : TellsPlain p.run p (p.moveFrom p.run .paused .playing).2 :=
      tellsPlain_moveFrom fun _ => rfl
    exact hmoved.trans (tellsPlain_moveIfAllowed rfl)
  | stopped | failed | halted | cancelled => exact tellsPlain_moveIfAllowed rfl

lemma publishEnd_eq (p : Player) (r : Report) : p.publishEnd r = p.publish p.run r.news := by
  unfold publishEnd Report.news
  cases r.fault <;> rfl

lemma finished_finish (p : Player) (f : Finish) : ∃ r, Finished r p (p.finish f) := by
  obtain ⟨q, hq⟩ : ∃ q, q = (p.conclude f).1 := ⟨_, rfl⟩
  obtain ⟨r, hr⟩ : ∃ r, r = q.report (p.conclude f).2.1 (p.conclude f).2.2 := ⟨_, rfl⟩
  have hconcluded : TellsPlain p.run p q := hq ▸ tellsPlain_conclude
  obtain ⟨e, he⟩ : ∃ e, e = (q.publishEnd r).measureMemory := ⟨_, rfl⟩
  have hfinish : p.finish f =
      ({ e with token := none, gate := e.gate.release }, .ends (.report r)) := by
    rw [he, hr, hq]
    rfl
  obtain ⟨hbus, hground, hcell⟩ := (q.publishEnd r).measureMemory_spec
  rw [← he, publishEnd_eq] at hbus hground hcell
  have hfinished : Finished r q (p.finish f) := by
    rw [hfinish]
    refine ⟨rfl, ⟨[], Instant.ofMillis q.now, by simp, hbus⟩, hground, fun h => ?_⟩
    have hstate : e.state = q.state := congrArg Cell.current hcell
    rw [← hstate]
    exact h
  exact ⟨r, hfinished.after hconcluded⟩

/-! ### A playback between two lines -/

/-- The checkpoint is the same, or it was set to a snapshot of the script. -/
def Marked (p q : Player) : Prop :=
  q.recovery.checkpoint = p.recovery.checkpoint ∨
    ∃ s, q.recovery.checkpoint = some s ∧ p.context.scriptName? = some s.scriptName

/-- What becomes of a playback that executes no line. -/
inductive PlaysNoLine (token : Token) (p : Player) : Player × Progress → Prop
  | goes {q : Player} {next : Phase} (htoken : next.token? = some token)
    (hline : next.line? = none) (hlate : next.isEarly = false) (hq : PublishesPlain p q)
    (hmarked : Marked p q) : PlaysNoLine token p (q, .goes next)
  | ends {x : Player × Progress} {report : Report} (hx : Finished report p x) :
    PlaysNoLine token p x

/-- A playback that waits for something executes no line. -/
lemma PlaysNoLine.next (h : PlaysNoLine token p x) {next : Phase} (hgoes : x.2 = .goes next) :
    next.token? = some token ∧ next.line? = none := by
  cases h with
  | goes htoken hline =>
    cases hgoes
    exact ⟨htoken, hline⟩
  | ends hx => cases hx.ends.symm.trans hgoes

lemma playsNoLine_finish : PlaysNoLine token p (p.finish f) := by
  obtain ⟨r, hr⟩ := finished_finish p f
  exact .ends hr

/-- The same goes after nothing but plain events. -/
lemma PlaysNoLine.after (h : PlaysNoLine token q x) (hpq : TellsPlain p.run p q) :
    PlaysNoLine token p x := by
  cases h with
  | ends hx => exact .ends (hx.after hpq)
  | @goes r next htoken hline hlate hq hmarked =>
    have hscript : q.context.script = p.context.script := congrArg Ground.script hpq.ground
    refine .goes htoken hline hlate (hpq.publishesPlain.trans hq) ?_
    refine hmarked.imp (fun h => h.trans (congrArg Ground.checkpoint hpq.ground)) fun hset => ?_
    rw [Context.scriptName?, ← hscript]
    exact hset

lemma playsNoLine_goes {next : Phase} (htoken : next.token? = some token)
    (hline : next.line? = none)
    (hlate : next.isEarly = false) (hbus : q.bus = p.bus) (hground : q.ground = p.ground)
    (hcell : q.cell = p.cell) : PlaysNoLine token p (q, .goes next) :=
  .goes htoken hline hlate (.of_eq hbus hground hcell) (.inl (congrArg Ground.checkpoint hground))

lemma playsNoLine_playOn : PlaysNoLine play.token p (p.playOn id play) := by
  unfold playOn
  split
  · exact PlaysNoLine.after (q := { p with deferred := none }) playsNoLine_finish
      (.of_eq rfl rfl rfl)
  · split
    · exact playsNoLine_finish
    · split
      · exact playsNoLine_goes rfl rfl rfl rfl rfl rfl
      · exact playsNoLine_goes rfl rfl rfl rfl rfl rfl
      · exact playsNoLine_goes rfl rfl rfl rfl rfl rfl
      · exact playsNoLine_finish
      · exact playsNoLine_finish

lemma playsNoLine_continuePlay : PlaysNoLine play.token p (p.continuePlay id play) := by
  unfold continuePlay
  split
  · exact playsNoLine_goes rfl rfl rfl rfl rfl rfl
  · exact playsNoLine_playOn

/-- A snapshot that is saved automatically becomes the checkpoint of its script. -/
lemma playsNoLine_autosave : PlaysNoLine play.token p (p.autosave id play) := by
  unfold autosave
  split
  · next s hdue =>
    have hstands := standsAt_of_autosaveDue hdue
    exact .goes rfl rfl rfl ⟨⟨[], by simp, rfl⟩, rfl, Nat.le_refl _, fun h => h, fun h => h⟩
      (.inr ⟨s, rfl, hstands.name⟩)
  · exact playsNoLine_continuePlay

lemma playsNoLine_afterLine {by_ : LineEnd} :
    PlaysNoLine play.token p (p.afterLine id play by_) := by
  obtain ⟨q, hq⟩ : ∃ q, q = { p with lineLock := p.lineLock.release } := ⟨_, rfl⟩
  have hreleased : TellsPlain p.run p q := hq ▸ .of_eq rfl rfl rfl
  cases by_ with
  | finished f =>
    rw [show p.afterLine id play (.finished f) = q.finish f from hq ▸ rfl]
    exact playsNoLine_finish.after hreleased
  | next =>
    rw [afterLine_next hq]
    split
    · exact playsNoLine_autosave.after hreleased
    · exact PlaysNoLine.after (playsNoLine_goes rfl rfl rfl rfl rfl rfl) hreleased

/-- A playback that has the line lock and does not execute a line. -/
lemma playsNoLine_playLine (h : p.execution? id (.playLock play) = none)
    (hheld : p.lineLock.isHeldBy id = true) : PlaysNoLine play.token p (p.playLine id play) := by
  have hreleases : ∀ q : Player,
      PlaysNoLine play.token q ({ q with lineLock := q.lineLock.release }.continuePlay id play) :=
    fun q => PlaysNoLine.after (q := { q with lineLock := q.lineLock.release })
      playsNoLine_continuePlay
      (.of_eq rfl rfl rfl)
  have hengages := p.engages_playLine id play
  generalize p.playLine id play = x at hengages ⊢
  cases hengages with
  | yields => exact hreleases p
  | @pauses q r index context _ _ htaken hq hr =>
    have htakes : { p with context := p.context.takeBreakpoint.2 }.ground = p.ground :=
      ground_takeBreakpoint
    rw [htaken] at htakes
    have hhit : TellsPlain p.run p q := by
      rw [hq]
      exact TellsPlain.trans (q := { p with context }) (.of_eq rfl htakes rfl)
        (tellsPlain_publish rfl)
    have hrun : q.run = p.run := congrArg Ground.run hhit.ground
    have hpaused : TellsPlain p.run q r := by
      rw [hr, hrun]
      exact tellsPlain_moveFrom fun _ => rfl
    exact (hreleases r).after (hhit.trans hpaused)
  | begins hdeferred hstate htaken =>
    cases h.symm.trans (execution?_playLock hheld hdeferred hstate htaken)

/-- What a playback between two lines does. -/
lemma playsNoLine_step (id : Nat) (htoken : phase.token? = some token)
    (hlate : phase.isEarly = false)
    (hexec : p.execution? id phase = none) (hready : (p.step id phase).2 ≠ .blocked) :
    PlaysNoLine token p (p.step id phase) := by
  cases phase with
  | paused play =>
    cases htoken
    simp only [step] at hready ⊢
    split
    · exact playsNoLine_finish
    · next hgoes =>
      rw [if_neg hgoes] at hready
      split
      · next hwaits =>
        rw [if_pos hwaits] at hready
        exact absurd rfl hready
      · exact playsNoLine_playOn
  | playLock play =>
    cases htoken
    simp only [step] at hready ⊢
    have hheld := holds_of_ready hready
    rw [if_pos hheld]
    exact playsNoLine_playLine hexec hheld
  | delaying play until_ =>
    cases htoken
    simp only [step] at hready ⊢
    split
    · exact playsNoLine_finish
    · next hgoes =>
      rw [if_neg hgoes] at hready
      rw [if_pos (holds_of_ready hready)]
      exact playsNoLine_autosave
  | autosaving play s =>
    cases htoken
    simp only [step]
    split
    · exact playsNoLine_continuePlay.after tellsPlain_measureMemory
    · have hwritten : TellsPlain p.run p (p.write p.host.config.pacing.autosaveKey s).2 :=
        tellsPlain_write
      exact playsNoLine_continuePlay.after (hwritten.trans tellsPlain_measureMemory)
  | playing => cases hexec
  | preloading => cases hlate
  | _ => cases htoken

/-! ### The start of a playback -/

/-- The script of a playback was started, and its checkpoint is set. -/
structure Introduces (run : Run) (name : String) (p q : Player) : Prop where
  news : ∃ news at_, (∀ e ∈ news, e.payload.isPlain = true ∧ e.run = run) ∧
    q.bus = p.bus.tell (⟨.scriptStarted name, at_, run⟩ :: news)
  ground : q.ground = { p.ground with checkpoint := q.recovery.checkpoint }
  checkpoint : p.context.script.isSome = true →
    ∃ s, q.recovery.checkpoint = some s ∧ p.context.scriptName? = some s.scriptName

/-- A playback whose resources are there ends, or its script is started. -/
lemma startLines_cases (p : Player) (id : Nat) (token : Token) (run : Run) (name : String) :
    (∃ r, Finished r p (p.startLines id token run name)) ∨
      ∃ q, Introduces run name p q ∧ PlaysNoLine token q (p.startLines id token run name) := by
  obtain ⟨q, hq⟩ : ∃ q, q = (p.publish run (.scriptStarted name)).setCheckpoint := ⟨_, rfl⟩
  have hset : q.bus = (p.publish run (.scriptStarted name)).bus ∧
      q.ground = { p.ground with checkpoint := q.recovery.checkpoint } := by
    rw [hq]
    unfold setCheckpoint
    split <;> exact ⟨rfl, rfl⟩
  obtain ⟨r, hr⟩ : ∃ r, r = (q.moveFrom run .loading .playing).2 := ⟨_, rfl⟩
  have hmoved : ∃ news, (∀ e ∈ news, e.payload.isPlain = true ∧ e.run = run) ∧
      r.bus = q.bus.tell news ∧ r.ground = q.ground := by
    rw [hr, moveFrom_eq_ite]
    split
    · exact ⟨[⟨.stateChanged q.state .playing, Instant.ofMillis q.now, run⟩],
        by simp [Event.Payload.isPlain], rfl, rfl⟩
    · exact ⟨[], by simp, rfl, rfl⟩
  obtain ⟨news, hnews, hbus, hground⟩ := hmoved
  have hcheckpoint : r.recovery.checkpoint = q.recovery.checkpoint :=
    congrArg Ground.checkpoint hground
  have hintroduces : Introduces run name p r := by
    refine ⟨⟨news, Instant.ofMillis p.now, hnews, ?_⟩, ?_, fun hloaded => ?_⟩
    · rw [hbus, hset.1]
      rfl
    · rw [hground, hset.2, hcheckpoint]
    · obtain ⟨s, hs, hstands⟩ := checkpoint_setCheckpoint
        (p := p.publish run (.scriptStarted name)) hloaded
      rw [← hq] at hs
      exact ⟨s, hcheckpoint.trans hs, hstands.name⟩
  unfold startLines
  split
  · exact .inl (finished_finish p _)
  · refine .inr ⟨r, hintroduces, ?_⟩
    dsimp only
    rw [← hq, ← hr]
    split
    · exact (playsNoLine_continuePlay :
        PlaysNoLine { token, savedAt := r.stopwatch : Play }.token _ _)
    · exact playsNoLine_finish

/-- A playback that does not wait for its resources any more. -/
lemma step_preloading {name : String} {until_ : Nat}
    (hready : (p.step id (.preloading token run name until_)).2 ≠ .blocked) :
    p.step id (.preloading token run name until_) = p.startLines id token run name := by
  simp only [step] at hready ⊢
  rw [if_pos (holds_of_ready hready)]

/-- A playback has got ready, with a run of its own and the script that it was given. -/
structure Prepares (script : Script) (p q : Player) : Prop where
  news : ∃ news, (∀ e ∈ news, e.payload.isPlain = true ∧ e.run = q.run) ∧ q.bus = p.bus.tell news
  run : q.run = .numbered p.serial
  serial : q.serial = p.serial + 1
  labels : q.context.labels = ∅ ∨ q.context.labels = script.survey.labels
  script : q.context.script = some script
  checkpoint : q.recovery.checkpoint = p.recovery.checkpoint
  shut : q.isShutDown = p.isShutDown
  state : q.state.isUnderway = false

lemma prepares_prepare : Prepares script p (p.prepare script bound).2 := by
  obtain ⟨run, hrun⟩ : ∃ run, run = Run.numbered p.serial := ⟨_, rfl⟩
  obtain ⟨q, hq⟩ : ∃ q, q =
      ({ p with
          token := some ⟨p.serial, bound⟩
          run
          serial := p.serial + 1 }.clearLeftovers).resetState run :=
    ⟨_, rfl⟩
  obtain ⟨r, hr⟩ : ∃ r, r = (q.moveFrom run .idle .loading).2 := ⟨_, rfl⟩
  have hreset : TellsPlain run
      ({ p with token := some ⟨p.serial, bound⟩, run, serial := p.serial + 1 }.clearLeftovers) q :=
    hq ▸ tellsPlain_resetState
  have hmoved : TellsPlain run q r := hr ▸ tellsPlain_moveFrom fun h => Bool.noConfusion h
  have hboth := hreset.trans hmoved
  have hqstate : q.state = .idle := by
    rw [hq]
    exact congrArg Gist.state (gist_resetState _ run)
  have hstate : r.state = .loading := by
    rw [hr, moveFrom_eq q run hqstate rfl]
    rfl
  have hprepare : (p.prepare script bound).2 =
      { r with context := r.context.resetFor script r.stopwatch, attempts := {} } := by
    rw [hr, hq, hrun]
    rfl
  have hground := hboth.ground
  have hrrun : r.run = run := congrArg Ground.run hground
  rw [hprepare]
  refine ⟨?_, hrrun.trans hrun, congrArg Ground.serial hground, .inl rfl, rfl,
    congrArg Ground.checkpoint hground, congrArg Ground.isShutDown hground, ?_⟩
  · obtain ⟨news, hnews, hbus⟩ := hboth.news
    refine ⟨news, fun e he => ⟨(hnews e he).1, (hnews e he).2.trans hrrun.symm⟩, hbus⟩
  · exact congrArg State.isUnderway hstate

/-- What becomes of a request to play that has passed the gate. -/
inductive Enrolls (script : Script) (bound : Bool) (p : Player) : Player × Progress → Prop
  | refused (hshut : p.isShutDown = true) :
    Enrolls script bound p ({ p with gate := p.gate.release }, .ends (.refused .shutDown))
  | ends {q : Player} {x : Player × Progress} {report : Report} (hq : Prepares script p q)
    (hopen : p.isShutDown = false) (hx : Finished report q x) : Enrolls script bound p x
  /-- The resources are being fetched. -/
  | waits {q : Player} {until_ : Nat} (hq : Prepares script p q) (hopen : p.isShutDown = false) :
    Enrolls script bound p (q, .goes (.preloading ⟨p.serial, bound⟩ q.run script.name until_))
  | starts {q r : Player} {x : Player × Progress} (hq : Prepares script p q)
    (hopen : p.isShutDown = false) (hr : Introduces q.run script.name q r)
    (hx : PlaysNoLine ⟨p.serial, bound⟩ r x) : Enrolls script bound p x

lemma enrolls_beginPlay {start : Start} :
    Enrolls script bound p (p.beginPlay id script start bound) := by
  obtain ⟨q, hq⟩ : ∃ q, q = (p.prepare script bound).2 := ⟨_, rfl⟩
  have hprepares : Prepares script p q := hq ▸ prepares_prepare
  have htoken : (p.prepare script bound).1 = ⟨p.serial, bound⟩ := rfl
  obtain ⟨c, hc⟩ : ∃ c, c = startAt { q.context with labels := script.survey.labels } start :=
    ⟨_, rfl⟩
  have hloaded : c.script = some script ∧ c.labels = script.survey.labels := by
    rw [hc]
    cases start <;> exact ⟨hprepares.script, rfl⟩
  have hplaced : ∀ trace, Prepares script p { q with context := c, trace } := fun trace =>
    ⟨hprepares.news, hprepares.run, hprepares.serial, .inr hloaded.2, hloaded.1,
      hprepares.checkpoint, hprepares.shut, hprepares.state⟩
  unfold beginPlay
  split
  · next hshut => exact .refused hshut
  · next hgo =>
    have hopen : p.isShutDown = false := by simpa using hgo
    dsimp only
    rw [htoken, ← hq]
    split
    · next fault _ =>
      have hfailed : TellsPlain q.run q (q.moveFrom q.run .loading .failed).2 :=
        tellsPlain_moveFrom fun h => Bool.noConfusion h
      obtain ⟨report, hfinished⟩ := finished_finish (q.moveFrom q.run .loading .failed).2
        (.failed fault (fault.lineIndex.getD 0))
      exact .ends hprepares hopen (hfinished.after hfailed)
    · rw [← hc]
      split
      · split
        · obtain ⟨report, hfinished⟩ := finished_finish { q with context := c } .cancelled
          exact .ends (hplaced q.trace) hopen hfinished
        · exact .waits (hplaced _) hopen
      · obtain ⟨r, hr⟩ : ∃ r, r = { q with context := c } := ⟨_, rfl⟩
        have hready : Prepares script p r := hr ▸ hplaced q.trace
        have hstarts : Enrolls script bound p
            (r.startLines id ⟨p.serial, bound⟩ r.run script.name) := by
          rcases r.startLines_cases id ⟨p.serial, bound⟩ r.run script.name with
            ⟨report, hfinished⟩ | ⟨e, hintroduces, htarries⟩
          · exact .ends hready hopen hfinished
          · exact .starts hready hopen hintroduces htarries
        rw [hr] at hstarts
        exact hstarts

/-- A request to play that has the gate. -/
lemma enrolls_step {start : Start} (hheld : p.gate.isHeldBy id = true) :
    Enrolls script bound p (p.step id (.playGate script start bound)) := by
  simp only [step]
  rw [if_pos hheld]
  exact enrolls_beginPlay

/-! ### Requests beside the playback -/

/-- What a request does that belongs to no playback, executes no line and does not pass the gate. -/
inductive Tends (id : Nat) (p : Player) (phase : Phase) : Player × Progress → Prop
  | goes {q : Player} {next : Phase} (hq : PublishesPlain p q)
    (hcheckpoint : q.recovery.checkpoint = p.recovery.checkpoint) (htoken : next.token? = none)
    (hline : next.line? = none) (hclose : next = .closeGate → q.isShutDown = true)
    (hstep : next.isStep = true → phase.isStep = true) : Tends id p phase (q, .goes next)
  | ends {q : Player} {answer : Answer} (hq : PublishesPlain p q)
    (hcheckpoint : q.recovery.checkpoint = p.recovery.checkpoint)
    (hanswer : ∀ r, answer ≠ .report r) : Tends id p phase (q, .ends answer)
  /-- A snapshot was saved and is the checkpoint. -/
  | stores {q : Player} {key : String} {s : Snapshot} (hphase : phase = .storing key s)
    (hq : PublishesPlain p q) (hcheckpoint : q.recovery.checkpoint = some s) :
    Tends id p phase (q, .ends (.key key))
  /-- A snapshot of the script was restored and is the checkpoint. -/
  | restores {q : Player} {s : Snapshot} (hphase : phase = .restoreLock s)
    (hheld : p.lineLock.isHeldBy id = true)
    (hname : p.context.scriptName? = some s.scriptName) (hcursor : s.cursor ≤ p.context.lineCount)
    (hnews : ∃ news, (∀ e ∈ news, e.payload.isPlain = true ∧ e.run = p.run) ∧
      q.bus = p.bus.tell news)
    (hground : q.ground = { p.ground with
      checkpoint := some s, vars := s.vars, lines := s.linesExecuted,
      commands := s.commandsExecuted }) (hcell : q.cell = p.cell) :
    Tends id p phase (q, .ends .done)
  | closes (hphase : phase = .closeGate) (hheld : p.gate.isHeldBy id = true) :
    Tends id p phase p.close

lemma tends_goes {next : Phase} (hbus : q.bus = p.bus) (hground : q.ground = p.ground)
    (hcell : q.cell = p.cell)
    (hnext : next.token? = none ∧ next.line? = none ∧ next ≠ .closeGate)
    (hstep : next.isStep = true → phase.isStep = true) : Tends id p phase (q, .goes next) :=
  .goes (.of_eq hbus hground hcell) (congrArg Ground.checkpoint hground) hnext.1 hnext.2.1
    (fun h => absurd h hnext.2.2) hstep

lemma tends_ends {answer : Answer} (hbus : q.bus = p.bus) (hground : q.ground = p.ground)
    (hcell : q.cell = p.cell) (hanswer : ∀ r, answer ≠ .report r) :
    Tends id p phase (q, .ends answer) :=
  .ends (.of_eq hbus hground hcell) (congrArg Ground.checkpoint hground) hanswer

/-- A request is refused. -/
lemma tends_refused {refusal : Refusal} : Tends id p phase (p, .ends (.refused refusal)) :=
  tends_ends rfl rfl rfl fun _ h => Answer.noConfusion h

/-- A request lets go of the line lock. -/
lemma tends_unlock {answer : Answer} (hanswer : ∀ r, answer ≠ .report r) :
    Tends id p phase (p.unlock answer) :=
  tends_ends rfl rfl rfl hanswer

/-- A request asks for the line lock. -/
lemma tends_requestLine {next : Phase}
    (hnext : next.token? = none ∧ next.line? = none ∧ next ≠ .closeGate)
    (hstep : next.isStep = true → phase.isStep = true) : Tends id p phase (p.requestLine id next) :=
  tends_goes rfl rfl rfl hnext hstep

/-- A request stops the playback and asks for the gate. -/
lemma tends_requestGate {next : Phase} (hpq : PublishesPlain p q)
    (hcheckpoint : q.recovery.checkpoint = p.recovery.checkpoint)
    (hnext : next.token? = none ∧ next.line? = none ∧ next.isStep = false)
    (hclose : next = .closeGate → q.isShutDown = true) :
    Tends id p phase ({ q.stop with gate := q.stop.gate.request id }, .goes next) := by
  have hstopped : TellsPlain q.run q q.stop := tellsPlain_stop
  have hsame : q.stop.recovery.checkpoint = q.recovery.checkpoint :=
    congrArg Ground.checkpoint hstopped.ground
  have hshut : q.stop.isShutDown = q.isShutDown := congrArg Ground.isShutDown hstopped.ground
  have hhushed : PublishesPlain p q.stop := hpq.trans hstopped.publishesPlain
  refine .goes ⟨hhushed.news, hhushed.ground, hhushed.serial, hhushed.shut, hhushed.state⟩
    (hsame.trans hcheckpoint) hnext.1 hnext.2.1 (fun h => hshut.trans (hclose h)) fun h => ?_
  exact absurd (hnext.2.2.symm.trans h) Bool.false_ne_true

lemma tends_requestPlay {start : Start} :
    Tends id p phase (p.requestPlay id script start bound) := by
  unfold requestPlay
  split
  · exact tends_refused
  · split
    · exact tends_refused
    · exact tends_requestGate (.of_eq rfl rfl rfl) rfl ⟨rfl, rfl, rfl⟩ Phase.noConfusion

lemma tends_requestSnapshot {key : String} {restoring : Bool} :
    Tends id p phase (p.requestSnapshot key restoring) := by
  unfold requestSnapshot
  split
  · exact tends_refused
  · exact tends_goes rfl rfl rfl ⟨rfl, rfl, Phase.noConfusion⟩ Bool.noConfusion

lemma tends_accept {request : Request} :
    Tends id p (.entering request) (p.accept id request) := by
  cases request with
  | play script start bound => exact tends_requestPlay
  | playNamed name =>
    simp only [accept]
    split
    · exact tends_refused
    · exact tends_goes rfl rfl rfl ⟨rfl, rfl, Phase.noConfusion⟩ Bool.noConfusion
  | reset => exact tends_requestGate (.of_eq rfl rfl rfl) rfl ⟨rfl, rfl, rfl⟩ Phase.noConfusion
  | shutDown =>
    have hshut : PublishesPlain p { p with isShutDown := true } :=
      ⟨⟨[], by simp, rfl⟩, rfl, Nat.le_refl _, fun _ => rfl, fun h => h⟩
    exact tends_requestGate hshut rfl ⟨rfl, rfl, rfl⟩ fun _ => rfl
  | stepForward =>
    simp only [accept]
    split
    · exact tends_refused
    · exact tends_requestLine ⟨rfl, rfl, Phase.noConfusion⟩ fun _ => rfl
  | stepBackward =>
    simp only [accept]
    split
    · exact tends_refused
    · exact tends_requestLine ⟨rfl, rfl, Phase.noConfusion⟩ Bool.noConfusion
  | skipToLine index => exact tends_requestLine ⟨rfl, rfl, Phase.noConfusion⟩ Bool.noConfusion
  | skipToLabel label =>
    simp only [accept, requestLabel]
    split
    · exact tends_refused
    · split
      · exact tends_refused
      · exact tends_requestLine ⟨rfl, rfl, Phase.noConfusion⟩ Bool.noConfusion
  | save =>
    simp only [accept, requestSave]
    split
    · exact tends_refused
    · exact tends_refused
    · have hnumbered : PublishesPlain p { p with serial := p.serial + 1 } :=
        ⟨⟨[], by simp, rfl⟩, rfl, Nat.le_succ _, fun h => h, fun h => h⟩
      exact .goes hnumbered rfl rfl rfl Phase.noConfusion Bool.noConfusion
  | loadSnapshot key => exact tends_requestSnapshot
  | loadState key =>
    simp only [accept]
    split
    · exact tends_refused
    · exact tends_requestSnapshot

lemma tends_storeSnapshot {key : String} {s : Snapshot} :
    Tends id p (.storing key s) (p.storeSnapshot key s) := by
  obtain ⟨result, q, hwrite⟩ : ∃ result q, p.write key s = (result, q) := ⟨_, _, rfl⟩
  have hwritten : TellsPlain p.run p q := by
    have hsnd : TellsPlain p.run p (p.write key s).2 := tellsPlain_write
    rw [hwrite] at hsnd
    exact hsnd
  unfold storeSnapshot
  rw [hwrite]
  cases result with
  | error e =>
    exact .ends hwritten.publishesPlain (congrArg Ground.checkpoint hwritten.ground) fun _ h =>
      Answer.noConfusion h
  | ok u =>
    have hhushed := hwritten.publishesPlain
    refine .stores rfl ⟨hhushed.news, ?_, hhushed.serial, hhushed.shut, hhushed.state⟩ rfl
    exact congrArg (fun g : Ground => { g with checkpoint := some s }) hhushed.ground

lemma tends_fetchSnapshot {key : String} {restoring : Bool} :
    Tends id p phase (p.fetchSnapshot id key restoring) := by
  unfold fetchSnapshot
  split
  · exact tends_refused
  · split
    · exact tends_requestLine ⟨rfl, rfl, Phase.noConfusion⟩ Bool.noConfusion
    · exact tends_ends rfl rfl rfl fun _ h => Answer.noConfusion h

lemma tends_restoreSnapshot {s : Snapshot} (hheld : p.lineLock.isHeldBy id = true) :
    Tends id p (.restoreLock s) (p.restoreSnapshot s) := by
  have hrefused : ∀ refusal, Tends id p (.restoreLock s) (p.unlock (.refused refusal)) :=
    fun _ => tends_unlock fun _ h => Answer.noConfusion h
  unfold restoreSnapshot
  split
  · exact hrefused _
  · next name hname =>
    split
    · exact hrefused _
    · next hsame =>
      split
      · exact hrefused _
      · next hlt =>
        exact .restores rfl hheld (hname.trans (congrArg some (not_not.mp hsame)))
          (Nat.le_of_not_lt hlt)
          ⟨[⟨.progressChanged (p.context.restore s).progress, Instant.ofMillis p.now, p.run⟩],
            by simp [Event.Payload.isPlain], rfl⟩ rfl rfl

/-- Moving the cursor is told by the progress. -/
lemma tends_moveTo {index : Nat} {answer : Answer} (hanswer : ∀ r, answer ≠ .report r) :
    Tends id p phase
      ({ p with context := p.context.moveTo index }.publishProgress.unlock answer) := by
  have hmoved : PublishesPlain p { p with context := p.context.moveTo index } := .of_eq rfl rfl rfl
  have hprogress : TellsPlain p.run { p with context := p.context.moveTo index }
      { p with context := p.context.moveTo index }.publishProgress := tellsPlain_publish rfl
  have hhushed := hmoved.trans hprogress.publishesPlain
  exact .ends ⟨hhushed.news, hhushed.ground, hhushed.serial, hhushed.shut,
    hhushed.state⟩ rfl hanswer

lemma tends_skip {index : Nat} : Tends id p phase (p.skip index) := by
  unfold skip
  split
  · exact tends_unlock fun _ h => Answer.noConfusion h
  · split
    · exact tends_unlock fun _ h => Answer.noConfusion h
    · exact tends_moveTo fun _ h => Answer.noConfusion h

/-- What a request beside the playback does. -/
lemma tends_step (id : Nat) (htoken : phase.token? = none) (hexec : p.execution? id phase = none)
    (hgate : ¬ Enters id p phase) (hready : (p.step id phase).2 ≠ .blocked) :
    Tends id p phase (p.step id phase) := by
  cases phase with
  | entering request => exact tends_accept
  | loading name =>
    simp only [step, loadAndPlay]
    split
    · exact tends_refused
    · split
      · exact tends_refused
      · exact tends_requestPlay
  | playGate script start bound =>
    simp only [step] at hready
    exact absurd (holds_of_ready hready) hgate
  | resetGate =>
    simp only [step] at hready
    exact absurd (holds_of_ready hready) hgate
  | closeGate =>
    simp only [step] at hready ⊢
    have hheld := holds_of_ready hready
    rw [if_pos hheld]
    exact .closes rfl hheld
  | stepLock =>
    simp only [step] at hready ⊢
    have hheld := holds_of_ready hready
    rw [if_pos hheld]
    unfold beginStep
    split
    · exact tends_unlock fun _ h => Answer.noConfusion h
    · exact tends_unlock fun _ h => Answer.noConfusion h
    · next token hrefusal htoken =>
      simp only [execution?] at hexec
      rw [if_pos ⟨hheld, hrefusal⟩, htoken] at hexec
      cases hexec
  | stepping line => cases hexec
  | backLock =>
    simp only [step] at hready ⊢
    rw [if_pos (holds_of_ready hready)]
    exact tends_moveTo fun _ h => Answer.noConfusion h
  | skipLock index =>
    simp only [step] at hready ⊢
    rw [if_pos (holds_of_ready hready)]
    exact tends_skip
  | storing key s => exact tends_storeSnapshot
  | fetching key restoring => exact tends_fetchSnapshot
  | restoreLock s =>
    simp only [step] at hready ⊢
    have hheld := holds_of_ready hready
    rw [if_pos hheld]
    exact tends_restoreSnapshot hheld
  | preloading | paused | playLock | playing | delaying | autosaving => cases htoken

/-! ### Calls -/

/-- What a call does. -/
inductive Obeys (p : Player) : Player → Prop
  | tellsPlain {q : Player} (h : TellsPlain p.run p q) : Obeys p q
  | assigns {name : String} {value : Json} : Obeys p (p.setVariable p.run name value)
  | clears : Obeys p (p.clearVariables p.run)

lemma obeys_perform (p : Player) (c : Call) : Obeys p (p.perform c) := by
  cases c with
  | pause =>
    simp only [perform, pause]
    split
    · exact .tellsPlain (.refl p)
    · have hmoved : TellsPlain p.run p (p.moveFrom p.run .playing .paused).2 :=
        tellsPlain_moveFrom fun _ => rfl
      exact .tellsPlain (hmoved.trans (.of_eq rfl rfl rfl))
    · exact .tellsPlain (.of_eq rfl rfl rfl)
    · exact .tellsPlain (.refl p)
  | resume =>
    have hcleared : TellsPlain p.run p { p with pauseRequested := false } := .of_eq rfl rfl rfl
    simp only [perform, resume]
    split
    · exact .tellsPlain (hcleared.trans (tellsPlain_moveFrom fun _ => rfl))
    · exact .tellsPlain hcleared
    · exact .tellsPlain hcleared
    · exact .tellsPlain hcleared
  | stop => exact .tellsPlain tellsPlain_stop
  | cancel => exact .tellsPlain (.of_eq rfl rfl rfl)
  | setSpeed speed =>
    simp only [perform, setSpeed]
    split
    · exact .tellsPlain (.of_eq rfl rfl rfl)
    · exact .tellsPlain (.refl p)
  | addBreakpoint index => exact .tellsPlain (.of_eq rfl rfl rfl)
  | removeBreakpoint index =>
    simp only [perform, removeBreakpoint, Context.removeBreakpoint, Context.unrelease]
    split <;> exact .tellsPlain (.of_eq rfl rfl rfl)
  | clearBreakpoints => exact .tellsPlain (.of_eq rfl rfl rfl)
  | assign name value => exact .assigns
  | unassignAll => exact .clears

/-- A call does nothing that a line might not do. -/
lemma pursues_perform {w : Work} {σ : Stage} (c : Call) : Pursues w σ p [] σ (p.perform c) := by
  have hobeys := p.obeys_perform c
  generalize p.perform c = q at hobeys
  cases hobeys with
  | tellsPlain h => exact .of_tellsPlain h (.inr rfl)
  | assigns => exact pursues_setVariable (.inr rfl)
  | clears => exact pursues_clearVariables (.inr rfl)

end Player

end Recital

import Recital.Proofs.Player.BesideLines

/-!
# How requests proceed

A request that executes a line in its next step (`Player.execution?`) takes the line along its
course.  What has to be remarked of the step is known before (`Player.stepRemarks`), above all the
snapshot that it returns to if a fault is recovered from by a rollback (`Player.stepRetreat?`).
When the line has ended, a playback goes on between two lines, and a single step lets go of the line
lock.

Together with the steps that execute no line, these are all that there are: `Player.Proceeds` lists
what a step of any request can do, and `proceeds_step` says that every step is on the list.
-/

namespace Recital.Player

variable {p q : Player} {id : Nat} {play : Play} {phase : Phase} {σ : Stage} {s : Snapshot}
  {w : Work} {by_ : LineEnd} {x : Player × Progress} {y : Player × LineProgress}

/-- The snapshot that a request returns to in its next step. -/
def stepRetreat? (p : Player) (id : Nat) : Phase → Option Snapshot
  | .playing _ line | .stepping line => p.lineRetreat? line
  | .playLock play =>
    if (p.execution? id (.playLock play)).isSome then
      { p with context := p.context.takeBreakpoint.2 }.retreatAtOnce? play.token
    else none
  | .stepLock =>
    if (p.execution? id .stepLock).isSome then
      p.token.bind fun token =>
        { p with context := { p.context with stepMode := true } }.retreatAtOnce? token
    else none
  | _ => none

/-- An attempt is cut short in the next step of a request. -/
def cutsShort (p : Player) (phase : Phase) : Bool := phase.line?.any p.interrupts

/-- What has to be remarked of the next step of a request. -/
def stepRemarks (p : Player) (id : Nat) (phase : Phase) : List Remark :=
  match phase.line? with
  | some line => p.remarks line
  | none => (p.stepRetreat? id phase).toList.map .restored

/-! ### Returning to the checkpoint -/

lemma checkpoint_of_lineRetreat? {line : LinePhase} (h : p.lineRetreat? line = some s) :
    p.recovery.checkpoint = some s := by
  cases line with
  | flying j f =>
    simp only [lineRetreat?] at h
    split at h
    · unfold landingRetreat? at h
      split at h
      · cases h
      · split at h
        · cases h
        · obtain ⟨x, -, hx⟩ := Option.bind_eq_some_iff.mp h
          exact checkpoint_of_rollback? hx
    · cases h
  | presenting w until_ verdict =>
    cases verdict with
    | ok => cases h
    | error failure =>
      simp only [lineRetreat?] at h
      split at h
      · exact checkpoint_of_rollback? h
      · cases h
  | resting | switching => cases h

lemma checkpoint_of_retreatAtOnce? {token : Token} (h : p.retreatAtOnce? token = some s) :
    p.recovery.checkpoint = some s := by
  unfold retreatAtOnce? at h
  dsimp only at h
  split at h
  · next source command _ =>
    cases command with
    | none =>
      exact checkpoint_of_rollback? (p := { p with context := p.context.settleCursor }) h
    | some command => cases h
  · cases h

/-- A rollback returns to the checkpoint. -/
lemma checkpoint_of_stepRetreat? (h : p.stepRetreat? id phase = some s) :
    p.recovery.checkpoint = some s := by
  cases phase with
  | playing play line | stepping line => exact checkpoint_of_lineRetreat? h
  | playLock play =>
    simp only [stepRetreat?] at h
    split at h
    · exact checkpoint_of_retreatAtOnce? (p := { p with context := p.context.takeBreakpoint.2 }) h
    · cases h
  | stepLock =>
    simp only [stepRetreat?] at h
    split at h
    · obtain ⟨token, -, hx⟩ := Option.bind_eq_some_iff.mp h
      exact checkpoint_of_retreatAtOnce?
        (p := { p with context := { p.context with stepMode := true } }) hx
    · cases h
  | _ => cases h

/-! ### Lines -/

/-- What a request does for its line. -/
structure Carries (id : Nat) (p : Player) (phase : Phase) (w : Work) (σ : Stage)
    (y : Player × LineProgress) : Prop where
  conducts : Conducts w σ p (p.stepRemarks id phase) y
  /-- The line in flight is taken on. -/
  lined : ∀ line, phase.line? = some line → w = line.work ∧ σ = line.stage
  /-- Another line is begun, in the run of the player. -/
  unlined : phase.line? = none → w.run = p.run

/-- The conduct of a line of a player that has the same ground. -/
lemma Conducts.of_ground {remarks : List Remark} (h : Conducts w σ q remarks y)
    (hbus : q.bus = p.bus) (hground : q.ground = p.ground) (hcell : q.cell = p.cell) :
    Conducts w σ p remarks y :=
  h.after (.of_eq hbus hground hcell)

/-- A line that is begun is carried on from wherever another line may follow. -/
lemma carries_execution (hexec : p.execution? id phase = some y) (hready : y.2 ≠ .blocked)
    (hσ : phase.line? = none → σ.mayGoOn = true)
    (hlined : ∀ line, phase.line? = some line → σ = line.stage) :
    ∃ w, Carries id p phase w σ y := by
  have hline : ∀ line, phase.line? = some line → y = p.stepLine line →
      p.stepRemarks id phase = p.remarks line → ∃ w, Carries id p phase w σ y := by
    intro line hphase hy hremarks
    rw [hy] at hready
    refine ⟨line.work, ⟨?_, fun l hl => ?_, fun h => ?_⟩⟩
    · rw [hremarks, hlined line hphase, hy]
      exact p.conducts_stepLine line hready
    · obtain rfl : line = l := Option.some.inj (hphase.symm.trans hl)
      exact ⟨rfl, hlined line hphase⟩
    · rw [hphase] at h
      cases h
  have hbegin : ∀ (r : Player) (token : Token), phase.line? = none → y = r.beginLine token →
      p.stepRetreat? id phase = r.retreatAtOnce? token → r.bus = p.bus → r.ground = p.ground →
        r.cell = p.cell → ∃ w, Carries id p phase w σ y := by
    intro r token hphase hy hretreat hbus hground hcell
    obtain ⟨w, hrun, -, hconducts⟩ := r.conducts_beginLine token (hσ hphase)
    refine ⟨w, ⟨?_, fun line h => ?_, fun _ => hrun.trans (congrArg Ground.run hground)⟩⟩
    · have hremarks : p.stepRemarks id phase = (r.retreatAtOnce? token).toList.map .restored := by
        unfold stepRemarks
        rw [hphase, hretreat]
      rw [hremarks, hy]
      exact hconducts.of_ground hbus hground hcell
    · rw [hphase] at h
      cases h
  cases phase with
  | playing play line =>
    cases hexec
    exact hline line rfl rfl rfl
  | stepping line =>
    cases hexec
    exact hline line rfl rfl rfl
  | playLock play =>
    have hsome : (p.execution? id (.playLock play)).isSome = true := by rw [hexec]; rfl
    have hretreat : p.stepRetreat? id (.playLock play) =
        { p with context := p.context.takeBreakpoint.2 }.retreatAtOnce? play.token := if_pos hsome
    have hground : { p with context := p.context.takeBreakpoint.2 }.ground = p.ground :=
      ground_takeBreakpoint
    simp only [execution?] at hexec
    split at hexec
    · exact hbegin { p with context := p.context.takeBreakpoint.2 } play.token rfl
        (Option.some.inj hexec).symm hretreat rfl hground rfl
    · cases hexec
  | stepLock =>
    have hsome : (p.execution? id .stepLock).isSome = true := by rw [hexec]; rfl
    simp only [execution?] at hexec
    split at hexec
    · obtain ⟨token, htoken, hy⟩ := Option.map_eq_some_iff.mp hexec
      have hretreat : p.stepRetreat? id .stepLock =
          { p with context := { p.context with stepMode := true } }.retreatAtOnce? token := by
        have hbound : p.stepRetreat? id .stepLock = _ := if_pos hsome
        rw [hbound, htoken]
        rfl
      exact hbegin { p with context := { p.context with stepMode := true } } token rfl hy.symm
        hretreat rfl rfl rfl
    · cases hexec
  | _ => cases hexec

/-! ### After the line -/

/-- A single step whose line has ended lets go of the line lock. -/
lemma publishesPlain_followStep (q : Player) (by_ : LineEnd) : ∃ r answer,
    followStep (q, .ends by_) = (r, .ends answer) ∧ PublishesPlain q r ∧
      r.recovery.checkpoint = q.recovery.checkpoint ∧ ∀ report, answer ≠ .report report := by
  obtain ⟨r, hr⟩ : ∃ r, r = { q with context := { q.context with stepMode := false } } := ⟨_, rfl⟩
  have hreset : PublishesPlain q r := hr ▸ .of_eq rfl rfl rfl
  have hunlock : ∀ e : Player, PublishesPlain q e →
      PublishesPlain q { e with lineLock := e.lineLock.release } :=
    fun e he => ⟨he.news, he.ground, he.serial, he.shut, he.state⟩
  cases by_ with
  | next =>
    refine ⟨{ r with lineLock := r.lineLock.release }, .done, hr ▸ rfl, hunlock r hreset, hr ▸ rfl,
      fun _ h => Answer.noConfusion h⟩
  | finished f =>
    have hdefer : TellsPlain r.run r (r.defer f) :=
      TellsPlain.trans (q := { r with deferred := some f }) (.of_eq rfl rfl rfl)
        (tellsPlain_moveFrom fun _ => rfl)
    refine ⟨{ r.defer f with lineLock := (r.defer f).lineLock.release }, .done, hr ▸ rfl,
      hunlock _ (hreset.trans hdefer.publishesPlain), ?_, fun _ h => Answer.noConfusion h⟩
    exact (congrArg Ground.checkpoint hdefer.ground).trans (hr ▸ rfl)

/-! ### Every step -/

/-- What a step of a request does.  The stage is the one of the line in flight, or one after which
another line may follow. -/
inductive Proceeds (id : Nat) (σ : Stage) (p : Player) (phase : Phase) : Player × Progress → Prop
  /-- A line goes on. -/
  | flies {w : Work} {q : Player} {next : Phase} {line : LinePhase}
    (hexec : (p.execution? id phase).isSome = true)
    (hq : Pursues w σ p (p.stepRemarks id phase) line.stage q)
    (hlined : ∀ line, phase.line? = some line → w = line.work)
    (hunlined : phase.line? = none → w.run = p.run) (hwork : line.work = w)
    (hcaller : ∀ caller script recovered, line = .switching w caller script recovered →
      caller = q.run)
    (hline : next.line? = some line) (htoken : next.token? = phase.token?)
    (hstep : next.isStep = phase.isStep) : Proceeds id σ p phase (q, .goes next)
  /-- A line of a playback has ended. -/
  | plays {w : Work} {q : Player} {play : Play} {by_ : LineEnd} {τ : Stage}
    (hexec : (p.execution? id phase).isSome = true)
    (hq : Pursues w σ p (p.stepRemarks id phase) τ q)
    (hlined : ∀ line, phase.line? = some line → w = line.work)
    (hunlined : phase.line? = none → w.run = p.run) (hby : by_.suits τ = true)
    (htoken : phase.token? = some play.token) :
    Proceeds id σ p phase (q.afterLine id play by_)
  /-- A line of a single step has ended. -/
  | steps {w : Work} {q r : Player} {answer : Answer} {τ : Stage}
    (hexec : (p.execution? id phase).isSome = true)
    (hq : Pursues w σ p (p.stepRemarks id phase) τ q) (hstep : phase.isStep = true)
    (hr : PublishesPlain q r) (hcheckpoint : r.recovery.checkpoint = q.recovery.checkpoint)
    (hanswer : ∀ report, answer ≠ .report report) : Proceeds id σ p phase (r, .ends answer)
  | playsNoLine {token : Token} {x : Player × Progress} (htoken : phase.token? = some token)
    (hline : phase.line? = none) (hlate : phase.isEarly = false) (hx : PlaysNoLine token p x) :
    Proceeds id σ p phase x
  /-- The resources of a script are there. -/
  | starts {token : Token} {run : Run} {name : String} {until_ : Nat}
    (hphase : phase = .preloading token run name until_) :
    Proceeds id σ p phase (p.startLines id token run name)
  /-- A request to play has passed the gate. -/
  | enrolls {script : Script} {start : Start} {bound : Bool} {x : Player × Progress}
    (hphase : phase = .playGate script start bound) (hheld : p.gate.isHeldBy id = true)
    (hx : Enrolls script bound p x) : Proceeds id σ p phase x
  /-- A request to reset has passed the gate. -/
  | resets (hphase : phase = .resetGate) (hheld : p.gate.isHeldBy id = true) :
    Proceeds id σ p phase p.resetAll
  | tends {x : Player × Progress} (htoken : phase.token? = none) (hline : phase.line? = none)
    (hx : Tends id p phase x) : Proceeds id σ p phase x

/-- A request that executes a line is one for a single step or a playback. -/
lemma isStep_of_execution? (hexec : p.execution? id phase = some y) :
    phase.isStep = phase.isSide := by
  cases phase with
  | playing | stepping | playLock | stepLock => rfl
  | _ => cases hexec

/-- A request executes a line. -/
lemma proceeds_execution (hexec : p.execution? id phase = some y)
    (hready : (p.step id phase).2 ≠ .blocked) (hσ : phase.line? = none → σ.mayGoOn = true)
    (hlined : ∀ line, phase.line? = some line → σ = line.stage) :
    Proceeds id σ p phase (p.step id phase) := by
  have hlive : y.2 ≠ .blocked := by
    intro hblocked
    refine hready ?_
    obtain ⟨q, progress⟩ := y
    cases hblocked
    rcases step_of_execution hexec with ⟨-, hstep⟩ | ⟨-, play, -, hstep⟩ <;> rw [hstep] <;> rfl
  obtain ⟨w, hcarries⟩ := carries_execution hexec hlive hσ hlined
  have hwork : ∀ line, phase.line? = some line → w = line.work := fun line hline =>
    (hcarries.lined line hline).1
  have hconducts := hcarries.conducts
  have hsome : (p.execution? id phase).isSome = true := by rw [hexec]; rfl
  rcases step_of_execution hexec with ⟨hside, hstep⟩ | ⟨hplayback, play, hplay, hstep⟩
  · rw [hstep]
    have hkind : phase.isStep = true := (isStep_of_execution? hexec).trans hside
    cases hconducts with
    | goes h hw hcaller =>
      exact .flies hsome h hwork hcarries.unlined hw hcaller rfl (Phase.token?_of_isSide hside).symm
        hkind.symm
    | @ends q by_ τ h =>
      obtain ⟨r, answer, hfollow, hr, hcheckpoint, hanswer⟩ := publishesPlain_followStep q by_
      rw [hfollow]
      exact .steps hsome h hkind hr hcheckpoint hanswer
  · rw [hstep]
    have hkind : phase.isStep = false :=
      (isStep_of_execution? hexec).trans (Phase.isSide_of_isPlayback hplayback)
    cases hconducts with
    | goes h hw hcaller =>
      exact .flies hsome h hwork hcarries.unlined hw hcaller rfl hplay.symm hkind.symm
    | ends h hby => exact .plays hsome h hwork hcarries.unlined hby hplay

/-- Every step is on the list. -/
lemma proceeds_step (id : Nat) (phase : Phase) (p : Player)
    (hready : (p.step id phase).2 ≠ .blocked) (hσ : phase.line? = none → σ.mayGoOn = true)
    (hlined : ∀ line, phase.line? = some line → σ = line.stage) :
    Proceeds id σ p phase (p.step id phase) := by
  cases hexec : p.execution? id phase with
  | some y => exact proceeds_execution hexec hready hσ hlined
  | none =>
    have hline : phase.line? = none := by
      cases phase with
      | playing | stepping => cases hexec
      | _ => rfl
    cases htoken : phase.token? with
    | some token =>
      cases hearly : phase.isEarly with
      | false =>
        exact .playsNoLine htoken hline hearly (playsNoLine_step id htoken hearly hexec hready)
      | true =>
        cases phase with
        | preloading T run script until_ =>
          rw [step_preloading hready]
          exact .starts rfl
        | entering | loading | playGate => cases htoken
        | _ => cases hearly
    | none =>
      by_cases henters : Enters id p phase
      · cases phase with
        | playGate script start bound =>
          have hheld : p.gate.isHeldBy id = true := henters
          exact .enrolls rfl hheld (enrolls_step hheld)
        | resetGate =>
          have hheld : p.gate.isHeldBy id = true := henters
          simp only [step]
          rw [if_pos hheld]
          exact .resets rfl hheld
        | _ => exact henters.elim
      · exact .tends htoken hline (tends_step id htoken hexec henters hready)

/-- Every step is on the list, whatever stage the playback has come to. -/
lemma exists_proceeds_step (id : Nat) (phase : Phase) (p : Player)
    (hready : (p.step id phase).2 ≠ .blocked) :
    ∃ σ, Proceeds id σ p phase (p.step id phase) := by
  cases hline : phase.line? with
  | none =>
    refine ⟨.started, proceeds_step id phase p hready (fun _ => rfl) fun l hl => ?_⟩
    cases hline.symm.trans hl
  | some line =>
    refine ⟨line.stage, proceeds_step id phase p hready (fun h => ?_) fun l hl => ?_⟩
    · cases hline.symm.trans h
    · rw [Option.some.inj (hline.symm.trans hl)]

/-- A request leads to a line only by executing it, and to a phase of a playback only from one,
unless it passes the gate. -/
lemma next_step {next : Phase} (id : Nat) (hready : (p.step id phase).2 ≠ .blocked)
    (hnext : (p.step id phase).2 = .goes next) :
    (next.line?.isSome = true → (p.execution? id phase).isSome = true) ∧
      (¬ Enters id p phase → next.token?.isSome = true → phase.token?.isSome = true) := by
  obtain ⟨σ, hproceeds⟩ := exists_proceeds_step id phase p hready
  generalize p.step id phase = x at hproceeds hnext
  have htarries : ∀ {T : Token} {q : Player}, PlaysNoLine T q x → next.line? = none := fun hx =>
    (hx.next hnext).2
  cases hproceeds with
  | flies hexec _ _ _ _ _ _ htoken =>
    cases hnext
    exact ⟨fun _ => hexec, fun _ h => htoken ▸ h⟩
  | plays hexec _ _ _ _ htoken => exact ⟨fun _ => hexec, fun _ _ => by rw [htoken]; rfl⟩
  | steps => cases hnext
  | playsNoLine htoken _ _ hx =>
    refine ⟨fun hline => ?_, fun _ _ => by rw [htoken]; rfl⟩
    rw [htarries hx] at hline
    cases hline
  | @starts token run name until_ hphase =>
    refine ⟨fun hline => ?_, fun _ _ => by rw [hphase]; rfl⟩
    rcases p.startLines_cases id token run name with ⟨r, hr⟩ | ⟨q, hq, hx⟩
    · cases hr.ends.symm.trans hnext
    · rw [htarries hx] at hline
      cases hline
  | enrolls hphase hheld hx =>
    refine ⟨fun hline => ?_, fun hgate => absurd ?_ hgate⟩
    · cases hx with
      | refused => cases hnext
      | ends _ _ hx => cases hx.ends.symm.trans hnext
      | waits =>
        cases hnext
        cases hline
      | starts _ _ _ hx =>
        rw [htarries hx] at hline
        cases hline
    · rw [hphase]
      exact hheld
  | resets => cases hnext
  | tends _ _ hx =>
    cases hx with
    | goes _ _ htoken hline =>
      cases hnext
      refine ⟨fun h => ?_, fun _ h => ?_⟩
      · rw [hline] at h
        cases h
      · rw [htoken] at h
        cases h
    | ends | stores | restores | closes => cases hnext

end Recital.Player

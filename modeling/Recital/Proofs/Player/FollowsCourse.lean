import Recital.Proofs.Place.Request
import Recital.Proofs.Player.Course
import Recital.Proofs.Player.LineFrame

/-!
# Lines follow a course

Every operation of a line pursues a course from one stage to another (`Player.Pursues`), and a step
of a line leads to a phase at the stage that the course has come to, or the line ends at a stage
that suits its end (`Player.Conducts`).  So what is true of each deed is true of whatever a line
does.  What a step of a line has to remark can be computed before the step is made: `Player.remarks`
follows the verdict of an attempt to the plan of its recovery.
-/

namespace Recital

namespace Player

variable {p q r : Player} {w : Work} {j : Job} {f : Flight} {run : Run} {σ τ υ : Stage}
  {noted further : List Remark} {x : Player × LineProgress}

/-! ### Plain events -/

/-- Only plain events were published, and nothing has changed that is kept account of. -/
structure TellsPlain (run : Run) (p q : Player) : Prop where
  news : ∃ news, (∀ e ∈ news, e.payload.isPlain = true ∧ e.run = run) ∧ q.bus = p.bus.tell news
  ground : q.ground = p.ground
  /-- No playback has got under way. -/
  state : q.state.isUnderway = true → p.state.isUnderway = true

namespace TellsPlain

lemma of_eq (hbus : q.bus = p.bus) (hground : q.ground = p.ground) (hcell : q.cell = p.cell) :
    TellsPlain run p q := by
  refine ⟨⟨[], by simp, hbus⟩, hground, fun h => ?_⟩
  have hstate : q.state = p.state := congrArg Cell.current hcell
  rwa [← hstate]

lemma refl (p : Player) : TellsPlain run p p := .of_eq rfl rfl rfl

lemma trans (hpq : TellsPlain run p q) (hqr : TellsPlain run q r) : TellsPlain run p r := by
  obtain ⟨news, hnews, hbus⟩ := hpq.news
  obtain ⟨more, hmore, hbus'⟩ := hqr.news
  refine ⟨⟨news ++ more, fun e he => ?_, ?_⟩, hqr.ground.trans hpq.ground,
    fun h => hpq.state (hqr.state h)⟩
  · exact (List.mem_append.mp he).elim (hnews e) (hmore e)
  · rw [hbus', hbus, Bus.tell_append]

end TellsPlain

lemma tellsPlain_publish {e : Event.Payload} (h : e.isPlain = true) :
    TellsPlain run p (p.publish run e) :=
  ⟨⟨[⟨e, Instant.ofMillis p.now, run⟩], by simpa using h, rfl⟩, rfl, id⟩

/-- A change of state is told. -/
lemma tellsPlain_commit {b : State} (hb : b.isUnderway = true → p.state.isUnderway = true) :
    TellsPlain run p (p.commit run (p.cell.commit b)) :=
  ⟨⟨[⟨.stateChanged p.state b, Instant.ofMillis p.now, run⟩], by simp [Event.Payload.isPlain], rfl⟩,
    rfl, hb⟩

lemma tellsPlain_moveFrom {a b : State} (hab : b.isUnderway = true → a.isUnderway = true) :
    TellsPlain run p (p.moveFrom run a b).2 := by
  rw [moveFrom_eq_ite]
  split
  · next h => exact tellsPlain_commit (h.1 ▸ hab)
  · exact .refl p

lemma tellsPlain_moveIfAllowed {b : State} (hb : b.isUnderway = false) :
    TellsPlain run p (p.moveIfAllowed run b) := by
  rw [moveIfAllowed_eq_ite]
  split
  · exact tellsPlain_commit fun hunder => absurd (hb.symm.trans hunder) Bool.false_ne_true
  · exact .refl p

lemma tellsPlain_resetState : TellsPlain run p (p.resetState run) := by
  rw [resetState_eq_ite]
  split
  · exact .refl p
  · exact tellsPlain_commit fun hunder => Bool.noConfusion hunder

/-! ### What is done for a line -/

/-- The player does something for a line, from one stage to another. -/
structure Pursues (w : Work) (σ : Stage) (p : Player) (noted : List Remark) (τ : Stage)
    (q : Player) : Prop where
  course : ∃ news, Course w σ p.ground news noted τ q.ground ∧ q.bus = p.bus.tell news
  /-- No playback has got under way. -/
  state : q.state.isUnderway = true → p.state.isUnderway = true

namespace Pursues

lemma of_tellsPlain (h : TellsPlain run p q) (hrun : run = w.run ∨ run = p.run) :
    Pursues w σ p [] σ q := by
  obtain ⟨news, hnews, hbus⟩ := h.news
  refine ⟨⟨news, ?_, hbus⟩, h.state⟩
  rw [h.ground]
  refine .of_plain fun e he => ⟨(hnews e he).1, ?_⟩
  rw [(hnews e he).2]
  exact hrun

lemma of_eq (hbus : q.bus = p.bus) (hground : q.ground = p.ground) (hcell : q.cell = p.cell) :
    Pursues w σ p [] σ q :=
  of_tellsPlain (TellsPlain.of_eq hbus hground hcell : TellsPlain w.run p q) (.inl rfl)

lemma refl (p : Player) : Pursues w σ p [] σ p := .of_eq rfl rfl rfl

lemma of_deed {news : List Event} (hdeed : Deed w σ p.ground news noted τ q.ground)
    (hbus : q.bus = p.bus.tell news) (hcell : q.cell = p.cell) : Pursues w σ p noted τ q := by
  refine ⟨⟨news, .single hdeed, hbus⟩, fun h => ?_⟩
  have hstate : q.state = p.state := congrArg Cell.current hcell
  rwa [← hstate]

lemma append (hpq : Pursues w σ p noted τ q) (hqr : Pursues w τ q further υ r) :
    Pursues w σ p (noted ++ further) υ r := by
  obtain ⟨news, hcourse, hbus⟩ := hpq.course
  obtain ⟨more, hcourse', hbus'⟩ := hqr.course
  refine ⟨⟨news ++ more, hcourse.trans hcourse', ?_⟩, fun h => hpq.state (hqr.state h)⟩
  rw [hbus', hbus, Bus.tell_append]

/-- What needs no remark may come first. -/
lemma trans (hpq : Pursues w σ p [] τ q) (hqr : Pursues w τ q noted υ r) :
    Pursues w σ p noted υ r :=
  hpq.append hqr

end Pursues

/-- What became of a line that has followed a course: it goes on from the stage of its phase, or it
has ended at a stage that suits its end. -/
inductive Conducts (w : Work) (σ : Stage) (p : Player) (noted : List Remark) :
    Player × LineProgress → Prop
  | goes {q : Player} {phase : LinePhase} (h : Pursues w σ p noted phase.stage q)
    (hwork : phase.work = w)
    (hcaller : ∀ caller script recovered, phase = .switching w caller script recovered →
      caller = q.run) : Conducts w σ p noted (q, .goes phase)
  | ends {q : Player} {by_ : LineEnd} {τ : Stage} (h : Pursues w σ p noted τ q)
    (hby : by_.suits τ = true) : Conducts w σ p noted (q, .ends by_)

/-- What is done further on is done from here. -/
lemma Conducts.append (h : Conducts w τ q further x) (hpq : Pursues w σ p noted τ q) :
    Conducts w σ p (noted ++ further) x := by
  cases h with
  | goes h hwork hcaller => exact .goes (hpq.append h) hwork hcaller
  | ends h hby => exact .ends (hpq.append h) hby

lemma Conducts.after (h : Conducts w τ q noted x) (hpq : Pursues w σ p [] τ q) :
    Conducts w σ p noted x :=
  h.append hpq

lemma pursues_applyPause : Pursues w σ p [] σ (p.applyPause w.run) := by
  have hmoved : TellsPlain w.run p
      ({ p with pauseRequested := false }.moveFrom w.run .playing .paused).2 :=
    TellsPlain.trans (q := { p with pauseRequested := false }) (.of_eq rfl rfl rfl)
      (tellsPlain_moveFrom fun _ => rfl)
  unfold applyPause
  split
  · exact .of_tellsPlain hmoved (.inl rfl)
  · exact .refl p

lemma pursues_leaveWaiting : Pursues j.work σ p [] σ (p.leaveWaiting j) := by
  unfold leaveWaiting
  split
  · exact .of_tellsPlain (tellsPlain_moveFrom fun _ => rfl) (.inl rfl)
  · exact .refl p

lemma pursues_setVariable {name : String} {value : Json} (hrun : run = w.run ∨ run = p.run) :
    Pursues w σ p [] σ (p.setVariable run name value) :=
  .of_deed (.assigns hrun) rfl rfl

/-- The removal of several variables is told at once. -/
lemma bus_foldl_publish (names : List String) (p : Player) :
    (names.foldl (fun p name => p.publish run (.variableChanged name none)) p).bus =
      p.bus.tell (names.map fun name =>
        ⟨.variableChanged name none, Instant.ofMillis p.now, run⟩) := by
  induction names generalizing p with
  | nil => rfl
  | cons name names ih => exact ih _

/-- Events change the bus only. -/
lemma ground_foldl_publish (run : Run) (names : List String) (p : Player) :
    (names.foldl (fun p name => p.publish run (.variableChanged name none)) p).ground = p.ground ∧
      (names.foldl (fun p name => p.publish run (.variableChanged name none)) p).cell = p.cell := by
  induction names generalizing p with
  | nil => exact ⟨rfl, rfl⟩
  | cons name names ih => exact ih _

lemma pursues_clearVariables (hrun : run = w.run ∨ run = p.run) :
    Pursues w σ p [] σ (p.clearVariables run) := by
  obtain ⟨q, hq⟩ : ∃ q, q = p.dropVariables := ⟨_, rfl⟩
  have hground : q.ground = { p.ground with vars := ∅ } := hq ▸ rfl
  have hbus : q.bus = p.bus := hq ▸ rfl
  have hcell : q.cell = p.cell := hq ▸ rfl
  have hnow : q.now = p.now := hq ▸ rfl
  obtain ⟨hsame, hstate⟩ := ground_foldl_publish run p.context.vars.keys q
  have hdeed : Deed w σ p.ground
      (p.context.vars.keys.map fun name =>
        ⟨.variableChanged name none, Instant.ofMillis p.now, run⟩) [] σ q.ground := by
    rw [hground]
    exact .clears hrun
  unfold clearVariables
  rw [← hq]
  refine .of_deed (hsame ▸ hdeed) ?_ (hstate.trans hcell)
  rw [bus_foldl_publish, hbus, hnow]

lemma pursues_applyEffect (e : Effect) : Pursues w σ p [] σ (p.applyEffect w e) := by
  cases e with
  | assign | observe => exact pursues_setVariable (.inl rfl)
  | clear => exact pursues_clearVariables (.inl rfl)
  | push | note => exact .of_eq rfl rfl rfl

lemma pursues_foldl_applyEffect (effects : List Effect) :
    Pursues w σ p [] σ (effects.foldl (fun p e => p.applyEffect w e) p) := by
  induction effects generalizing p with
  | nil => exact .refl p
  | cons e effects ih => exact (pursues_applyEffect e).trans ih

lemma pursues_countAttempt : Pursues w σ p [] σ (p.countAttempt j) := by
  unfold countAttempt
  split
  · exact .of_eq rfl rfl rfl
  · exact .refl p

lemma pursues_backoff {policy : Policy} {attempt : Nat} :
    Pursues w σ p [] σ (p.backoff policy attempt).2 := by
  unfold backoff
  split
  · exact .of_eq rfl rfl rfl
  · exact .refl p

/-! ### The end of a line -/

lemma conducts_closeLine {by_ : LineEnd} (h : by_.suits σ = true) :
    Conducts w σ p [] (p.closeLine w by_) := by
  have hprogress : TellsPlain p.run p p.publishProgress := tellsPlain_publish rfl
  exact .ends ((Pursues.of_tellsPlain hprogress (.inr rfl)).trans pursues_applyPause) h

/-- A breakpoint lets no line through twice. -/
lemma ground_lineFinished (index : Nat) :
    { p with context := p.context.lineFinished index }.ground = p.ground := by
  unfold Context.lineFinished Context.unrelease
  split <;> rfl

lemma conducts_closeFailed {fault : Fault} {point : Point}
    (hpoint : point.isOpen = true ∨ point = .executed) :
    Conducts w (.line w.index point) p [] (p.closeFailed w fault) := by
  obtain ⟨q, hq⟩ : ∃ q, q = { p with spent := p.spent.forget w.index } := ⟨_, rfl⟩
  have hforgot : Pursues w (.line w.index point) p [] (.line w.index point) q :=
    hq ▸ .of_eq rfl rfl rfl
  have hdone : point.isDone = true := by
    rcases hpoint with hopen | rfl
    · exact Point.isDone_of_isOpen hopen
    · rfl
  unfold closeFailed passOver
  dsimp only
  rw [← hq]
  split
  · obtain ⟨r, hr⟩ : ∃ r, r = { q.publish w.run (.lineFailed w.index fault) with
        context := (q.context.lineFinished w.index).moveTo (w.index + 1) } := ⟨_, rfl⟩
    have hground : r.ground = q.ground := by
      rw [hr]
      exact (ground_lineFinished (p := q) w.index : _ = q.ground)
    have hfails : Pursues w (.line w.index point) q [] (.line w.index .failed) r := by
      have hdeed : Deed w (.line w.index point) q.ground
          [⟨.lineFailed w.index fault, Instant.ofMillis q.now, w.run⟩] [] (.line w.index .failed)
          r.ground := by
        rw [hground]
        exact .fails hpoint
      exact .of_deed hdeed (hr ▸ rfl) (hr ▸ rfl)
    rw [hr] at hfails
    exact (conducts_closeLine rfl).after (hforgot.trans hfails)
  · have hby : (LineEnd.finished (.failed fault w.index)).suits (.line w.index point) = true :=
      LineEnd.suits_of_mayGoOn _ hdone
    exact (conducts_closeLine hby).after hforgot

lemma conducts_closeDone {recovered : Bool} {by_ : LineEnd} (h : σ.mayGoOn = true) :
    Conducts w σ p [] (p.closeDone w recovered by_) := by
  have hby := LineEnd.suits_of_mayGoOn by_ h
  unfold closeDone
  dsimp only
  split
  · exact Conducts.after (q := { p with recovery := p.recovery.recordSuccess })
      (conducts_closeLine hby) (.of_eq rfl rfl rfl)
  · exact conducts_closeLine hby

/-! ### Flow actions -/

/-- A flow action moves the cursor and takes return addresses. -/
lemma ground_of_resolve {flow : Flow} {resolution : Context.Resolution} {context : Context}
    (h : p.context.resolve flow = .ok (resolution, context)) :
    { p with context }.ground = p.ground := by
  have hpop : ∀ {frame : Frame} {c : Context}, p.context.popFrame = some (frame, c) →
      ∃ frames, c = { p.context with frames } := by
    intro frame c hc
    obtain ⟨g, -, heq⟩ := Option.map_eq_some_iff.mp hc
    exact ⟨_, (Prod.mk.inj heq).2.symm⟩
  cases flow with
  | next | stop | call =>
    cases h
    rfl
  | toLine index =>
    simp only [Context.resolve] at h
    split at h <;> cases h
    rfl
  | toLabel label =>
    simp only [Context.resolve] at h
    split at h <;> cases h
    rfl
  | back =>
    simp only [Context.resolve] at h
    split at h
    · next frame c hc =>
      obtain ⟨frames, rfl⟩ := hpop hc
      cases h
      rfl
    · cases h
      rfl

lemma conducts_applyFlow {flow : Flow} {recovered : Bool} :
    Conducts w (.line w.index .executed) p [] (p.applyFlow w flow recovered) := by
  unfold applyFlow
  split
  · exact conducts_closeFailed (.inr rfl)
  · next resolution context hresolve =>
    have hground := ground_of_resolve hresolve
    have hmoved : Pursues w (.line w.index .executed) p [] (.line w.index .executed)
        { p with context } := .of_eq rfl hground rfl
    have hdone : ∀ by_, Conducts w (.line w.index .executed) p []
        ({ p with context }.closeDone w recovered by_) := fun by_ =>
      (conducts_closeDone rfl).after hmoved
    dsimp only
    split
    · have hadvanced : Pursues w (.line w.index .executed) p [] (.line w.index .executed)
          { p with context := context.advance } := .of_eq rfl hground rfl
      exact (conducts_closeDone rfl).after hadvanced
    · exact hdone _
    · exact hdone _
    · exact hdone _
    · exact hdone _
    · next name =>
      split
      · exact (conducts_closeFailed (.inr rfl)).after hmoved
      · refine .goes hmoved rfl fun caller script again hphase => ?_
        cases hphase
        rfl

lemma conducts_finishLine {flow : Flow} {recovered : Bool} {point : Point}
    (hpoint : point.isOpen = true) :
    Conducts w (.line w.index point) p [] (p.finishLine w flow recovered) := by
  obtain ⟨q, hq⟩ : ∃ q, q = { p with
      context := p.context.recordLine.lineFinished w.index
      spent := p.spent.forget w.index } := ⟨_, rfl⟩
  have hground : q.ground = { p.ground with lines := Word.next 64 p.ground.lines } := by
    rw [hq]
    exact ground_lineFinished (p := { p with
      context := p.context.recordLine
      spent := p.spent.forget w.index }) w.index
  have hexecutes : Pursues w (.line w.index point) p [] (.line w.index .executed)
      (q.publish w.run (.lineExecuted w.index w.source)) := by
    have hdeed : Deed w (.line w.index point) p.ground
        [⟨.lineExecuted w.index w.source, Instant.ofMillis p.now, w.run⟩] []
        (.line w.index .executed) q.ground := by
      rw [hground]
      exact .executes hpoint
    exact .of_deed hdeed (hq ▸ rfl) (hq ▸ rfl)
  rw [hq] at hexecutes
  exact conducts_applyFlow.after hexecutes

/-- The player continues in another script. -/
lemma pursues_enter {caller : Run} {name : String} {script : Script} :
    Pursues w (.line w.index .executed) p [.called caller] .started
      (p.enter caller name script script.survey.labels) := by
  obtain ⟨labels, hlabels⟩ : ∃ labels, labels = script.survey.labels := ⟨_, rfl⟩
  obtain ⟨c, hc⟩ : ∃ c, (p.context.switchTo script labels).snapshot? (Instant.ofMillis p.now) =
      some c := ⟨_, rfl⟩
  have hname : c.scriptName = script.name := by
    cases hc
    rfl
  obtain ⟨q, hq⟩ : ∃ q, q =
      { p with context := p.context.switchTo script labels, attempts := {} }.setCheckpoint :=
    ⟨_, rfl⟩
  have hset : q = { p with
      context := p.context.switchTo script labels
      attempts := {}
      recovery := p.recovery.setCheckpoint c } := by
    rw [hq, setCheckpoint, hc]
  unfold enter
  dsimp only
  rw [← hlabels, ← hq, hset, hlabels]
  exact .of_deed (.enters hname) rfl rfl

/-- A script that is continued in comes with its own labels. -/
lemma labels_of_fetch {name : String} {script : Script} {labels : Table Nat}
    (h : p.fetch w name = .ok (script, labels)) : labels = script.survey.labels := by
  unfold fetch at h
  split at h
  · cases h
  · split at h
    · cases h
    · dsimp only at h
      split at h
      · cases h
      · cases h
        rfl

/-- A call is remarked if the script can be loaded. -/
lemma conducts_switchScript {caller : Run} {script : String} {recovered : Bool} :
    Conducts w (.line w.index .executed) p
      (if (p.fetch w script).isOk then [.called caller] else [])
      (p.switchScript w caller script recovered) := by
  unfold switchScript
  cases hfetch : p.fetch w script with
  | error fault => exact conducts_closeFailed (.inr rfl)
  | ok found =>
    obtain ⟨called, labels⟩ := found
    obtain rfl := labels_of_fetch hfetch
    exact Conducts.append (conducts_closeDone rfl) pursues_enter

/-! ### Failures -/

/-- The snapshot that the recovery of a line from a fault returns to. -/
def rollback? (p : Player) (index : Nat) (fault : Fault) (policy : Policy) : Option Snapshot :=
  if p.tolerance.recoveryEnabled then
    match (p.recovery.plan fault policy (p.spent.count index) p.tolerance.maxRecoveries).1 with
    | .rollback s => some s
    | _ => none
  else none

/-- A recovery returns to the checkpoint. -/
lemma checkpoint_of_rollback? {index : Nat} {fault : Fault} {policy : Policy} {s : Snapshot}
    (h : p.rollback? index fault policy = some s) : p.recovery.checkpoint = some s := by
  unfold rollback? at h
  split at h
  · split at h
    · next t hplan =>
      cases h
      exact (p.recovery.plan_spec fault policy _ _).2 s hplan
    · cases h
  · cases h

/-- The recovery of a line makes one remark at most: that it returns to a snapshot. -/
lemma conducts_handleFault {fault : Fault} {policy : Policy} {point : Point}
    (hpoint : point.isOpen = true) :
    Conducts w (.line w.index point) p
      ((p.rollback? w.index fault policy).toList.map .restored) (p.handleFault w fault policy) := by
  have hkept := (p.recovery.plan_spec fault policy (p.spent.count w.index)
    p.tolerance.maxRecoveries).1
  have hends : ∀ by_ : LineEnd, by_.suits (.line w.index point) = true := fun by_ =>
    by_.suits_of_mayGoOn (Point.isDone_of_isOpen hpoint)
  unfold handleFault rollback?
  cases p.tolerance.recoveryEnabled with
  | false => exact conducts_closeFailed (.inl hpoint)
  | true =>
    simp only [Bool.not_true, Bool.false_eq_true, if_false, if_true]
    generalize p.recovery.plan fault policy (p.spent.count w.index) p.tolerance.maxRecoveries =
      planned at hkept
    obtain ⟨plan, recovery⟩ := planned
    have hground : { p with recovery }.ground = p.ground :=
      congrArg (fun checkpoint => { p.ground with checkpoint }) hkept
    have hplanned : Pursues w (.line w.index point) p [] (.line w.index point)
        { p with recovery } := .of_eq rfl hground rfl
    dsimp only
    cases plan with
    | proceed flow => exact (conducts_finishLine hpoint).after hplanned
    | again =>
      have hagain : Pursues w (.line w.index point) { p with recovery } [] (.line w.index point)
          { p with spent := p.spent.bump w.index, recovery := recovery.recordSuccess } :=
        .of_eq rfl rfl rfl
      exact ((conducts_closeLine (hends _)).after hagain).after hplanned
    | rollback s =>
      have hback : Pursues w (.line w.index point) { p with recovery } [.restored s]
          (.line w.index point) { p with
            spent := p.spent.bump w.index
            context := p.context.restore s
            recovery := recovery.recordSuccess } := .of_deed .restores rfl rfl
      exact ((conducts_closeLine (hends _)).append hback).after hplanned
    | halt =>
      have hhalt : Pursues w (.line w.index point) { p with recovery } [] (.line w.index point)
          { p with spent := p.spent.forget w.index, recovery := recovery.recordSuccess } :=
        .of_eq rfl rfl rfl
      exact ((conducts_closeLine (hends _)).after hhalt).after hplanned
    | giveUp => exact (conducts_closeFailed (.inl hpoint)).after hplanned

/-! ### Commands -/

/-- An attempt that was announced goes on in flight. -/
lemma conducts_launch
    (hdeed : ∀ (g : Ground) (at_ : Instant) (type : String),
      Deed j.work σ g [⟨.commandExecuting j.work.index type, at_, j.work.run⟩] []
        (.line j.work.index (.flying j.attempt)) g) :
    Conducts j.work σ p [] (p.launch j) := by
  obtain ⟨q, hq⟩ : ∃ q, q = p.publish j.work.run
      (.commandExecuting j.work.index j.command.type) := ⟨_, rfl⟩
  have hlaunched : Pursues j.work σ p [] (.line j.work.index (.flying j.attempt)) q := by
    rw [hq]
    exact .of_deed (hdeed _ (Instant.ofMillis p.now) j.command.type) rfl rfl
  have hphase : ∀ (f : Flight) caller script recovered,
      LinePhase.flying j f ≠ .switching j.work caller script recovered := by
    intro f caller script recovered h
    cases h
  unfold launch
  dsimp only
  rw [← hq]
  split
  · exact .goes hlaunched rfl fun _ _ _ h => absurd h (hphase _ _ _ _)
  · have hcounted : Pursues j.work (.line j.work.index (.flying j.attempt)) q []
        (.line j.work.index (.flying j.attempt)) (q.countAttempt j) := pursues_countAttempt
    exact .goes (hlaunched.trans (hcounted.trans (pursues_foldl_applyEffect _))) rfl
      fun _ _ _ h => absurd h (hphase _ _ _ _)

/-- An attempt that has ended is told. -/
lemma recordAttempt_spec (p : Player) (j : Job) (f : Flight) (result : Except Failure Flow) :
    (p.recordAttempt j f result).ground = p.ground ∧
      (p.recordAttempt j f result).cell = p.cell ∧
      (p.recordAttempt j f result).bus = p.bus.tell [⟨.commandExecuted j.work.index
        j.command.type result.toOption.isSome, Instant.ofMillis p.now, j.work.run⟩] := by
  unfold recordAttempt
  dsimp only
  split <;> exact ⟨rfl, rfl, rfl⟩

/-- An attempt that has ended is counted. -/
lemma pursues_counted {result : Except Failure Flow} (hq : q = p.recordAttempt j f result) :
    Pursues j.work (.line j.work.index (.flying j.attempt)) p []
      (.line j.work.index (.landed j.attempt))
      { q with context := q.context.recordCommand } := by
  obtain ⟨hground, hcell, hbus⟩ := p.recordAttempt_spec j f result
  rw [← hq] at hground hcell hbus
  refine .of_deed ?_ hbus hcell
  have hcounted : { q with context := q.context.recordCommand }.ground =
      { p.ground with commands := Word.next 64 p.ground.commands } := by
    rw [← hground]
    rfl
  rw [hcounted]
  exact .lands

/-- An attempt that was cut short is not counted. -/
lemma pursues_interrupted {result : Except Failure Flow} :
    Pursues j.work (.line j.work.index (.flying j.attempt)) p [.interrupted]
      (.line j.work.index (.landed j.attempt)) (p.recordAttempt j f result) := by
  obtain ⟨hground, hcell, hbus⟩ := p.recordAttempt_spec j f result
  refine .of_deed ?_ hbus hcell
  rw [hground]
  exact .interrupts

/-- The fault of a failed attempt that is to be recovered from, if no other attempt follows, with
the policy of the command. -/
def upset? (p : Player) (j : Job) (failure : Failure) : Option (Fault × Policy) :=
  let policy := p.host.policy j.command.type
  let fault := j.fault failure policy
  if fault.retryable && j.attempt ≤ policy.maxRetries then none else some (fault, policy)

/-- The snapshot that an attempt leads back to that has failed. -/
def retreat? (p : Player) (j : Job) (failure : Failure) : Option Snapshot :=
  (p.upset? j failure).bind fun x => p.rollback? j.work.index x.1 x.2

/-- What recovery goes by is the same for two players. -/
lemma rollback?_congr {index : Nat} {fault : Fault} {policy : Policy} (hhost : q.host = p.host)
    (hrecovery : q.recovery = p.recovery) (hspent : q.spent = p.spent) :
    q.rollback? index fault policy = p.rollback? index fault policy := by
  unfold rollback? tolerance
  rw [hhost, hrecovery, hspent]

/-- Another attempt follows one that has failed, or recovery from its fault. -/
lemma attemptFailed_eq (p : Player) (j : Job) (failure : Failure) :
    p.attemptFailed j failure =
      match p.upset? j failure with
      | none =>
        let policy := p.host.policy j.command.type
        let (delay, p) := p.backoff policy j.attempt
        (p.publish j.work.run (.commandRetrying j.work.index j.command.type j.attempt delay),
          .goes (.resting j (p.timer (Span.ofMillis delay))))
      | some (fault, policy) => (p.leaveWaiting j).handleFault j.work fault policy := by
  by_cases hagain : ((j.fault failure (p.host.policy j.command.type)).retryable &&
      decide (j.attempt ≤ (p.host.policy j.command.type).maxRetries)) = true
  · have hnone : p.upset? j failure = none := if_pos hagain
    rw [hnone]
    exact if_pos hagain
  · have hsome : p.upset? j failure = some (j.fault failure (p.host.policy j.command.type),
      p.host.policy j.command.type) := if_neg hagain
    rw [hsome]
    exact if_neg hagain

/-- The end of a command changes nothing that recovery goes by. -/
lemma core_leaveWaiting : (p.leaveWaiting j).core = p.core := by
  unfold leaveWaiting
  split
  · exact congrArg Gist.core (gist_moveFrom p _)
  · rfl

/-- Whether recovery has to deal with a failure goes by the policies of the host. -/
lemma upset?_congr {failure : Failure} (hhost : q.host = p.host) :
    q.upset? j failure = p.upset? j failure := by
  unfold upset?
  rw [hhost]

lemma retreat?_congr {failure : Failure} (hhost : q.host = p.host)
    (hrecovery : q.recovery = p.recovery) (hspent : q.spent = p.spent) :
    q.retreat? j failure = p.retreat? j failure := by
  unfold retreat?
  rw [upset?_congr hhost]
  congr 1
  funext x
  exact rollback?_congr hhost hrecovery hspent

/-- The state of a playback does not matter for what its line leads back to. -/
lemma rollback?_leaveWaiting {index : Nat} {fault : Fault} {policy : Policy} :
    (p.leaveWaiting j).rollback? index fault policy = p.rollback? index fault policy := by
  have hcore := core_leaveWaiting (p := p) (j := j)
  exact rollback?_congr ((congrArg Player.host hcore).trans rfl)
    ((congrArg Player.recovery hcore).trans rfl) ((congrArg Player.spent hcore).trans rfl)

lemma conducts_attemptFailed {failure : Failure} :
    Conducts j.work (.line j.work.index (.landed j.attempt)) p
      ((p.retreat? j failure).toList.map .restored) (p.attemptFailed j failure) := by
  rw [attemptFailed_eq]
  unfold retreat?
  cases p.upset? j failure with
  | none =>
    obtain ⟨q, hq⟩ : ∃ q, q = (p.backoff (p.host.policy j.command.type) j.attempt).2 := ⟨_, rfl⟩
    have hdrawn : Pursues j.work (.line j.work.index (.landed j.attempt)) p []
        (.line j.work.index (.landed j.attempt)) q := hq ▸ pursues_backoff
    dsimp only
    rw [← hq]
    refine .goes (hdrawn.trans (.of_deed .retries rfl rfl)) rfl fun _ _ _ h => ?_
    cases h
  | some x =>
    obtain ⟨fault, policy⟩ := x
    have hhandled : Conducts j.work (.line j.work.index (.landed j.attempt)) (p.leaveWaiting j)
        (((p.leaveWaiting j).rollback? j.work.index fault policy).toList.map .restored)
        ((p.leaveWaiting j).handleFault j.work fault policy) := conducts_handleFault rfl
    rw [rollback?_leaveWaiting] at hhandled
    exact hhandled.after pursues_leaveWaiting

/-- The snapshot that an attempt leads back to with its verdict. -/
def landingRetreat? (p : Player) (j : Job) (verdict : Except Failure CommandResult) :
    Option Snapshot :=
  match j.command.conclude verdict with
  | .ok _ => none
  | .error failure => if p.isCancelled j.work.token then none else p.retreat? j failure

lemma conducts_land {verdict : Except Failure CommandResult}
    (hverdict : p.isCancelled j.work.token = true → verdict = .error .cancelled) :
    Conducts j.work (.line j.work.index (.flying j.attempt)) p
      (if p.isCancelled j.work.token then [.interrupted]
        else (p.landingRetreat? j verdict).toList.map .restored) (p.land j f verdict) := by
  obtain ⟨q, hq⟩ : ∃ q, q = p.recordAttempt j f (j.command.conclude verdict) := ⟨_, rfl⟩
  have hgist : q.gist = p.gist := by rw [hq, gist_recordAttempt]
  have hcore : q.core = p.core := congrArg Gist.core hgist
  have hcancelled : q.isCancelled j.work.token = p.isCancelled j.work.token := by
    have hlist : q.cancelled = p.cancelled := (congrArg Player.cancelled hcore).trans rfl
    have hcaller : q.callerCancelled = p.callerCancelled :=
      (congrArg Player.callerCancelled hcore).trans rfl
    simp only [isCancelled, hlist, hcaller]
  have hcounted := pursues_counted hq
  unfold land landingRetreat?
  dsimp only
  rw [← hq]
  cases hresult : j.command.conclude verdict with
  | ok flow =>
    have hgoes : p.isCancelled j.work.token = false := by
      by_contra hnot
      rw [hverdict (by simpa using hnot)] at hresult
      cases hresult
    rw [hgoes]
    exact ((conducts_finishLine rfl).after pursues_leaveWaiting).after hcounted
  | error failure =>
    dsimp only
    rw [hcancelled]
    split
    · have hcut : Pursues j.work (.line j.work.index (.flying j.attempt)) p [.interrupted]
          (.line j.work.index (.landed j.attempt)) q := hq ▸ pursues_interrupted
      exact .ends (hcut.append pursues_leaveWaiting) rfl
    · have hsame : { q with context := q.context.recordCommand }.retreat? j failure =
          p.retreat? j failure :=
        retreat?_congr ((congrArg Player.host hcore).trans rfl)
          ((congrArg Player.recovery hcore).trans rfl) ((congrArg Player.spent hcore).trans rfl)
      rw [← hsame]
      exact conducts_attemptFailed.after hcounted

/-! ### The beginning of a line -/

/-- The fault of a line whose command is not known, with the policy for such lines. -/
def strange (p : Player) (w : Work) : Fault × Policy :=
  ({ (Fault.configuration ("no command registered for '" ++ w.source ++ "'")).located
        w.index w.script with
      suggestion := "register the command keyword with the script parser" },
    p.host.policy "unresolved")

/-- The snapshot that a line leads back to whose command is not known. -/
def openingRetreat? (p : Player) (w : Work) : Option Command → Option Snapshot
  | none => p.rollback? w.index (p.strange w).1 (p.strange w).2
  | some _ => none

lemma conducts_beginCommand (p : Player) (w : Work) (command : Option Command) :
    Conducts w (.line w.index .begun) p ((p.openingRetreat? w command).toList.map .restored)
      (p.beginCommand w command) := by
  cases command with
  | none => exact conducts_handleFault rfl
  | some command =>
    obtain ⟨q, hq⟩ : ∃ q, q = (p.moveFrom w.run .playing .waiting).2 := ⟨_, rfl⟩
    have hentered : Pursues w (.line w.index .begun) p [] (.line w.index .begun) q := by
      rw [hq]
      exact .of_tellsPlain (tellsPlain_moveFrom fun _ => rfl) (.inl rfl)
    have hlaunch : ∀ entered, Conducts w (.line w.index .begun) q []
        (q.launch { work := w, command, entered, attempt := 1 }) := fun entered =>
      conducts_launch (j := { work := w, command, entered, attempt := 1 }) fun _ _ _ => .launches
    rw [hq] at hlaunch hentered
    exact (hlaunch _).after hentered

lemma conducts_beginText (p : Player) (w : Work) (text : String) :
    Conducts w (.line w.index .begun) p [] (p.beginText w text) := by
  unfold beginText
  split
  · split
    · exact .ends (.refl p) rfl
    · refine .goes (.of_eq rfl rfl rfl) rfl fun _ _ _ h => ?_
      cases h
  · exact conducts_finishLine rfl

/-- Settling the cursor moves it and takes return addresses. -/
lemma ground_settleCursor : { p with context := p.context.settleCursor }.ground = p.ground := by
  have hsettled : ∀ (depth : Nat) (c : Context), ∃ cursor frames,
      Context.implicitReturn depth c = { c with cursor, frames } := by
    intro depth
    induction depth with
    | zero => exact fun c => ⟨c.cursor, c.frames, rfl⟩
    | succ depth ih =>
      intro c
      unfold Context.implicitReturn
      split
      · exact ⟨c.cursor, c.frames, rfl⟩
      · split
        · next frame d hpop =>
          obtain ⟨g, -, heq⟩ := Option.map_eq_some_iff.mp hpop
          obtain ⟨-, rfl⟩ := Prod.mk.inj heq
          obtain ⟨cursor, frames, hrest⟩ := ih ({ c with frames := c.frames.dropLast }.moveTo
            frame.returnLine)
          exact ⟨cursor, frames, hrest⟩
        · exact ⟨c.cursor, c.frames, rfl⟩
  obtain ⟨cursor, frames, hsettle⟩ := hsettled _ p.context
  unfold Context.settleCursor
  rw [hsettle]
  rfl

/-- Looking for a breakpoint changes what is remembered of breakpoints only. -/
lemma ground_takeBreakpoint :
    { p with context := p.context.takeBreakpoint.2 }.ground = p.ground := by
  unfold Context.takeBreakpoint
  split
  · rfl
  · split <;> rfl

/-- The work of the line that is begun under a cursor. -/
def nextWork (p : Player) (token : Token) (line : Line) : Work :=
  { index := p.context.cursor, source := line.source, script := p.context.scriptName
    run := p.run, token }

/-- Starts a line that was told to be executed. -/
def tackle (p : Player) (w : Work) : Line → Player × LineProgress
  | .command _ command => p.beginCommand w command
  | .text text => p.beginText w text

/-- The line that is begun is the one under the settled cursor, and it is told to be executed
first. -/
lemma beginLine_eq {r : Player} {token : Token} {line : Line}
    (hq : q = { p with context := p.context.settleCursor }) (hw : w = q.nextWork token line)
    (hr : r = q.publish w.run (.lineExecuting w.index w.source))
    (hline : p.context.settleCursor.currentLine = some line) :
    p.beginLine token = r.tackle w line := by
  rw [hr, hw, hq]
  simp only [beginLine, hline]
  cases line with
  | command | text => rfl

/-- The snapshot that a line leads back to as soon as it is begun. -/
def retreatAtOnce? (p : Player) (token : Token) : Option Snapshot :=
  let p := { p with context := p.context.settleCursor }
  match p.context.currentLine with
  | some (.command source command) =>
    p.openingRetreat? (p.nextWork token (.command source command)) command
  | _ => none

/-- A command line leads back to the same snapshot when it was told to be executed. -/
lemma retreatAtOnce?_of_command {r : Player} {token : Token} {source : String}
    {command : Option Command} (hq : q = { p with context := p.context.settleCursor })
    (hw : w = q.nextWork token (.command source command))
    (hr : r = q.publish w.run (.lineExecuting w.index w.source))
    (hline : p.context.settleCursor.currentLine = some (.command source command)) :
    p.retreatAtOnce? token = r.openingRetreat? w command := by
  have hretreat : p.retreatAtOnce? token = q.openingRetreat? w command := by
    rw [hw]
    simp only [retreatAtOnce?, ← hq, hline]
  have hsame : r.openingRetreat? w command = q.openingRetreat? w command := by
    rw [hr]
    cases command with
    | none => exact rollback?_congr rfl rfl rfl
    | some command => rfl
  exact hretreat.trans hsame.symm

/-- A line that is begun follows a course, if another one may follow. -/
lemma conducts_beginLine (p : Player) (token : Token) (hσ : σ.mayGoOn = true) :
    ∃ w : Work, w.run = p.run ∧ w.token = token ∧
      Conducts w σ p ((p.retreatAtOnce? token).toList.map .restored) (p.beginLine token) := by
  obtain ⟨q, hq⟩ : ∃ q, q = { p with context := p.context.settleCursor } := ⟨_, rfl⟩
  have hsettled : ∀ {w : Work} {σ : Stage}, Pursues w σ p [] σ q := fun {w σ} =>
    hq ▸ .of_eq rfl ground_settleCursor rfl
  cases hline : p.context.settleCursor.currentLine with
  | none =>
    have hby : (LineEnd.finished .completed).suits σ = true := Stage.mayEnd_of_mayGoOn hσ
    have hbegin : p.beginLine token = (q, .ends (.finished .completed)) := by
      simp only [beginLine, ← hq, hline]
    have hretreat : p.retreatAtOnce? token = none := by
      simp only [retreatAtOnce?, hline]
    rw [hbegin, hretreat]
    exact ⟨p.nextWork token (.text ""), rfl, rfl, .ends hsettled hby⟩
  | some line =>
    obtain ⟨w, hw⟩ : ∃ w, w = q.nextWork token line := ⟨_, rfl⟩
    obtain ⟨r, hr⟩ : ∃ r, r = q.publish w.run (.lineExecuting w.index w.source) := ⟨_, rfl⟩
    have hbegun : Pursues w σ p [] (.line w.index .begun) r := by
      refine hsettled.trans ?_
      rw [hr]
      exact .of_deed (.begins hσ (hw ▸ rfl)) rfl rfl
    have hrun : w.run = p.run := by rw [hw, hq]; rfl
    refine ⟨w, hrun, hw ▸ rfl, ?_⟩
    rw [beginLine_eq hq hw hr hline]
    cases line with
    | command source command =>
      rw [retreatAtOnce?_of_command hq hw hr hline]
      exact (r.conducts_beginCommand w command).after hbegun
    | text text =>
      have hretreat : p.retreatAtOnce? token = none := by
        simp only [retreatAtOnce?, hline]
      rw [hretreat]
      exact (r.conducts_beginText w text).after hbegun

/-! ### The phases of a line -/

/-- The fault of a presentation that has failed, with the policy for texts. -/
def unshown (p : Player) (w : Work) (failure : Failure) : Fault × Policy :=
  ((failure.classify "text" (p.host.policy "text")).located w.index w.script, p.host.policy "text")

/-- The snapshot that a line leads back to in the next step from a phase. -/
def lineRetreat? (p : Player) : LinePhase → Option Snapshot
  | .flying j f =>
    match p.landing j f with
    | some verdict => p.landingRetreat? j verdict
    | none => none
  | .presenting w until_ (.error failure) =>
    if p.isCancelled w.token = false ∧ until_ ≤ p.now then
      p.rollback? w.index (p.unshown w failure).1 (p.unshown w failure).2
    else none
  | _ => none

/-- An attempt of the playback is cut short in the next step. -/
def interrupts (p : Player) : LinePhase → Bool
  | .flying j _ => p.isCancelled j.work.token
  | _ => false

/-- What has to be remarked of the next step from a phase. -/
def remarks (p : Player) : LinePhase → List Remark
  | .switching w caller script _ => if (p.fetch w script).isOk then [.called caller] else []
  | line => if p.interrupts line then [.interrupted] else (p.lineRetreat? line).toList.map .restored

/-- A failed presentation is recovered from, unless the playback was cancelled. -/
lemma conducts_presented {failure : Failure} :
    Conducts w (.line w.index .begun) p
      (if p.isCancelled w.token = false then
        (p.rollback? w.index (p.unshown w failure).1 (p.unshown w failure).2).toList.map .restored
      else [])
      (p.presented w (.error failure)) := by
  unfold presented
  cases p.isCancelled w.token with
  | true => exact .ends (.refl p) rfl
  | false => exact conducts_handleFault rfl

/-- A line follows a course from phase to phase. -/
lemma conducts_stepLine (p : Player) (line : LinePhase) (hready : (p.stepLine line).2 ≠ .blocked) :
    Conducts line.work line.stage p (p.remarks line) (p.stepLine line) := by
  cases line with
  | flying j f =>
    simp only [stepLine] at hready ⊢
    cases hlanding : p.landing j f with
    | none =>
      rw [hlanding] at hready
      exact absurd rfl hready
    | some verdict =>
      have hremarks : p.remarks (.flying j f) =
          if p.isCancelled j.work.token then [.interrupted]
          else (p.landingRetreat? j verdict).toList.map .restored := by
        simp only [remarks, interrupts, lineRetreat?, hlanding]
      rw [hremarks]
      refine conducts_land fun hcancelled => ?_
      unfold landing at hlanding
      rw [if_pos hcancelled] at hlanding
      exact (Option.some.inj hlanding).symm
  | resting j until_ =>
    simp only [stepLine] at hready ⊢
    split
    · exact .ends pursues_leaveWaiting rfl
    · next hgoes =>
      rw [if_neg hgoes] at hready
      split
      · exact conducts_launch (j := { j with attempt := Word.next 32 j.attempt }) fun _ _ _ =>
          .launchesAgain
      · next hwaits =>
        rw [if_neg hwaits] at hready
        exact absurd rfl hready
  | presenting w until_ verdict =>
    have hends : ∀ remarks : List Remark, remarks = [] →
        Conducts w (.line w.index .begun) p remarks (p, .ends (.finished .cancelled)) :=
      fun remarks hnone => hnone ▸ .ends (.refl p) rfl
    simp only [stepLine] at hready ⊢
    split
    · next hcancelled =>
      have hnot : p.isCancelled w.token = true := (Bool.and_eq_true_iff.mp hcancelled).1
      refine hends _ ?_
      cases verdict with
      | ok => rfl
      | error failure => simp [remarks, interrupts, lineRetreat?, hnot]
    · next hgoes =>
      rw [if_neg hgoes] at hready
      split
      · next hover =>
        cases verdict with
        | ok shown =>
          cases shown
          have hshown : Conducts w (.line w.index .begun) p [] (p.finishLine w .next false) :=
            conducts_finishLine rfl
          exact hshown
        | error failure =>
          have hremarks : p.remarks (.presenting w until_ (.error failure)) =
              if p.isCancelled w.token = false then
                (p.rollback? w.index (p.unshown w failure).1
                  (p.unshown w failure).2).toList.map .restored
              else [] := by
            simp only [remarks, interrupts, lineRetreat?, Bool.false_eq_true, if_false]
            split <;> simp_all
          rw [hremarks]
          exact conducts_presented
      · next hwaits =>
        rw [if_neg hwaits] at hready
        exact absurd rfl hready
  | switching w caller script recovered => exact conducts_switchScript

end Player

end Recital

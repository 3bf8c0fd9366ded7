import Recital.Proofs.Player.Between
import Recital.Proofs.Twin.Basic

/-!
# What a line keeps

Whatever is done for a line, from its first phase to its end, some things can be relied on.  The
line stays the same work, with the run and the token that it was begun for.  No breakpoint is hit,
the player still has a script, and identifiers are only ever used up (`Player.Furthers`).  A line
that completes the playback leaves nothing to be executed: there is no return address, and the
cursor is past the last line (`Player.Serves`).  The line of a playback that was cancelled completes
nothing, since every phase that ends a playback looks at the token first.
-/

namespace Recital

/-- An event that tells where the loop of a playback has come to: at a line, or at a breakpoint. -/
def Event.Payload.isSignpost : Event.Payload → Bool
  | lineExecuting .. | breakpointHit _ => true
  | _ => false

/-- The work that a phase belongs to. -/
def LinePhase.work : LinePhase → Work
  | .flying j _ => j.work
  | .resting j _ => j.work
  | .presenting w _ _ => w
  | .switching w _ _ _ => w

/-- Nothing is left to be executed: the cursor is past the last line, with nothing to return to. -/
structure Context.IsSpent (c : Context) : Prop where
  frames : c.frames = []
  cursor : c.lineCount ≤ c.cursor

namespace Context

variable {c d : Context} {flow : Flow} {r : Resolution}

lemma IsSpent.of_eq (h : c.IsSpent) (hscript : d.script = c.script) (hcursor : d.cursor = c.cursor)
    (hframes : d.frames = c.frames) : d.IsSpent := by
  refine ⟨hframes.trans h.frames, ?_⟩
  have hcount : d.lineCount = c.lineCount := by unfold lineCount; rw [hscript]
  rw [hcount, hcursor]
  exact h.cursor

/-- Past the end of the script, all return addresses are taken if none of them lies on a line. -/
lemma isSpent_implicitReturn (depth : Nat) (c : Context) (hdepth : c.frames.length ≤ depth)
    (hend : (implicitReturn depth c).canContinue = false) : (implicitReturn depth c).IsSpent := by
  induction depth generalizing c with
  | zero =>
    have hframes : c.frames = [] := List.length_eq_zero_iff.mp (Nat.le_zero.mp hdepth)
    exact ⟨hframes, Nat.le_of_not_lt (of_decide_eq_false hend)⟩
  | succ depth ih =>
    unfold implicitReturn at hend ⊢
    split
    · next hgo =>
      rw [if_pos hgo, hgo] at hend
      cases hend
    · next hstop =>
      rw [if_neg hstop] at hend
      unfold popFrame at hend ⊢
      cases hlast : c.frames.getLast? with
      | none =>
        have hframes : c.frames = [] := List.getLast?_eq_none_iff.mp hlast
        exact ⟨hframes, Nat.le_of_not_lt (of_decide_eq_false (Bool.eq_false_iff.mpr hstop))⟩
      | some frame =>
        rw [hlast] at hend
        refine ih _ ?_ hend
        have hlen : (c.frames.dropLast).length = c.frames.length - 1 := List.length_dropLast
        show c.frames.dropLast.length ≤ depth
        omega

/-- If no line is left to return to, the context is spent. -/
lemma isSpent_settleCursor (h : c.settleCursor.currentLine = none) : c.settleCursor.IsSpent := by
  refine isSpent_implicitReturn _ c (Nat.le_refl _) ?_
  by_contra hgo
  have hlt : c.settleCursor.cursor < c.settleCursor.lineCount :=
    of_decide_eq_true (Bool.not_eq_false _ ▸ hgo)
  unfold currentLine at h
  unfold lineCount at hlt
  cases hscript : c.settleCursor.script with
  | none =>
    rw [hscript] at hlt
    exact Nat.not_lt_zero _ hlt
  | some script =>
    rw [hscript] at h hlt
    have hsome : script.lines[c.settleCursor.cursor]? = some script.lines[c.settleCursor.cursor] :=
      List.getElem?_eq_getElem hlt
    exact absurd (hsome.symm.trans h) (Option.some_ne_none _)

/-- A flow action that completes the playback leaves nothing to be executed. -/
lemma isSpent_of_resolve (h : c.resolve flow = .ok (.completed, d)) : d.IsSpent := by
  cases flow with
  | next | stop | call => cases h
  | toLine index =>
    simp only [resolve] at h
    split at h <;> cases h
  | toLabel label =>
    simp only [resolve] at h
    split at h <;> cases h
  | back =>
    simp only [resolve, popFrame] at h
    cases hlast : c.frames.getLast? with
    | none =>
      rw [hlast] at h
      cases h
      exact ⟨List.getLast?_eq_none_iff.mp hlast, Nat.le_refl _⟩
    | some frame =>
      rw [hlast] at h
      cases h

/-- A line that is executed takes the mark of a breakpoint away, if there is one. -/
lemma released_lineFinished {index : Nat} (h : c.released = none) :
    (c.lineFinished index).released = none := by
  unfold lineFinished unrelease
  split
  · rfl
  · exact h

lemma released_settleCursor (c : Context) : c.settleCursor.released = c.released := by
  have hreleased : ∀ (depth : Nat) (c : Context),
      (implicitReturn depth c).released = c.released := by
    intro depth
    induction depth with
    | zero => exact fun _ => rfl
    | succ depth ih =>
      intro c
      unfold implicitReturn
      split
      · rfl
      · unfold popFrame
        cases c.frames.getLast? with
        | none => rfl
        | some frame => exact ih _
  exact hreleased _ c

lemma released_of_resolve (h : c.resolve flow = .ok (r, d)) : d.released = c.released := by
  cases flow with
  | next | stop | call =>
    cases h
    rfl
  | toLine index =>
    simp only [resolve] at h
    split at h
    · cases h
      rfl
    · cases h
  | toLabel label =>
    simp only [resolve] at h
    split at h
    · cases h
      rfl
    · cases h
  | back =>
    simp only [resolve, popFrame] at h
    cases hlast : c.frames.getLast? <;> rw [hlast] at h <;> cases h <;> rfl

end Context

/-- A bus has shown what another one has, and after that nothing about lines or breakpoints that
were reached. -/
structure Bus.Extends (b c : Bus) : Prop where
  closed : c.closed = b.closed
  log : ∃ news : List Event, c.log.toList = b.log.toList ++ news ∧
    ∀ e ∈ news, e.payload.isSignpost = false

namespace Bus.Extends

variable {b c d : Bus}

lemma refl (b : Bus) : b.Extends b := ⟨rfl, [], by simp, by simp⟩

lemma trans (hbc : b.Extends c) (hcd : c.Extends d) : b.Extends d := by
  obtain ⟨news, hnews, hplain⟩ := hbc.log
  obtain ⟨news', hnews', hplain'⟩ := hcd.log
  refine ⟨hcd.closed.trans hbc.closed, news ++ news', ?_, fun e he => ?_⟩
  · rw [hnews', hnews, List.append_assoc]
  · rcases List.mem_append.mp he with he | he
    · exact hplain e he
    · exact hplain' e he

lemma publish {e : Event} (h : e.payload.isSignpost = false) : b.Extends (b.publish e) := by
  unfold Bus.publish
  split
  · exact refl b
  · exact ⟨rfl, [e], by simp, by simpa using h⟩

end Bus.Extends

namespace Player

variable {p q r : Player} {w : Work} {j : Job} {f : Flight} {run : Run} {x : Player × LineProgress}

/-! ### Events of lines and changes of state -/

lemma extends_moveFrom {a b : State} : p.bus.Extends (p.moveFrom run a b).2.bus := by
  rw [moveFrom_eq_ite]
  split
  · exact .publish rfl
  · exact .refl _

lemma extends_moveIfAllowed {b : State} : p.bus.Extends (p.moveIfAllowed run b).bus := by
  rw [moveIfAllowed_eq_ite]
  split
  · exact .publish rfl
  · exact .refl _

lemma extends_resetState : p.bus.Extends (p.resetState run).bus := by
  rw [resetState_eq_ite]
  split
  · exact .refl _
  · exact .publish rfl

/-! ### Going further -/

/-- The player has gone further in its script or in another one, without a breakpoint. -/
structure Furthers (p q : Player) : Prop where
  bus : p.bus.Extends q.bus
  released : p.context.released = none → q.context.released = none
  loaded : p.context.script.isSome = true → q.context.script.isSome = true
  /-- Identifiers are not given twice. -/
  serial : p.serial ≤ q.serial

lemma Furthers.refl (p : Player) : Furthers p p := ⟨.refl _, id, id, Nat.le_refl _⟩

lemma Furthers.trans (hpq : Furthers p q) (hqr : Furthers q r) : Furthers p r :=
  ⟨hpq.bus.trans hqr.bus, fun h => hqr.released (hpq.released h),
    fun h => hqr.loaded (hpq.loaded h), Nat.le_trans hpq.serial hqr.serial⟩

/-- What publishes nothing and leaves the script and the identifiers alone. -/
lemma Furthers.of_eq (hbus : q.bus = p.bus) (hserial : q.serial = p.serial)
    (hreleased : p.context.released = none → q.context.released = none)
    (hscript : q.context.script = p.context.script) : Furthers p q :=
  ⟨hbus ▸ .refl _, hreleased, fun h => hscript ▸ h, Nat.le_of_eq hserial.symm⟩

lemma furthers_publish {e : Event.Payload} (h : e.isSignpost = false) :
    Furthers p (p.publish run e) :=
  ⟨.publish h, id, id, Nat.le_refl _⟩

lemma furthers_publishProgress : Furthers p p.publishProgress := furthers_publish rfl

lemma furthers_moveFrom {a b : State} : Furthers p (p.moveFrom run a b).2 := by
  have hgist := gist_moveFrom p run (a := a) (b := b)
  have hcontext : (p.moveFrom run a b).2.context = p.context :=
    congrArg (fun g : Gist => g.core.context) hgist
  have hserial : (p.moveFrom run a b).2.serial = p.serial :=
    congrArg (fun g : Gist => g.core.serial) hgist
  refine ⟨extends_moveFrom, fun h => ?_, fun h => ?_, Nat.le_of_eq hserial.symm⟩
  · rw [hcontext]
    exact h
  · rw [hcontext]
    exact h

lemma furthers_setVariable {name : String} {value : Json} :
    Furthers p (p.setVariable run name value) :=
  Furthers.trans (q := { p with context := p.context.assign name value }) (.of_eq rfl rfl id rfl)
    (furthers_publish rfl)

lemma furthers_clearVariables : Furthers p (p.clearVariables run) := by
  have hnames : ∀ (names : List String) (q : Player),
      Furthers q (names.foldl (fun q name => q.publish run (.variableChanged name none)) q) := by
    intro names
    induction names with
    | nil => exact Furthers.refl
    | cons name names ih => exact fun q => (furthers_publish rfl).trans (ih _)
  exact Furthers.trans (q := { p with context := p.context.clearVariables }) (.of_eq rfl rfl id rfl)
    (hnames _ _)

lemma furthers_applyEffect (e : Effect) : Furthers p (p.applyEffect w e) := by
  cases e with
  | assign | observe => exact furthers_setVariable
  | clear => exact furthers_clearVariables
  | push | note => exact .of_eq rfl rfl id rfl

lemma furthers_foldl_applyEffect (effects : List Effect) :
    Furthers p (effects.foldl (fun p e => p.applyEffect w e) p) := by
  induction effects generalizing p with
  | nil => exact .refl p
  | cons e effects ih => exact (furthers_applyEffect e).trans ih

lemma furthers_countAttempt : Furthers p (p.countAttempt j) := by
  unfold countAttempt
  split
  · exact .of_eq rfl rfl id rfl
  · exact .refl p

lemma furthers_recordAttempt {result : Except Failure Flow} :
    Furthers p (p.recordAttempt j f result) := by
  obtain ⟨q, hq⟩ : ∃ q : Player, q = { p with
      ledger := p.ledger.record j.command.type (Span.ofMillis (p.stopwatch - f.since)) result } :=
    ⟨_, rfl⟩
  have hpublish : Furthers q (q.publish j.work.run
      (.commandExecuted j.work.index j.command.type result.toOption.isSome)) := furthers_publish rfl
  rw [hq] at hpublish
  unfold recordAttempt
  dsimp only
  split
  · exact ⟨hpublish.bus, hpublish.released, hpublish.loaded, hpublish.serial⟩
  · exact ⟨hpublish.bus, hpublish.released, hpublish.loaded, hpublish.serial⟩

lemma furthers_backoff {policy : Policy} {attempt : Nat} :
    Furthers p (p.backoff policy attempt).2 := by
  unfold backoff
  split
  · exact .of_eq rfl rfl id rfl
  · exact .refl p

lemma furthers_leaveWaiting : Furthers p (p.leaveWaiting j) := by
  unfold leaveWaiting
  split
  · exact furthers_moveFrom
  · exact .refl p

lemma furthers_applyPause : Furthers p (p.applyPause run) := by
  unfold applyPause
  split
  · exact Furthers.trans (q := { p with pauseRequested := false }) (.of_eq rfl rfl id rfl)
      furthers_moveFrom
  · exact .refl p

lemma furthers_setCheckpoint : Furthers p p.setCheckpoint := by
  unfold setCheckpoint
  split
  · exact .of_eq rfl rfl id rfl
  · exact .refl p

/-- The player continues in another script. -/
lemma furthers_enter {caller : Run} {name : String} {script : Script} {labels : Table Nat} :
    Furthers p (p.enter caller name script labels) := by
  have hmoved : Furthers p { p with context := p.context.switchTo script labels, attempts := {} } :=
    ⟨.refl _, fun _ => rfl, fun _ => rfl, Nat.le_refl _⟩
  obtain ⟨q, hq⟩ : ∃ q, q =
      { p with context := p.context.switchTo script labels, attempts := {} }.setCheckpoint :=
    ⟨_, rfl⟩
  have hset : Furthers p q := hq ▸ hmoved.trans furthers_setCheckpoint
  unfold enter
  dsimp only
  rw [← hq]
  refine Furthers.trans (q := { q with
    spent := {}, run := caller.child q.serial, serial := q.serial + 1 }) ?_ (furthers_publish rfl)
  exact ⟨hset.bus, hset.released, hset.loaded, Nat.le_succ_of_le hset.serial⟩

/-! ### What is done for a line -/

/-- Something that is done for a line. -/
structure Serves (w : Work) (p : Player) (x : Player × LineProgress) : Prop where
  furthers : Furthers p x.1
  /-- The line stays what it is. -/
  work : ∀ phase, x.2 = .goes phase → phase.work = w
  /-- A line that completes the playback leaves nothing to be executed. -/
  spent : x.2 = .ends (.finished .completed) → x.1.context.IsSpent

/-- What is done further on is done from here. -/
lemma Serves.after (h : Serves w q x) (hpq : Furthers p q) : Serves w p x :=
  ⟨hpq.trans h.furthers, h.work, h.spent⟩

/-- A line goes on. -/
lemma serves_goes {phase : LinePhase} (hpq : Furthers p q) (hwork : phase.work = w) :
    Serves w p (q, .goes phase) where
  furthers := hpq
  work n hn := by
    cases hn
    exact hwork
  spent h := LineProgress.noConfusion h

/-- A line ends without completing the playback. -/
lemma serves_ends {by_ : LineEnd} (hpq : Furthers p q) (hby : by_ ≠ .finished .completed) :
    Serves w p (q, .ends by_) where
  furthers := hpq
  work _ h := LineProgress.noConfusion h
  spent h := absurd (LineProgress.ends.inj h) hby

lemma context_closeLine {by_ : LineEnd} : (p.closeLine w by_).1.context = p.context := by
  unfold closeLine applyPause
  split
  · exact congrArg (fun g : Gist => g.core.context) (gist_moveFrom _ _)
  · rfl

lemma serves_closeLine {by_ : LineEnd} (h : by_ = .finished .completed → p.context.IsSpent) :
    Serves w p (p.closeLine w by_) where
  furthers := furthers_publishProgress.trans furthers_applyPause
  work _ h := LineProgress.noConfusion h
  spent hend := by
    rw [context_closeLine]
    exact h (LineProgress.ends.inj hend)

lemma serves_closeFailed {fault : Fault} : Serves w p (p.closeFailed w fault) := by
  obtain ⟨q, hq⟩ : ∃ q, q = { p with spent := p.spent.forget w.index } := ⟨_, rfl⟩
  have hforgot : Furthers p q := hq ▸ .of_eq rfl rfl id rfl
  have hpublish : Furthers q (q.publish w.run (.lineFailed w.index fault)) := furthers_publish rfl
  unfold closeFailed passOver
  dsimp only
  rw [← hq]
  split
  · refine (serves_closeLine LineEnd.noConfusion).after ((hforgot.trans hpublish).trans ?_)
    exact .of_eq rfl rfl Context.released_lineFinished
      (congrArg Prod.fst (Context.scene_lineFinished w.index))
  · exact (serves_closeLine fun h => Finish.noConfusion (LineEnd.finished.inj h)).after hforgot

lemma serves_closeDone {recovered : Bool} {by_ : LineEnd}
    (h : by_ = .finished .completed → p.context.IsSpent) :
    Serves w p (p.closeDone w recovered by_) := by
  unfold closeDone
  dsimp only
  split
  · exact Serves.after (q := { p with recovery := p.recovery.recordSuccess }) (serves_closeLine h)
      (.of_eq rfl rfl id rfl)
  · exact serves_closeLine h

lemma serves_applyFlow {flow : Flow} {recovered : Bool} :
    Serves w p (p.applyFlow w flow recovered) := by
  unfold applyFlow
  split
  · exact serves_closeFailed
  · next resolution context hresolve =>
    have hreleased := Context.released_of_resolve hresolve
    have hscript : context.script = p.context.script :=
      congrArg Prod.fst (Context.scene_of_resolve hresolve)
    have hmoved : Furthers p { p with context } :=
      .of_eq rfl rfl (fun h => hreleased.trans h) hscript
    have hadvanced : Furthers p { p with context := context.advance } :=
      .of_eq rfl rfl (fun h => hreleased.trans h) hscript
    have hnot : ∀ reason, LineEnd.finished (.stopped reason) ≠ .finished .completed :=
      fun _ h => Finish.noConfusion (LineEnd.finished.inj h)
    dsimp only
    split
    · exact (serves_closeDone LineEnd.noConfusion).after hadvanced
    · exact (serves_closeDone LineEnd.noConfusion).after hmoved
    · exact (serves_closeDone LineEnd.noConfusion).after hmoved
    · exact (serves_closeDone fun h => absurd h (hnot _)).after hmoved
    · exact (serves_closeDone fun _ => Context.isSpent_of_resolve hresolve).after hmoved
    · split
      · exact serves_closeFailed.after hmoved
      · exact serves_goes hmoved rfl

lemma serves_finishLine {flow : Flow} {recovered : Bool} :
    Serves w p (p.finishLine w flow recovered) := by
  refine serves_applyFlow.after (Furthers.trans (q := { p with
    context := p.context.recordLine.lineFinished w.index
    spent := p.spent.forget w.index }) ?_ (furthers_publish rfl))
  exact .of_eq rfl rfl (fun h => Context.released_lineFinished (c := p.context.recordLine) h)
    (congrArg Prod.fst (Context.scene_lineFinished w.index))

lemma serves_switchScript {caller : Run} {script : String} {recovered : Bool} :
    Serves w p (p.switchScript w caller script recovered) := by
  unfold switchScript
  split
  · exact serves_closeFailed
  · exact (serves_closeDone LineEnd.noConfusion).after furthers_enter

lemma serves_handleFault {fault : Fault} {policy : Policy} :
    Serves w p (p.handleFault w fault policy) := by
  unfold handleFault
  split
  · exact serves_closeFailed
  · dsimp only
    split
    · exact serves_finishLine.after (.of_eq rfl rfl id rfl)
    · exact (serves_closeLine LineEnd.noConfusion).after (.of_eq rfl rfl id rfl)
    · exact (serves_closeLine LineEnd.noConfusion).after (.of_eq rfl rfl (fun _ => rfl) rfl)
    · exact (serves_closeLine fun h => Finish.noConfusion (LineEnd.finished.inj h)).after
        (.of_eq rfl rfl id rfl)
    · exact serves_closeFailed.after (.of_eq rfl rfl id rfl)

lemma serves_launch : Serves j.work p (p.launch j) := by
  have hpublish : Furthers p
      (p.publish j.work.run (.commandExecuting j.work.index j.command.type)) := furthers_publish rfl
  unfold launch
  dsimp only
  split
  · exact serves_goes hpublish rfl
  · exact serves_goes ((hpublish.trans furthers_countAttempt).trans
      (furthers_foldl_applyEffect _)) rfl

lemma serves_attemptFailed {failure : Failure} : Serves j.work p (p.attemptFailed j failure) := by
  unfold attemptFailed
  dsimp only
  split
  · exact serves_goes (furthers_backoff.trans (furthers_publish rfl)) rfl
  · exact serves_handleFault.after furthers_leaveWaiting

lemma serves_land {verdict : Except Failure CommandResult} :
    Serves j.work p (p.land j f verdict) := by
  obtain ⟨result, hresult⟩ : ∃ r, r = j.command.conclude verdict := ⟨_, rfl⟩
  obtain ⟨q, hq⟩ : ∃ q, q = p.recordAttempt j f result := ⟨_, rfl⟩
  have hrecorded : Furthers p q := hq ▸ furthers_recordAttempt
  have hcounted : Furthers q { q with context := q.context.recordCommand } :=
    .of_eq rfl rfl id rfl
  unfold land
  dsimp only
  rw [← hresult, ← hq]
  split
  · exact serves_finishLine.after ((hrecorded.trans hcounted).trans furthers_leaveWaiting)
  · split
    · exact serves_ends (hrecorded.trans furthers_leaveWaiting)
        fun h => Finish.noConfusion (LineEnd.finished.inj h)
    · exact serves_attemptFailed.after (hrecorded.trans hcounted)

lemma serves_beginCommand {command : Option Command} :
    Serves w p (p.beginCommand w command) := by
  cases command with
  | none => exact serves_handleFault
  | some command =>
    obtain ⟨j, hj⟩ : ∃ j : Job, j =
        { work := w, command, entered := (p.moveFrom w.run .playing .waiting).1, attempt := 1 } :=
      ⟨_, rfl⟩
    have hwork : j.work = w := by rw [hj]
    have hlaunch : p.beginCommand w (some command) =
        (p.moveFrom w.run .playing .waiting).2.launch j := by rw [hj]; rfl
    rw [hlaunch, ← hwork]
    exact serves_launch.after furthers_moveFrom

lemma serves_beginText {text : String} : Serves w p (p.beginText w text) := by
  unfold beginText
  split
  · split
    · exact serves_ends (.refl p) fun h => Finish.noConfusion (LineEnd.finished.inj h)
    · exact serves_goes (.of_eq rfl rfl id rfl) rfl
  · exact serves_finishLine

lemma serves_presented {verdict : Except Failure Unit} : Serves w p (p.presented w verdict) := by
  unfold presented
  split
  · exact serves_finishLine
  · split
    · exact serves_ends (.refl p) fun h => Finish.noConfusion (LineEnd.finished.inj h)
    · exact serves_handleFault

/-- A line that goes on is served. -/
lemma serves_stepLine (p : Player) (line : LinePhase) : Serves line.work p (p.stepLine line) := by
  have hblocked : Serves line.work p (p, .blocked) :=
    ⟨.refl p, fun _ h => LineProgress.noConfusion h, fun h => LineProgress.noConfusion h⟩
  cases line with
  | flying j f =>
    simp only [stepLine]
    split
    · exact serves_land
    · exact hblocked
  | resting j until_ =>
    simp only [stepLine]
    split
    · exact serves_ends furthers_leaveWaiting
        fun h => Finish.noConfusion (LineEnd.finished.inj h)
    · split
      · exact serves_launch (j := { j with attempt := Word.next 32 j.attempt })
      · exact hblocked
  | presenting w until_ verdict =>
    simp only [stepLine]
    split
    · exact serves_ends (.refl p) fun h => Finish.noConfusion (LineEnd.finished.inj h)
    · split
      · exact serves_presented
      · exact hblocked
  | switching w caller script recovered => exact serves_switchScript

/-- A line of a playback that was cancelled does not complete it. -/
lemma stepLine_ne_completed {line : LinePhase} (h : p.isCancelled line.work.token = true) :
    (p.stepLine line).2 ≠ .ends (.finished .completed) := by
  have hnot : LineProgress.ends (.finished .cancelled) ≠ .ends (.finished .completed) := fun hend =>
    Finish.noConfusion (LineEnd.finished.inj (LineProgress.ends.inj hend))
  cases line with
  | flying j f =>
    have hcancelled : p.isCancelled j.work.token = true := h
    have hland : p.landing j f = some (.error .cancelled) := if_pos hcancelled
    have hconclude : j.command.conclude (.error .cancelled) = .error .cancelled := rfl
    have hrest : (p.recordAttempt j f (.error .cancelled)).backdrop = p.backdrop :=
      congrArg Bearing.rest (bearing_recordAttempt p j f)
    have hrecorded : (p.recordAttempt j f (.error .cancelled)).isCancelled j.work.token = true := by
      rw [← hcancelled]
      exact (congrArg (·.isCancelled j.work.token) hrest :
        (p.recordAttempt j f (.error .cancelled)).backdrop.isCancelled j.work.token =
          p.backdrop.isCancelled j.work.token)
    simp only [stepLine, hland, land, hconclude, hrecorded, if_true]
    exact hnot
  | resting j until_ =>
    have hcancelled : p.isCancelled j.work.token = true := h
    simp only [stepLine, if_pos hcancelled]
    exact hnot
  | presenting w until_ verdict =>
    have hcancelled : p.isCancelled w.token = true := h
    simp only [stepLine, hcancelled, Bool.true_and]
    split
    · exact hnot
    · split
      · cases verdict with
        | ok => exact fun hend => LineEnd.noConfusion (LineProgress.ends.inj hend)
        | error failure =>
          simp only [presented, hcancelled, if_true]
          exact hnot
      · exact fun hend => LineProgress.noConfusion hend
  | switching w caller script recovered =>
    simp only [stepLine, switchScript]
    split
    · unfold closeFailed passOver
      dsimp only
      split
      · exact fun hend => LineEnd.noConfusion (LineProgress.ends.inj hend)
      · exact fun hend => Finish.noConfusion (LineEnd.finished.inj (LineProgress.ends.inj hend))
    · exact fun hend => LineEnd.noConfusion (LineProgress.ends.inj hend)

/-- A line is begun where the playback stands, or at the address that it returns to at the end of
the script.  If there is none, nothing is left to be executed. -/
lemma serves_beginLine (p : Player) (token : Token) :
    p.beginLine token =
          ({ p with context := p.context.settleCursor }, .ends (.finished .completed)) ∧
        p.context.settleCursor.IsSpent ∨
      ∃ w, w.token = token ∧ w.index = p.context.settleCursor.cursor ∧
        Serves w ({ p with context := p.context.settleCursor }.publish p.run
          (.lineExecuting w.index w.source)) (p.beginLine token) := by
  unfold beginLine
  dsimp only
  split
  · next hnone => exact .inl ⟨rfl, Context.isSpent_settleCursor hnone⟩
  · next line _ =>
    obtain ⟨w, hw⟩ : ∃ w : Work, w =
        { index := p.context.settleCursor.cursor, source := line.source,
          script := p.context.settleCursor.scriptName, run := p.run, token } := ⟨_, rfl⟩
    refine .inr ⟨w, by rw [hw], by rw [hw], ?_⟩
    rw [← hw, show p.context.settleCursor.cursor = w.index by rw [hw],
      show line.source = w.source by rw [hw]]
    split
    · exact serves_beginCommand
    · exact serves_beginText

end Player

end Recital

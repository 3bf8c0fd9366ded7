import Recital.Proofs.Player.RequestChanges
import Recital.Proofs.Player.RequestStep
import Recital.Proofs.Recovery.Budget
import Recital.Proofs.Session.Ownership

/-!
# What a line uses up

Every line has a budget, of which each repetition of the line and each return from it to the
checkpoint takes one.  It is given back when the line is done, when it ends the playback, and when
another script is begun.  Otherwise a step that executes a line takes from the budget of that line
what it uses (`Player.Reckons`), and a step that executes none takes nothing (`Player.spent_step`).

That a line is done, and that a script is begun, is told by events, which are counted for each line
(`Bus.closings`).
-/

namespace Recital

/-- The event tells that the line is done, or that a script is begun. -/
def Event.Payload.closes (index : Nat) : Event.Payload → Bool
  | lineExecuted i _ | lineFailed i _ => i == index
  | scriptStarted _ => true
  | _ => false

namespace Bus

variable {b : Bus} {e : Event} {index : Nat}

/-- How often it was told that the line was done, or that a script was begun. -/
def closings (index : Nat) (b : Bus) : Nat := b.log.toList.countP (·.payload.closes index)

lemma closings_le_publish : b.closings index ≤ (b.publish e).closings index := by
  unfold publish
  split
  · exact Nat.le_refl _
  · simp [closings, List.countP_append]

lemma closings_lt_publish (hopen : b.closed = false) (h : e.payload.closes index = true) :
    b.closings index < (b.publish e).closings index := by
  simp [publish, hopen, closings, List.countP_append, h]

end Bus

/-- A line is repeated, or returned from, within its budget only. -/
lemma Recovery.spent_lt_of_plan {r : Recovery} {fault : Fault} {policy : Policy} {spent limit : Nat}
    (h : (r.plan fault policy spent limit).1 = .again ∨
      ∃ s, (r.plan fault policy spent limit).1 = .rollback s) : spent < limit := by
  unfold plan at h
  split at h
  · rcases h with h | ⟨s, h⟩ <;> cases h
  · next remedy _ =>
    cases remedy with
    | retry =>
      by_contra hspent
      simp [planFor, hspent] at h
    | rollback =>
      by_contra hspent
      cases hs : r.checkpoint <;> simp [planFor, hs, hspent] at h
    | skip | jump | stop => rcases h with h | ⟨s, h⟩ <;> cases h

namespace Player

variable {p q : Player} {id index line : Nat} {phase : Phase} {w : Work} {j : Job} {f : Flight}
  {o : Option Snapshot} {P : Json → Prop} {K : String → Prop} {y : Player × LineProgress}

/-! ### Events that were told before -/

namespace LastingChanges

lemma closings_le (h : LastingChanges P K p q) : p.bus.closings index ≤ q.bus.closings index := by
  have htold : p.lastingPart.bus.closings index ≤ q.lastingPart.bus.closings index := by
    unfold LastingChanges at h
    generalize q.lastingPart = c at h
    induction h with
    | refl => exact Nat.le_refl _
    | tail _ hchange ih =>
      cases hchange with
      | moves | resets | tells => exact Nat.le_trans ih Bus.closings_le_publish
      | _ => exact ih
  exact htold

/-- A bus that was closed stays so. -/
lemma isOpen (h : LastingChanges P K p q) (hopen : q.bus.closed = false) :
    p.bus.closed = false := by
  have hclosed : q.lastingPart.bus.closed = false → p.lastingPart.bus.closed = false := by
    clear hopen
    unfold LastingChanges at h
    generalize q.lastingPart = c at h
    have hpublish : ∀ (b : Bus) (e : Event), (b.publish e).closed = b.closed := fun b e => by
      unfold Bus.publish
      split <;> rfl
    induction h with
    | refl => exact fun h => h
    | tail _ hchange ih =>
      cases hchange with
      | moves | resets | tells => exact fun h => ih ((hpublish _ _).symm.trans h)
      | closes => exact fun h => nomatch h
      | _ => exact ih
  exact hclosed hopen

end LastingChanges

/-- Whatever a player keeps is of some kind. -/
lemma holds_any (p : Player) : p.lastingPart.Holds fun _ => True :=
  (Session.sets_any { player := p }).player

/-! ### What is used up -/

/-- So much was taken from the budget of a line, and no more than it has. -/
structure Deducts (index n : Nat) (p q : Player) : Prop where
  least : p.spent.count index + n ≤ q.spent.count index
  within : q.spent.count index ≤ max (p.spent.count index) p.tolerance.maxRecoveries

lemma Deducts.of_count (h : q.spent.count index = p.spent.count index) : Deducts index 0 p q :=
  ⟨Nat.le_of_eq h.symm, h ▸ Nat.le_max_left _ _⟩

/-- A line that was executed has got back the budget of another one, or its own: it is told to be
done, it has ended the playback, or another script is begun. -/
def Settles (index line : Nat) (p : Player) (y : Player × LineProgress) : Prop :=
  (y.1.bus.closed = false → p.bus.closings index < y.1.bus.closings index) ∨
    line = index ∧ ∃ f, y.2 = .ends (.finished f)

/-- Unless a budget is given back, a line that is executed takes from its own budget what it uses.
It uses some if it returns to a snapshot. -/
def Reckons (line : Nat) (o : Option Snapshot) (p : Player) (y : Player × LineProgress) : Prop :=
  ∀ index, Settles index line p y ∨
    Deducts index (if o.isSome ∧ line = index then 1 else 0) p y.1

/-- Something is done that takes nothing from any budget. -/
structure KeepsBudgets (p q : Player) : Prop where
  changes : LastingChanges (fun _ => True) (fun _ => True) p q
  spent : q.spent = p.spent

lemma KeepsBudgets.of_core (hchanges : LastingChanges (fun _ => True) (fun _ => True) p q)
    (hcore : q.core = p.core) : KeepsBudgets p q :=
  ⟨hchanges, (congrArg Player.spent hcore).trans rfl⟩

lemma keepsBudgets_publish {run : Run} {e : Event.Payload} (h : e.IsSteady fun _ => True) :
    KeepsBudgets p (p.publish run e) :=
  ⟨lastingChanges_publish h, rfl⟩

lemma keepsBudgets_leaveWaiting : KeepsBudgets p (p.leaveWaiting j) :=
  .of_core lastingChanges_leaveWaiting core_leaveWaiting

lemma keepsBudgets_recordAttempt {result : Except Failure Flow} :
    KeepsBudgets p (p.recordAttempt j f result) :=
  .of_core lastingChanges_recordAttempt (congrArg Gist.core (gist_recordAttempt p j f))

namespace Reckons

/-- Nothing is used. -/
lemma of_spent (h : y.1.spent = p.spent) : Reckons line none p y := fun _ =>
  .inr (.of_count (by rw [h]))

/-- A line that is done gets its budget back, and no other line is concerned. -/
lemma of_settles (hline : Settles line line p y)
    (hothers : ∀ index, index ≠ line → y.1.spent.count index = p.spent.count index) :
    Reckons line o p y := by
  intro index
  by_cases heq : line = index
  · exact .inl (heq ▸ hline)
  · rw [if_neg fun h => heq h.2]
    exact .inr (.of_count (hothers index (Ne.symm heq)))

/-- Nothing was used before the line came to this. -/
lemma after (h : Reckons line o q y) (hpq : KeepsBudgets p q) : Reckons line o p y := by
  intro index
  refine (h index).imp (.imp_left fun htold hopen => ?_) fun hdeducts => ?_
  · exact Nat.lt_of_le_of_lt hpq.changes.closings_le (htold hopen)
  · have htolerance : q.tolerance = p.tolerance := by
      unfold tolerance
      rw [hpq.changes.host]
    obtain ⟨hleast, hwithin⟩ := hdeducts
    rw [hpq.spent] at hleast hwithin
    exact ⟨hleast, htolerance ▸ hwithin⟩

end Reckons

/-! ### The end of a line -/

lemma spent_applyPause {run : Run} : (p.applyPause run).spent = p.spent := by
  unfold applyPause
  split
  · exact congrArg (fun g : Gist => g.core.spent) (gist_moveFrom _ run)
  · rfl

lemma spent_closeLine {by_ : LineEnd} : (p.closeLine w by_).1.spent = p.spent := spent_applyPause

lemma spent_closeDone {recovered : Bool} {by_ : LineEnd} :
    (p.closeDone w recovered by_).1.spent = p.spent := by
  unfold closeDone
  split <;> exact spent_closeLine

lemma spent_closeFailed {fault : Fault} :
    (p.closeFailed w fault).1.spent = p.spent.forget w.index := by
  unfold closeFailed passOver
  dsimp only
  split <;> exact spent_closeLine

/-- A flow action gives back the budget of its own line at most. -/
lemma count_applyFlow {flow : Flow} {recovered : Bool} (h : index ≠ w.index) :
    (p.applyFlow w flow recovered).1.spent.count index = p.spent.count index := by
  have hfailed : ∀ (q : Player) (fault : Fault), q.spent = p.spent →
      (q.closeFailed w fault).1.spent.count index = p.spent.count index := fun q fault hq => by
    rw [spent_closeFailed, Tally.count_forget_of_ne h, hq]
  unfold applyFlow
  split
  · exact hfailed p _ rfl
  · dsimp only
    split
    · rw [spent_closeDone]
    · rw [spent_closeDone]
    · rw [spent_closeDone]
    · rw [spent_closeDone]
    · rw [spent_closeDone]
    · split
      · exact hfailed _ _ rfl
      · rfl

/-- What is told on the way is a closing event of the line. -/
lemma settles_of_told {run : Run} {e : Event.Payload} (he : e.closes line = true)
    (hbus : q.bus = p.bus)
    (hy : LastingChanges (fun _ => True) (fun _ => True) (q.publish run e) y.1) :
    Settles line line p y := by
  refine .inl fun hopen => ?_
  have hpopen : p.bus.closed = false := by
    have hqopen := hy.isOpen hopen
    unfold publish Bus.publish at hqopen
    rw [hbus] at hqopen
    split at hqopen
    · next hclosed => exact absurd hqopen (by simp [hclosed])
    · exact hqopen
  have htold : p.bus.closings line < (q.publish run e).bus.closings line := by
    rw [← hbus] at hpopen ⊢
    exact Bus.closings_lt_publish hpopen he
  exact Nat.lt_of_lt_of_le htold hy.closings_le

/-- A line about whose fault nothing can be done is passed over or ends the playback. -/
lemma reckons_closeFailed {fault : Fault} : Reckons w.index o p (p.closeFailed w fault) := by
  refine .of_settles ?_ fun index h => by rw [spent_closeFailed, Tally.count_forget_of_ne h]
  unfold closeFailed passOver
  dsimp only
  split
  · obtain ⟨q, hq⟩ : ∃ q, q = { p with spent := p.spent.forget w.index } := ⟨_, rfl⟩
    obtain ⟨r, hr⟩ : ∃ r, r = q.publish w.run (.lineFailed w.index fault) := ⟨_, rfl⟩
    have hmoved : LastingChanges (fun _ => True) (fun _ => True) r
        { r with context := (r.context.lineFinished w.index).moveTo (w.index + 1) } :=
      lastingChanges_of_context (Context.lastingPart_lineFinished (c := r.context))
    have hclosed : LastingChanges (fun _ => True) (fun _ => True) r
        ({ r with context := (r.context.lineFinished w.index).moveTo (w.index + 1) }.closeLine
          w .next).1 :=
      hmoved.trans lineChangesWithin_closeLine.changes
    rw [← hq, ← hr]
    rw [hr] at hclosed ⊢
    exact settles_of_told (by simp [Event.Payload.closes]) (by rw [hq]) hclosed
  · exact .inr ⟨rfl, _, rfl⟩

/-- A line that is executed is done. -/
lemma reckons_finishLine {flow : Flow} {recovered : Bool} :
    Reckons w.index o p (p.finishLine w flow recovered) := by
  refine .of_settles ?_ fun index h => ?_
  · exact settles_of_told (q := { p with
        context := p.context.recordLine.lineFinished w.index
        spent := p.spent.forget w.index }) (e := .lineExecuted w.index w.source)
      (by simp [Event.Payload.closes]) rfl lineChangesWithin_applyFlow.changes
  · unfold finishLine
    rw [count_applyFlow h]
    exact Tally.count_forget_of_ne h

/-- When a script is begun, all budgets are given back. -/
lemma reckons_switchScript {caller : Run} {script : String} {recovered : Bool} :
    Reckons w.index none p (p.switchScript w caller script recovered) := by
  unfold switchScript
  split
  · exact reckons_closeFailed
  · next called labels _ =>
    intro index
    obtain ⟨q, hq⟩ : ∃ q, q = { p with
      context := p.context.switchTo called labels, attempts := {} }.setCheckpoint := ⟨_, rfl⟩
    have hbus : q.bus = p.bus := by
      rw [hq]
      unfold setCheckpoint
      split <;> rfl
    have henter : p.enter caller script called labels =
        ({ q with spent := {}, run := caller.child q.serial, serial := q.serial + 1 }.publish
          (caller.child q.serial) (.scriptStarted script)) := by
      rw [hq]
      rfl
    rw [henter]
    have hdrawn : LastingChanges (fun _ => True) (fun _ => True)
        ({ q with spent := {}, run := caller.child q.serial, serial := q.serial + 1 }.publish
          (caller.child q.serial) (.scriptStarted script)) _ :=
      (lineChangesWithin_closeDone :
        LineChangesWithin _ _ _ (closeDone _ w recovered .next)).changes
    have hsettles : Settles index index p _ := settles_of_told rfl hbus hdrawn
    refine .inl (.inl ?_)
    rcases hsettles with htold | ⟨-, f, hf⟩
    · exact htold
    · cases hf

/-! ### Recovery -/

/-- A recovery that repeats its line or returns from it takes one from the budget. -/
lemma reckons_bump (h : p.spent.count line < p.tolerance.maxRecoveries)
    (hy : y.1.spent = p.spent.bump line) : Reckons line o p y := by
  intro index
  refine .inr ⟨?_, ?_⟩
  · by_cases heq : index = line
    · rw [hy, heq, Tally.count_bump_self]
      split <;> omega
    · rw [hy, Tally.count_bump_of_ne heq, if_neg fun h => heq h.2.symm]
      exact Nat.le_refl _
  · by_cases heq : index = line
    · rw [hy, heq, Tally.count_bump_self]
      exact Nat.le_trans h (Nat.le_max_right _ _)
    · rw [hy, Tally.count_bump_of_ne heq]
      exact Nat.le_max_left _ _

lemma reckons_handleFault {fault : Fault} {policy : Policy} :
    Reckons w.index (p.rollback? w.index fault policy) p (p.handleFault w fault policy) := by
  have hwithin : (p.recovery.plan fault policy (p.spent.count w.index)
      p.tolerance.maxRecoveries).1 = .again ∨ (∃ s, (p.recovery.plan fault policy
        (p.spent.count w.index) p.tolerance.maxRecoveries).1 = .rollback s) →
      p.spent.count w.index < p.tolerance.maxRecoveries := Recovery.spent_lt_of_plan
  have hkept := (p.recovery.plan_spec fault policy (p.spent.count w.index)
    p.tolerance.maxRecoveries).1
  unfold handleFault rollback?
  cases p.tolerance.recoveryEnabled with
  | false => exact reckons_closeFailed
  | true =>
    simp only [Bool.not_true, Bool.false_eq_true, if_false, if_true]
    generalize p.recovery.plan fault policy (p.spent.count w.index) p.tolerance.maxRecoveries =
      planned at hwithin hkept
    obtain ⟨plan, recovery⟩ := planned
    have hplanned : KeepsBudgets p { p with recovery } :=
      ⟨.of_lastingPart (congrArg (LastingPart.mk _ _ _ _ _ · _) hkept), rfl⟩
    dsimp only
    cases plan with
    | proceed flow => exact reckons_finishLine.after hplanned
    | again => exact reckons_bump (hwithin (.inl rfl)) spent_closeLine
    | rollback s => exact reckons_bump (hwithin (.inr ⟨s, rfl⟩)) spent_closeLine
    | halt =>
      refine .of_settles (.inr ⟨rfl, _, rfl⟩) fun index h => ?_
      rw [spent_closeLine]
      exact Tally.count_forget_of_ne h
    | giveUp => exact reckons_closeFailed.after hplanned

/-! ### Commands and texts -/

lemma spent_applyEffects {effects : List Effect} :
    (effects.foldl (fun p e => p.applyEffect w e) p).spent = p.spent := by
  induction effects generalizing p with
  | nil => rfl
  | cons e effects ih =>
    rw [List.foldl_cons, ih]
    cases e with
    | clear => exact congrArg (fun g : Gist => g.core.spent) (gist_clearVariables p w.run)
    | assign | observe | push | note => rfl

lemma reckons_launch : Reckons line none p (p.launch j) := by
  refine .of_spent ?_
  have hcounted : ∀ q : Player, (q.countAttempt j).spent = q.spent := fun q => by
    unfold countAttempt
    split <;> rfl
  unfold launch
  dsimp only
  split
  · rfl
  · exact spent_applyEffects.trans (hcounted _)

lemma reckons_attemptFailed {failure : Failure} :
    Reckons j.work.index (p.retreat? j failure) p (p.attemptFailed j failure) := by
  rw [attemptFailed_eq]
  unfold retreat?
  cases p.upset? j failure with
  | none =>
    refine .of_spent ?_
    exact congrArg (fun g : Gist => g.core.spent)
      (gist_backoff p : (p.backoff (p.host.policy j.command.type) j.attempt).2.gist = p.gist)
  | some x =>
    obtain ⟨fault, policy⟩ := x
    have hhandled : Reckons j.work.index ((p.leaveWaiting j).rollback? j.work.index fault policy)
        (p.leaveWaiting j) ((p.leaveWaiting j).handleFault j.work fault policy) :=
      reckons_handleFault
    rw [rollback?_leaveWaiting] at hhandled
    exact hhandled.after keepsBudgets_leaveWaiting

lemma reckons_land {verdict : Except Failure CommandResult} :
    Reckons j.work.index (p.landingRetreat? j verdict) p (p.land j f verdict) := by
  obtain ⟨q, hq⟩ : ∃ q, q = p.recordAttempt j f (j.command.conclude verdict) := ⟨_, rfl⟩
  have hcore : q.core = p.core := by
    rw [hq]
    exact congrArg Gist.core (gist_recordAttempt p j f)
  have hrecorded : KeepsBudgets p q := hq ▸ keepsBudgets_recordAttempt
  have hcounted : KeepsBudgets p { q with context := q.context.recordCommand } :=
    ⟨hrecorded.changes.trans (.of_lastingPart rfl), hrecorded.spent⟩
  have hcancelled : q.isCancelled j.work.token = p.isCancelled j.work.token :=
    congrArg (·.isCancelled j.work.token) hcore
  unfold land landingRetreat?
  dsimp only
  rw [← hq]
  cases j.command.conclude verdict with
  | ok flow => exact (reckons_finishLine.after keepsBudgets_leaveWaiting).after hcounted
  | error failure =>
    dsimp only
    rw [hcancelled]
    split
    · exact .of_spent ((keepsBudgets_leaveWaiting (j := j)).spent.trans hrecorded.spent)
    · have hsame : { q with context := q.context.recordCommand }.retreat? j failure =
          p.retreat? j failure :=
        retreat?_congr ((congrArg Player.host hcore).trans rfl)
          ((congrArg Player.recovery hcore).trans rfl) ((congrArg Player.spent hcore).trans rfl)
      rw [← hsame]
      exact reckons_attemptFailed.after hcounted

lemma reckons_beginCommand {command : Option Command} :
    Reckons w.index (p.openingRetreat? w command) p (p.beginCommand w command) := by
  cases command with
  | none => exact reckons_handleFault
  | some command =>
    have hentered : KeepsBudgets p (p.moveFrom w.run .playing .waiting).2 :=
      .of_core lastingChanges_moveFrom (congrArg Gist.core (gist_moveFrom p w.run))
    exact reckons_launch.after hentered

lemma reckons_beginText {text : String} : Reckons w.index none p (p.beginText w text) := by
  unfold beginText
  split
  · split
    · exact .of_spent rfl
    · exact .of_spent rfl
  · exact reckons_finishLine

/-! ### Phases -/

/-- A line that is begun is the one under the cursor. -/
lemma reckons_beginLine {token : Token} :
    Reckons p.context.settleCursor.cursor (p.retreatAtOnce? token) p (p.beginLine token) := by
  obtain ⟨q, hq⟩ : ∃ q, q = { p with context := p.context.settleCursor } := ⟨_, rfl⟩
  have hsettled : KeepsBudgets p q :=
    hq ▸ ⟨lastingChanges_of_context Context.lastingPart_settleCursor, rfl⟩
  cases hline : p.context.settleCursor.currentLine with
  | none =>
    have hbegin : p.beginLine token = (q, .ends (.finished .completed)) := by
      simp only [beginLine, ← hq, hline]
    have hretreat : p.retreatAtOnce? token = none := by
      simp only [retreatAtOnce?, hline]
    rw [hbegin, hretreat]
    exact .of_spent hsettled.spent
  | some line =>
    obtain ⟨w, hw⟩ : ∃ w, w = q.nextWork token line := ⟨_, rfl⟩
    obtain ⟨r, hr⟩ : ∃ r, r = q.publish w.run (.lineExecuting w.index w.source) := ⟨_, rfl⟩
    have hbegun : KeepsBudgets q r := hr ▸ keepsBudgets_publish trivial
    have hindex : p.context.settleCursor.cursor = w.index := by rw [hw, hq]; rfl
    rw [hindex, beginLine_eq hq hw hr hline]
    cases line with
    | command source command =>
      rw [retreatAtOnce?_of_command hq hw hr hline]
      exact (reckons_beginCommand.after hbegun).after hsettled
    | text text =>
      have hretreat : p.retreatAtOnce? token = none := by
        simp only [retreatAtOnce?, hline]
      rw [hretreat]
      exact (reckons_beginText.after hbegun).after hsettled

/-- A line goes on from any phase. -/
lemma reckons_stepLine (line : LinePhase) :
    Reckons line.work.index (p.lineRetreat? line) p (p.stepLine line) := by
  cases line with
  | flying j f =>
    simp only [stepLine, lineRetreat?]
    cases p.landing j f with
    | none => exact .of_spent rfl
    | some verdict => exact reckons_land
  | resting j until_ =>
    simp only [stepLine, lineRetreat?]
    split
    · exact .of_spent keepsBudgets_leaveWaiting.spent
    · split
      · exact reckons_launch
      · exact .of_spent rfl
  | presenting w until_ verdict =>
    cases verdict with
    | ok shown =>
      simp only [stepLine, lineRetreat?, presented]
      split
      · exact .of_spent rfl
      · split
        · exact reckons_finishLine
        · exact .of_spent rfl
    | error failure =>
      simp only [stepLine, lineRetreat?, presented]
      cases hcancelled : p.isCancelled w.token with
      | true =>
        simp only [Bool.true_and, Bool.true_eq_false, false_and, if_false, if_true]
        split
        · exact .of_spent rfl
        · split <;> exact .of_spent rfl
      | false =>
        simp only [Bool.false_and, Bool.false_eq_true, if_false, true_and]
        split
        · exact reckons_handleFault
        · exact .of_spent rfl
  | switching w caller script recovered => exact reckons_switchScript

/-! ### Steps of requests -/

/-- The line that a request executes in its next step, if it executes one. -/
def lineAt (p : Player) : Phase → Option Nat
  | .playing _ line | .stepping line => some line.work.index
  | .playLock _ => some p.context.takeBreakpoint.2.settleCursor.cursor
  | .stepLock => some { p.context with stepMode := true }.settleCursor.cursor
  | _ => none

/-- How many rollbacks a request performs on account of a line in its next step: one, if the line
leads back to a snapshot. -/
def retreats (p : Player) (index id : Nat) (phase : Phase) : Nat :=
  if (p.stepRetreat? id phase).isSome ∧ p.lineAt phase = some index then 1 else 0

/-- The line ends the playback in the next step. -/
def Breaks (p : Player) (index id : Nat) (phase : Phase) : Prop :=
  p.lineAt phase = some index ∧
    ∃ f, (p.execution? id phase).map Prod.snd = some (.ends (.finished f))

/-- What a request does for its line is reckoned to the line. -/
lemma reckons_execution (hexec : p.execution? id phase = some y) :
    ∃ line, p.lineAt phase = some line ∧ Reckons line (p.stepRetreat? id phase) p y := by
  have hsome : (p.execution? id phase).isSome = true := by rw [hexec]; rfl
  cases phase with
  | playing play line | stepping line =>
    cases hexec
    exact ⟨_, rfl, reckons_stepLine line⟩
  | playLock play =>
    have hretreat : p.stepRetreat? id (.playLock play) =
        { p with context := p.context.takeBreakpoint.2 }.retreatAtOnce? play.token := if_pos hsome
    have htaken : KeepsBudgets p { p with context := p.context.takeBreakpoint.2 } :=
      ⟨lastingChanges_of_context Context.lastingPart_takeBreakpoint, rfl⟩
    simp only [execution?] at hexec
    split at hexec
    · cases hexec
      rw [hretreat]
      exact ⟨_, rfl, reckons_beginLine.after htaken⟩
    · cases hexec
  | stepLock =>
    have hstepping : KeepsBudgets p { p with context := { p.context with stepMode := true } } :=
      ⟨lastingChanges_of_context rfl, rfl⟩
    simp only [execution?] at hexec
    split at hexec
    · obtain ⟨token, htoken, rfl⟩ := Option.map_eq_some_iff.mp hexec
      have hretreat : p.stepRetreat? id .stepLock =
          { p with context := { p.context with stepMode := true } }.retreatAtOnce? token := by
        have hbound : p.stepRetreat? id .stepLock = _ := if_pos hsome
        rw [hbound, htoken]
        rfl
      rw [hretreat]
      exact ⟨_, rfl, reckons_beginLine.after hstepping⟩
    · cases hexec
  | _ => cases hexec

/-- A request that executes no line returns to no snapshot. -/
lemma stepRetreat?_of_execution (hexec : p.execution? id phase = none) :
    p.stepRetreat? id phase = none := by
  have hnone : ¬ (p.execution? id phase).isSome = true := by simp [hexec]
  cases phase with
  | playing | stepping => cases hexec
  | playLock | stepLock => exact if_neg hnone
  | _ => rfl

lemma spent_stop : p.stop.spent = p.spent := congrArg Estate.spent estate_stop

lemma spent_requestPlay {script : Script} {start : Start} {bound : Bool} :
    (p.requestPlay id script start bound).1.spent = p.spent := by
  unfold requestPlay
  split
  · rfl
  · split
    · rfl
    · exact spent_stop

/-- Taking up a request uses nothing. -/
lemma spent_accept {r : Request} : (p.accept id r).1.spent = p.spent := by
  cases r with
  | play => exact spent_requestPlay
  | reset => exact spent_stop
  | shutDown => exact (spent_stop (p := { p with isShutDown := true }) : _ = _)
  | skipToLine => rfl
  | skipToLabel label =>
    simp only [accept, requestLabel]
    split
    · rfl
    · split <;> rfl
  | save =>
    simp only [accept, requestSave]
    split <;> rfl
  | loadSnapshot =>
    simp only [accept, requestSnapshot]
    split <;> rfl
  | loadState =>
    simp only [accept, requestSnapshot]
    split
    · rfl
    · split <;> rfl
  | playNamed | stepForward | stepBackward =>
    simp only [accept]
    split <;> rfl

lemma spent_skip : (p.skip index).1.spent = p.spent := by
  unfold skip
  split
  · rfl
  · split <;> rfl

lemma spent_storeSnapshot {key : String} {s : Snapshot} :
    (p.storeSnapshot key s).1.spent = p.spent := by
  have hwritten : (p.write key s).2.spent = p.spent := congrArg Estate.spent estate_write
  unfold storeSnapshot
  split
  · next q hq =>
    rw [hq] at hwritten
    exact hwritten
  · next q hq =>
    rw [hq] at hwritten
    exact hwritten

/-- Nothing is used by a playback between two lines. -/
lemma Lulls.spent {token : Token} {x : Player × Progress} (h : Lulls token p x) :
    x.1.spent = p.spent := by
  cases h with
  | goes _ _ hestate => exact congrArg Estate.spent hestate
  | @ends q f hestate =>
    have hfinish := congrArg Estate.spent (estate_finish (p := q) (f := f))
    exact hfinish.trans (congrArg Estate.spent hestate)

/-- The next step of a request starts a playback, resets the player or restores a state: all budgets
and the checkpoint are set anew. -/
def StartsOver (p : Player) (id : Nat) : Phase → Prop
  | .playGate .. => p.isShutDown = false
  | .resetGate => True
  | .restoreLock s => (p.step id (.restoreLock s)).2 = .ends .done
  | _ => False

/-- A step that executes no line uses nothing. -/
lemma spent_step (hexec : p.execution? id phase = none) (hphase : ¬ p.StartsOver id phase)
    (hready : (p.step id phase).2 ≠ .blocked) : (p.step id phase).1.spent = p.spent := by
  have hplays : ∀ token, phase.token? = some token → (p.step id phase).1.spent = p.spent :=
    fun token htoken => ((lulls_step id htoken hexec).resolve_left hready).spent
  cases phase with
  | preloading | paused | playLock | playing | delaying | autosaving => exact hplays _ rfl
  | playGate script start bound =>
    have hshut : p.isShutDown = true := Bool.eq_true_of_not_eq_false hphase
    simp only [step]
    split
    · unfold beginPlay
      rw [if_pos hshut]
    · rfl
  | resetGate => exact absurd trivial hphase
  | restoreLock s =>
    have hundone : (p.step id (.restoreLock s)).2 ≠ .ends .done := hphase
    simp only [step] at hundone ⊢
    split at hundone
    · next hheld =>
      rw [if_pos hheld]
      unfold restoreSnapshot at hundone ⊢
      split at hundone
      · rfl
      · split at hundone
        · next hname => rw [if_pos hname]; rfl
        · next hname =>
          rw [if_neg hname]
          split at hundone
          · next hrange => rw [if_pos hrange]; rfl
          · exact absurd rfl hundone
    · next hwaits => rw [if_neg hwaits]
  | stepping line => cases hexec
  | entering r => exact spent_accept
  | loading name =>
    simp only [step, loadAndPlay]
    split
    · rfl
    · split
      · rfl
      · exact spent_requestPlay
  | closeGate | backLock =>
    simp only [step]
    split <;> rfl
  | stepLock =>
    simp only [step]
    split
    · next hheld =>
      unfold beginStep
      split
      · rfl
      · rfl
      · next token hrefusal htoken =>
        simp [execution?, hheld, hrefusal, htoken] at hexec
    · rfl
  | skipLock index =>
    simp only [step]
    split
    · exact spent_skip
    · rfl
  | storing key s => exact spent_storeSnapshot
  | fetching key restoring =>
    simp only [step, fetchSnapshot]
    split
    · rfl
    · split <;> rfl

/-- What follows the execution of a line uses nothing. -/
lemma keepsBudgets_follows (hexec : p.execution? id phase = some y) :
    KeepsBudgets y.1 (p.step id phase).1 := by
  have hdraws : LineChangesWithin (fun _ => True) (fun _ => True) y.1 y :=
    ⟨.refl _, fun line _ => (Phase.stepping line).sets_any⟩
  rcases step_of_execution hexec with ⟨-, hstep⟩ | ⟨-, play, -, hstep⟩
  · rw [hstep]
    refine ⟨(changesWithin_followStep hdraws).changes, ?_⟩
    obtain ⟨q, progress⟩ := y
    cases progress with
    | blocked | goes => rfl
    | ends by_ =>
      cases by_ with
      | next => rfl
      | finished f => exact congrArg (fun g : Gist => g.core.spent) (gist_moveFrom _ _)
  · rw [hstep]
    refine ⟨(changesWithin_followPlay y.1.holds_any hdraws).changes, ?_⟩
    obtain ⟨q, progress⟩ := y
    cases progress with
    | blocked | goes => rfl
    | ends by_ => exact (lulls_afterLine : Lulls play.token q (q.afterLine id play by_)).spent

/-- Any step takes from the budget of a line what the line uses, unless the budget is given back:
the line is told to be done or a script to be begun, or the line ends the playback. -/
lemma deducts_step (hphase : ¬ p.StartsOver id phase) (hready : (p.step id phase).2 ≠ .blocked)
    (hopen : (p.step id phase).1.bus.closed = false) :
    p.bus.closings index < (p.step id phase).1.bus.closings index ∨ p.Breaks index id phase ∨
      Deducts index (p.retreats index id phase) p (p.step id phase).1 := by
  cases hexec : p.execution? id phase with
  | none =>
    have hretreats : p.retreats index id phase = 0 := by
      simp [retreats, stepRetreat?_of_execution hexec]
    rw [hretreats]
    exact .inr (.inr (.of_count (by rw [spent_step hexec hphase hready])))
  | some y =>
    obtain ⟨line, hline, hreckons⟩ := reckons_execution hexec
    have hfollows := keepsBudgets_follows hexec
    rcases hreckons index with (htold | ⟨rfl, f, hf⟩) | hdeducts
    · exact .inl (Nat.lt_of_lt_of_le (htold (hfollows.changes.isOpen hopen))
        hfollows.changes.closings_le)
    · exact .inr (.inl ⟨hline, f, by rw [hexec]; exact congrArg some hf⟩)
    · have hretreats : p.retreats index id phase =
          if (p.stepRetreat? id phase).isSome ∧ line = index then 1 else 0 := by
        simp [retreats, hline]
      rw [hretreats]
      refine .inr (.inr ⟨?_, ?_⟩)
      · rw [hfollows.spent]
        exact hdeducts.least
      · rw [hfollows.spent]
        exact hdeducts.within

end Player

end Recital

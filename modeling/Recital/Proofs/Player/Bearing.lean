import Recital.Proofs.Player.Gist

/-!
# The bearing of a player

While a line is executed, a player changes its context, its records and what it knows about
recovery.  What other requests go by is left alone, but for two things: the state of the playback,
which shows that a command is in flight, and a pause that was asked for meanwhile, which takes
effect when the line ends.  The bearing of a player is what these other requests go by.

`Follows` says what a line may do to the bearing from a phase on.  An attempt for which the state
was changed to `waiting` changes it back when it has ended (`Bearing.left`); after that the line may
still wait for a script.  A line that ends lets a pause take effect (`Bearing.settled`), unless it
was cancelled.
-/

namespace Recital

/-- The line that an event says is being executed. -/
def Event.Payload.begins? : Event.Payload → Option Nat
  | lineExecuting index _ => some index
  | _ => none

/-- The lines that were begun, by the events of a bus. -/
def Bus.begun (b : Bus) : List Nat := b.log.toList.filterMap (·.payload.begins?)

/-- The state was changed to `waiting` for the attempt that the line is about. -/
def LinePhase.entered : LinePhase → Bool
  | .flying j _ => j.entered
  | .resting j _ => j.entered
  | .presenting .. => false
  | .switching .. => false

namespace Player

/-- What requests go by beside the line that is executed. -/
structure Bearing where
  /-- The state of the playback. -/
  state : State
  /-- A pause was asked for. -/
  pauseRequested : Bool
  /-- The lines that were begun. -/
  begun : List Nat
  /-- Who executes lines. -/
  lock : Lock
  /-- All that lines leave alone. -/
  rest : Player

namespace Bearing

/-- An attempt has ended for which the state may have been changed. -/
def left (b : Bearing) (entered : Bool) : Bearing :=
  if entered = true ∧ b.state = .waiting then { b with state := .playing } else b

/-- A pause that was asked for has taken effect. -/
def settled (b : Bearing) : Bearing :=
  if b.pauseRequested = true then
    { b with
      pauseRequested := false
      state := if b.state = .playing then .paused else b.state }
  else b

/-- A line is begun; a closed bus does not show it. -/
def begins (b : Bearing) (index : Nat) (entered : Bool) : Bearing :=
  { b with
    state := if entered then .waiting else b.state
    begun := if b.rest.bus.closed then b.begun else b.begun ++ [index] }

variable (b : Bearing)

@[simp] lemma left_false : b.left false = b := by simp [left]

lemma left_eq (entered : Bool) : b.left entered = { b with state := (b.left entered).state } := by
  unfold left
  split <;> rfl

lemma settled_eq :
    b.settled =
      { b with state := b.settled.state, pauseRequested := b.settled.pauseRequested } := by
  unfold settled
  split <;> rfl

end Bearing

variable (p : Player) (run : Run) (w : Work) (j : Job) (f : Flight)

/-- The fields of a player that lines leave alone. -/
def backdrop : Player :=
  { p with
    bus := { capacity := 0, closed := p.bus.closed }
    store := none
    cell := {}
    context := {}
    recovery := {}
    ledger := {}
    lineLock := {}
    run := .numbered 0
    serial := 0
    pauseRequested := false
    spent := {}
    attempts := {}
    readings := 0
    draws := 0
    trace := #[]
    samples := #[]
    notes := #[] }

/-- The bearing of a player. -/
def bearing : Bearing := ⟨p.state, p.pauseRequested, p.bus.begun, p.lineLock, p.backdrop⟩

/-! ### Operations that keep the bearing -/

/-- An event that begins no line. -/
lemma bearing_publish {e : Event.Payload} (h : e.begins? = none) :
    (p.publish run e).bearing = p.bearing := by
  have hbegun : (p.publish run e).bus.begun = p.bus.begun := by
    simp only [publish, Bus.publish]
    split
    · rfl
    · simp [Bus.begun, h]
  have hrest : (p.publish run e).backdrop = p.backdrop := by
    simp only [publish, Bus.publish, backdrop]
    split <;> rfl
  simp only [bearing, hbegun, hrest]
  rfl

@[simp] lemma bearing_publishProgress : p.publishProgress.bearing = p.bearing :=
  p.bearing_publish _ rfl

@[simp] lemma bearing_setVariable {name : String} {value : Json} :
    (p.setVariable run name value).bearing = p.bearing :=
  bearing_publish _ _ rfl

@[simp] lemma bearing_clearVariables : (p.clearVariables run).bearing = p.bearing := by
  have hnames : ∀ (names : List String) (q : Player),
      (names.foldl (fun q name => q.publish run (.variableChanged name none)) q).bearing =
        q.bearing := by
    intro names
    induction names with
    | nil => exact fun _ => rfl
    | cons name names ih =>
      intro q
      rw [List.foldl_cons, ih]
      exact bearing_publish _ _ rfl
  exact hnames _ _

@[simp] lemma bearing_applyEffect (e : Effect) : (p.applyEffect w e).bearing = p.bearing := by
  cases e with
  | assign | observe => exact bearing_setVariable _ _
  | clear => exact bearing_clearVariables _ _
  | push | note => rfl

lemma bearing_foldl_applyEffect (effects : List Effect) :
    (effects.foldl (fun p e => p.applyEffect w e) p).bearing = p.bearing := by
  induction effects generalizing p with
  | nil => rfl
  | cons e effects ih => rw [List.foldl_cons, ih, bearing_applyEffect]

@[simp] lemma bearing_countAttempt : (p.countAttempt j).bearing = p.bearing := by
  unfold countAttempt
  split <;> rfl

@[simp] lemma bearing_recordAttempt {result : Except Failure Flow} :
    (p.recordAttempt j f result).bearing = p.bearing := by
  have hpublish := bearing_publish
    { p with
      ledger := p.ledger.record j.command.type (Span.ofMillis (p.stopwatch - f.since)) result }
    j.work.run (e := .commandExecuted j.work.index j.command.type result.toOption.isSome) rfl
  unfold recordAttempt
  dsimp only
  split
  · exact hpublish
  · exact hpublish

@[simp] lemma bearing_backoff {policy : Policy} {attempt : Nat} :
    (p.backoff policy attempt).2.bearing = p.bearing := by
  unfold backoff
  split <;> rfl

@[simp] lemma bearing_measureMemory : p.measureMemory.bearing = p.bearing := by
  unfold measureMemory
  dsimp only
  split
  · split <;> rfl
  · rfl

@[simp] lemma bearing_write {key : String} {s : Snapshot} :
    (p.write key s).2.bearing = p.bearing := by
  unfold write
  split <;> rfl

@[simp] lemma bearing_setCheckpoint : p.setCheckpoint.bearing = p.bearing := by
  unfold setCheckpoint
  split <;> rfl

@[simp] lemma bearing_enter {caller : Run} {name : String} {script : Script} {labels : Table Nat} :
    (p.enter caller name script labels).bearing = p.bearing := by
  unfold enter
  dsimp only
  rw [bearing_publish _ _ rfl]
  exact bearing_setCheckpoint _

@[simp] lemma bearing_passOver {fault : Fault} : (p.passOver w fault).1.bearing = p.bearing := by
  have hpublish := bearing_publish { p with spent := p.spent.forget w.index } w.run
    (e := .lineFailed w.index fault) rfl
  unfold passOver
  dsimp only
  split
  · exact hpublish
  · rfl

/-! ### Operations that change it -/

/-- A change of state. -/
lemma bearing_commit {b : State} :
    (p.commit run (p.cell.commit b)).bearing = { p.bearing with state := b } := by
  unfold commit
  rw [bearing_publish _ _ rfl]
  rfl

/-- An event that begins a line. -/
lemma bearing_publish_begins {index : Nat} {source : String} :
    (p.publish run (.lineExecuting index source)).bearing = p.bearing.begins index false := by
  have hbegun : (p.publish run (.lineExecuting index source)).bus.begun =
      if p.bus.closed then p.bus.begun else p.bus.begun ++ [index] := by
    simp only [publish, Bus.publish]
    split
    · rfl
    · simp [Bus.begun, Event.Payload.begins?]
  have hrest : (p.publish run (.lineExecuting index source)).backdrop = p.backdrop := by
    simp only [publish, Bus.publish, backdrop]
    split <;> rfl
  simp only [bearing, hbegun, hrest]
  rfl

lemma bearing_moveFrom {a b : State} :
    (p.moveFrom run a b).2.bearing =
      if p.state = a ∧ a.allows b = true then { p.bearing with state := b } else p.bearing := by
  rw [moveFrom_eq_ite]
  split
  · exact bearing_commit _ _
  · rfl

/-- A move that is made if it is allowed changes the state at most. -/
lemma bearing_moveIfAllowed {b : State} :
    (p.moveIfAllowed run b).bearing =
      { p.bearing with state := (p.moveIfAllowed run b).state } := by
  rw [moveIfAllowed_eq_ite]
  split
  · rw [bearing_commit]
    rfl
  · rfl

lemma bearing_leaveWaiting : (p.leaveWaiting j).bearing = p.bearing.left j.entered := by
  unfold leaveWaiting
  split
  · next hentered =>
    rw [bearing_moveFrom, hentered]
    simp [Bearing.left, State.allows, bearing]
  · next hentered => simp [hentered]

lemma bearing_applyPause : (p.applyPause run).bearing = p.bearing.settled := by
  unfold applyPause
  split
  · next hpause =>
    rw [bearing_moveFrom]
    by_cases hstate : p.state = .playing
    · have hq : { p with pauseRequested := false }.state = .playing := hstate
      rw [if_pos ⟨hq, rfl⟩]
      simp [Bearing.settled, bearing, hpause, hstate, backdrop]
    · have hq : ¬ { p with pauseRequested := false }.state = .playing := hstate
      rw [if_neg fun h => hq h.1]
      simp [Bearing.settled, bearing, hpause, hstate, backdrop]
      rfl
  · next hpause => simp [Bearing.settled, bearing, hpause]

/-! ### Lines -/

variable {p run w j f} {b : Bearing} {entered : Bool} {x : Player × LineProgress}

/-- What a line may do to a bearing from a phase in which the state may have been changed for an
attempt. -/
def Follows (entered : Bool) (b : Bearing) (x : Player × LineProgress) : Prop :=
  match x.2 with
  | .blocked => False
  | .goes phase =>
    x.1.bearing = b ∧ phase.entered = entered ∨
      x.1.bearing = b.left entered ∧ phase.entered = false
  | .ends by_ =>
    x.1.bearing = (b.left entered).settled ∨
      x.1.bearing = b.left entered ∧ by_ = .finished .cancelled

/-- What follows when the attempt has ended follows the attempt. -/
lemma Follows.of_left (h : Follows false (b.left entered) x) : Follows entered b x := by
  obtain ⟨q, progress⟩ := x
  cases progress with
  | blocked => exact h
  | goes phase =>
    simp only [Follows, Bearing.left_false] at h ⊢
    exact .inr (h.elim id id)
  | ends by_ =>
    simp only [Follows, Bearing.left_false] at h ⊢
    exact h

/-- The end of a line. -/
lemma follows_closeLine {by_ : LineEnd} : Follows false p.bearing (p.closeLine w by_) := by
  have hbearing : (p.closeLine w by_).1.bearing = p.bearing.settled := by
    simp only [closeLine, bearing_applyPause, bearing_publishProgress]
  have hclosed : (p.closeLine w by_).1.bearing = (p.bearing.left false).settled := by
    rw [hbearing, Bearing.left_false]
  exact .inl hclosed

/-- The end of a line of a player with the same bearing. -/
lemma Follows.of_bearing {q : Player} (h : Follows entered q.bearing x)
    (hq : q.bearing = p.bearing) : Follows entered p.bearing x := hq ▸ h

lemma follows_closeFailed {fault : Fault} : Follows false p.bearing (p.closeFailed w fault) :=
  follows_closeLine.of_bearing (bearing_passOver p w)

lemma follows_closeDone {recovered : Bool} {by_ : LineEnd} :
    Follows false p.bearing (p.closeDone w recovered by_) := by
  unfold closeDone
  dsimp only
  split
  · exact follows_closeLine.of_bearing rfl
  · exact follows_closeLine

/-- A flow action is carried out, or a script is to be loaded for it. -/
lemma follows_applyFlow {flow : Flow} {recovered : Bool} :
    Follows false p.bearing (p.applyFlow w flow recovered) := by
  unfold applyFlow
  split
  · exact follows_closeFailed
  · next resolution context _ =>
    have hmoved : { p with context }.bearing = p.bearing := rfl
    dsimp only
    split
    · exact follows_closeDone.of_bearing rfl
    · exact follows_closeDone.of_bearing hmoved
    · exact follows_closeDone.of_bearing hmoved
    · exact follows_closeDone.of_bearing hmoved
    · exact follows_closeDone.of_bearing hmoved
    · split
      · exact follows_closeFailed.of_bearing hmoved
      · exact .inl ⟨hmoved, rfl⟩

lemma follows_finishLine {flow : Flow} {recovered : Bool} :
    Follows false p.bearing (p.finishLine w flow recovered) := by
  have hpublish := bearing_publish
    { p with
      context := p.context.recordLine.lineFinished w.index
      spent := p.spent.forget w.index }
    w.run (e := .lineExecuted w.index w.source) rfl
  exact follows_applyFlow.of_bearing hpublish

lemma follows_switchScript {caller : Run} {script : String} {recovered : Bool} :
    Follows false p.bearing (p.switchScript w caller script recovered) := by
  unfold switchScript
  split
  · exact follows_closeFailed
  · exact follows_closeDone.of_bearing (bearing_enter p)

/-- Something is done about a fault. -/
lemma follows_handleFault {fault : Fault} {policy : Policy} :
    Follows false p.bearing (p.handleFault w fault policy) := by
  unfold handleFault
  split
  · exact follows_closeFailed
  · dsimp only
    split
    · exact follows_finishLine.of_bearing rfl
    · exact follows_closeLine.of_bearing rfl
    · exact follows_closeLine.of_bearing rfl
    · exact follows_closeLine.of_bearing rfl
    · exact follows_closeFailed.of_bearing rfl

/-- An attempt that is started flies, and keeps the bearing. -/
lemma bearing_launch :
    (p.launch j).1.bearing = p.bearing ∧ ∃ f, (p.launch j).2 = .goes (.flying j f) := by
  obtain ⟨q, hq⟩ : ∃ q, q =
      p.publish j.work.run (.commandExecuting j.work.index j.command.type) := ⟨_, rfl⟩
  have hbearing : q.bearing = p.bearing := by
    rw [hq]
    exact bearing_publish _ _ rfl
  unfold launch
  dsimp only
  rw [← hq]
  split
  · exact ⟨hbearing, _, rfl⟩
  · refine ⟨?_, _, rfl⟩
    rw [bearing_foldl_applyEffect, bearing_countAttempt, hbearing]

lemma follows_launch : Follows j.entered p.bearing (p.launch j) := by
  obtain ⟨hbearing, f, hflies⟩ := bearing_launch (p := p) (j := j)
  unfold Follows
  rw [hflies]
  exact .inl ⟨hbearing, rfl⟩

/-- A failed attempt is followed by another one, or something is done about it. -/
lemma follows_attemptFailed {failure : Failure} :
    Follows j.entered p.bearing (p.attemptFailed j failure) := by
  unfold attemptFailed
  dsimp only
  split
  · refine .inl ⟨?_, rfl⟩
    rw [bearing_publish _ _ rfl, bearing_backoff]
  · refine Follows.of_left ?_
    rw [← bearing_leaveWaiting]
    exact follows_handleFault

/-- An attempt has ended. -/
lemma follows_land {verdict : Except Failure CommandResult} :
    Follows j.entered p.bearing (p.land j f verdict) := by
  obtain ⟨result, hresult⟩ : ∃ r, r = j.command.conclude verdict := ⟨_, rfl⟩
  obtain ⟨q, hq⟩ : ∃ q, q = p.recordAttempt j f result := ⟨_, rfl⟩
  have hbearing : q.bearing = p.bearing := by rw [hq, bearing_recordAttempt]
  have hcounted : { q with context := q.context.recordCommand }.bearing = p.bearing := hbearing
  unfold land
  dsimp only
  rw [← hresult, ← hq]
  split
  · refine Follows.of_left ?_
    rw [← hcounted, ← bearing_leaveWaiting]
    exact follows_finishLine
  · split
    · refine .inr ⟨?_, rfl⟩
      rw [bearing_leaveWaiting, hbearing]
    · exact follows_attemptFailed.of_bearing hcounted

/-- A text is shown, or its line is done at once. -/
lemma follows_beginText {text : String} : Follows false p.bearing (p.beginText w text) := by
  unfold beginText
  split
  · split
    · exact .inr ⟨(Bearing.left_false _).symm, rfl⟩
    · exact .inl ⟨rfl, rfl⟩
  · exact follows_finishLine

lemma follows_presented {verdict : Except Failure Unit} :
    Follows false p.bearing (p.presented w verdict) := by
  unfold presented
  split
  · exact follows_finishLine
  · split
    · exact .inr ⟨(Bearing.left_false _).symm, rfl⟩
    · exact follows_handleFault

/-- A line that goes on follows its phase. -/
lemma follows_stepLine (p : Player) (line : LinePhase) :
    p.stepLine line = (p, .blocked) ∨ Follows line.entered p.bearing (p.stepLine line) := by
  cases line with
  | flying j f =>
    simp only [stepLine]
    split
    · exact .inr follows_land
    · exact .inl rfl
  | resting j until_ =>
    simp only [stepLine]
    split
    · exact .inr (.inr ⟨bearing_leaveWaiting p j, rfl⟩)
    · split
      · exact .inr follows_launch
      · exact .inl rfl
  | presenting w until_ verdict =>
    simp only [stepLine]
    split
    · exact .inr (.inr ⟨(Bearing.left_false _).symm, rfl⟩)
    · split
      · exact .inr follows_presented
      · exact .inl rfl
  | switching w caller script recovered => exact .inr follows_switchScript

/-- A line that begins shows it and follows from there, with the state changed for a command of a
playback that is not paused.  At the end of the script nothing begins. -/
lemma follows_beginLine (p : Player) (token : Token) :
    (p.beginLine token).1.bearing = p.bearing ∧
        (p.beginLine token).2 = .ends (.finished .completed) ∨
      ∃ index entered, (entered = true → p.state = .playing) ∧
        Follows entered (p.bearing.begins index entered) (p.beginLine token) := by
  obtain ⟨q, hq⟩ : ∃ q, q = { p with context := p.context.settleCursor } := ⟨_, rfl⟩
  have hbearing : q.bearing = p.bearing := by rw [hq]; rfl
  have hstate : q.state = p.state := by rw [hq]; rfl
  unfold beginLine
  dsimp only
  rw [← hq]
  split
  · exact .inl ⟨hbearing, rfl⟩
  · next line _ =>
    obtain ⟨index, hindex⟩ : ∃ n, n = p.context.settleCursor.cursor := ⟨_, rfl⟩
    refine .inr ⟨index, ?_⟩
    obtain ⟨r, hr⟩ : ∃ r, r = q.publish p.run (.lineExecuting index line.source) := ⟨_, rfl⟩
    have hunentered : r.bearing = p.bearing.begins index false := by
      rw [hr, bearing_publish_begins, hbearing]
    have hrstate : r.state = p.state := by rw [hr, ← hstate]; rfl
    rw [← hindex, ← hr]
    split
    · next command =>
      unfold beginCommand
      split
      · refine ⟨false, fun h => Bool.noConfusion h, ?_⟩
        rw [← hunentered]
        exact follows_handleFault
      · by_cases hplaying : r.state = .playing
        · have hentered : p.bearing.begins index true =
              { r.bearing with state := .waiting } := by
            rw [hunentered]
            rfl
          refine ⟨true, fun _ => hrstate ▸ hplaying, ?_⟩
          rw [hentered, moveFrom_eq _ _ hplaying rfl, ← bearing_commit]
          exact follows_launch
        · refine ⟨false, fun h => Bool.noConfusion h, ?_⟩
          rw [← hunentered, moveFrom_eq_of_ne _ _ hplaying]
          exact follows_launch
    · refine ⟨false, fun h => Bool.noConfusion h, ?_⟩
      rw [← hunentered]
      exact follows_beginText

end Player

end Recital

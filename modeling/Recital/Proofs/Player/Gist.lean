import Recital.Player.Request
import Mathlib.Tactic.Common

/-!
# The gist of a player

Much of what a player does is keeping records: events, statistics, samples, traces and readings of
the clock.  The gist of a player leaves them out.  It consists of the fields that decide how a
playback goes on (`Player.core`), the state of the playback, and the milestones among the events
that were published: the lines that were begun and the scripts that were started.

Each operation that only keeps records leaves the gist as it is, and the other ones are described
here by what they do to the gist.
-/

namespace Recital

/-- An event that tells where a playback has got to. -/
inductive Milestone
  /-- A line is being executed. -/
  | line (index : Nat)
  /-- A script was started, or the playback continues in it. -/
  | script (name : String)
deriving DecidableEq

namespace Event.Payload

/-- The milestone that a payload is. -/
def milestone? : Payload → Option Milestone
  | lineExecuting index _ => some (.line index)
  | scriptStarted script => some (.script script)
  | _ => none

end Event.Payload

/-- The milestones among the events of a bus. -/
def Bus.course (b : Bus) : List Milestone := b.log.toList.filterMap (·.payload.milestone?)

namespace Player

variable (p : Player) (run : Run) (w : Work) (j : Job) (f : Flight)

/-- The fields of a player that decide how a playback goes on. -/
def core : Player :=
  { p with
    bus := { capacity := 0, closed := p.bus.closed }
    store := none
    cell := {}
    ledger := {}
    attempts := {}
    now := 0
    readings := 0
    draws := 0
    trace := #[]
    samples := #[]
    notes := #[] }

/-- The part of a player that is left when records are left out. -/
structure Gist where
  /-- The fields that decide how a playback goes on. -/
  core : Player
  /-- The state of the playback. -/
  state : State
  /-- Where playbacks have got to. -/
  course : List Milestone

/-- The gist of a player. -/
def gist : Gist := ⟨p.core, p.state, p.bus.course⟩

/-! ### Record keeping -/

/-- Publishing an event keeps records only. -/
lemma core_publish (e : Event.Payload) : (p.publish run e).core = p.core := by
  simp only [publish, Bus.publish, core]
  split <;> rfl

/-- Publishing an event that is no milestone. -/
lemma gist_publish {e : Event.Payload} (h : e.milestone? = none) :
    (p.publish run e).gist = p.gist := by
  have hcourse : (p.publish run e).bus.course = p.bus.course := by
    simp only [publish, Bus.publish]
    split
    · rfl
    · simp [Bus.course, h]
  simp only [gist, hcourse, core_publish]
  rfl

/-- Publishing a milestone. -/
lemma gist_publish_milestone {e : Event.Payload} {m : Milestone} (h : e.milestone? = some m)
    (hopen : p.bus.closed = false) :
    (p.publish run e).gist = { p.gist with course := p.bus.course ++ [m] } := by
  have hcourse : (p.publish run e).bus.course = p.bus.course ++ [m] := by
    simp [publish, Bus.publish, hopen, Bus.course, h]
  simp only [gist, hcourse, core_publish]
  rfl

@[simp] lemma gist_publishProgress : p.publishProgress.gist = p.gist :=
  p.gist_publish _ rfl

/-- A pause takes no effect when none was asked for. -/
lemma applyPause_eq (h : p.pauseRequested = false) : p.applyPause run = p := by
  simp [applyPause, h]

/-- The end of a line changes nothing when no pause was asked for. -/
lemma gist_closeLine {b : LineEnd} (h : p.pauseRequested = false) :
    (p.closeLine w b).1.gist = p.gist := by
  have hpause : p.publishProgress.pauseRequested = false := h
  simp only [closeLine, applyPause_eq _ _ hpause, gist_publishProgress]

@[simp] lemma gist_recordAttempt {result : Except Failure Flow} :
    (p.recordAttempt j f result).gist = p.gist := by
  have hpublish := gist_publish
    { p with
      ledger := p.ledger.record j.command.type (Span.ofMillis (p.stopwatch - f.since)) result }
    j.work.run (e := .commandExecuted j.work.index j.command.type result.toOption.isSome) rfl
  unfold recordAttempt
  dsimp only
  split
  · exact hpublish
  · exact hpublish

@[simp] lemma gist_countAttempt : (p.countAttempt j).gist = p.gist := by
  unfold countAttempt
  split <;> rfl

@[simp] lemma gist_measureMemory : p.measureMemory.gist = p.gist := by
  unfold measureMemory
  dsimp only
  split
  · split <;> rfl
  · rfl

@[simp] lemma gist_write {key : String} {s : Snapshot} : (p.write key s).2.gist = p.gist := by
  unfold write
  split <;> rfl

@[simp] lemma gist_backoff {policy : Policy} {attempt : Nat} :
    (p.backoff policy attempt).2.gist = p.gist := by
  unfold backoff
  split <;> rfl

/-! ### Changes of state -/

/-- A move from the expected state is made if it is allowed. -/
lemma moveFrom_eq_ite {a b : State} :
    p.moveFrom run a b =
      if p.state = a ∧ a.allows b = true then (true, p.commit run (p.cell.commit b))
      else (false, p) := by
  by_cases h : p.state = a ∧ a.allows b = true
  · have hcell : p.cell.moveFrom a b = some (p.cell.commit b) := if_pos h
    simp only [moveFrom, hcell, if_pos h]
  · have hcell : p.cell.moveFrom a b = none := if_neg h
    simp only [moveFrom, hcell, if_neg h]

/-- A move is made if it is allowed. -/
lemma moveIfAllowed_eq_ite {b : State} :
    p.moveIfAllowed run b =
      if p.state.allows b = true then p.commit run (p.cell.commit b) else p := by
  by_cases h : p.state.allows b = true
  · have hcell : p.cell.moveIfAllowed b = some (p.cell.commit b) := if_pos h
    simp only [moveIfAllowed, hcell, if_pos h]
  · have hcell : p.cell.moveIfAllowed b = none := if_neg h
    simp only [moveIfAllowed, hcell, if_neg h]

/-- The state goes back to `idle` unless it is there. -/
lemma resetState_eq_ite :
    p.resetState run = if p.state = .idle then p else p.commit run (p.cell.commit .idle) := by
  by_cases h : p.state = .idle
  · have hcell : p.cell.reset = none := if_pos h
    simp only [resetState, hcell, if_pos h]
  · have hcell : p.cell.reset = some (p.cell.commit .idle) := if_neg h
    simp only [resetState, hcell, if_neg h]

/-- A move from the state that the playback is in. -/
lemma moveFrom_eq {a b : State} (h : p.state = a) (hab : a.allows b = true) :
    p.moveFrom run a b = (true, p.commit run (p.cell.commit b)) := by
  rw [moveFrom_eq_ite, if_pos ⟨h, hab⟩]

/-- A move from another state is not made. -/
lemma moveFrom_eq_of_ne {a b : State} (h : p.state ≠ a) : p.moveFrom run a b = (false, p) := by
  rw [moveFrom_eq_ite, if_neg fun hab => h hab.1]

/-- A change of state changes nothing else. -/
lemma gist_commit {b : State} :
    (p.commit run (p.cell.commit b)).gist = { p.gist with state := b } := by
  unfold commit
  rw [gist_publish _ _ rfl]
  rfl

/-- A move from one state to another changes the state at most. -/
lemma gist_moveFrom {a b : State} :
    (p.moveFrom run a b).2.gist = { p.gist with state := (p.moveFrom run a b).2.state } := by
  rw [moveFrom_eq_ite]
  split
  · rw [gist_commit]
    rfl
  · rfl

/-- A move that is made if it is allowed changes the state at most. -/
lemma gist_moveIfAllowed {b : State} :
    (p.moveIfAllowed run b).gist = { p.gist with state := (p.moveIfAllowed run b).state } := by
  rw [moveIfAllowed_eq_ite]
  split
  · rw [gist_commit]
    rfl
  · rfl

/-- Going back to `idle` changes the state only. -/
lemma gist_resetState : (p.resetState run).gist = { p.gist with state := .idle } := by
  rw [resetState_eq_ite]
  split
  · next h =>
    rw [← h]
    rfl
  · exact gist_commit p run

/-! ### Stopping -/

/-- A playback that is cancelled is noted by its number. -/
lemma cancelRun_eq :
    p.cancelRun = { p with cancelled := (p.token.map Token.id).toList ++ p.cancelled } := by
  unfold cancelRun
  split
  · next t ht =>
    have hlist : (p.token.map Token.id).toList ++ p.cancelled = t.id :: p.cancelled := by
      rw [ht]
      rfl
    rw [hlist]
  · next hnone =>
    have hlist : (p.token.map Token.id).toList ++ p.cancelled = p.cancelled := by
      rw [hnone]
      rfl
    rw [hlist]

/-- What a stop changes does not depend on whether a pause was asked for. -/
lemma exists_stop : ∃ cell bus stopRequested cancelled, ∀ pauseRequested,
    { p with pauseRequested }.stop =
      { p with pauseRequested, cell, bus, stopRequested, cancelled } := by
  by_cases hactive : p.state.isActive = true
  · have hstop : ∀ pauseRequested, { p with pauseRequested }.stop =
        ({ p with pauseRequested, stopRequested := true }.moveIfAllowed p.run .stopped).cancelRun :=
      fun _ => if_pos hactive
    by_cases hallows : p.state.allows .stopped = true
    · have hmoved : ∀ pauseRequested,
          { p with pauseRequested, stopRequested := true }.moveIfAllowed p.run .stopped =
            { p with pauseRequested, stopRequested := true }.commit p.run
              (p.cell.commit .stopped) :=
        fun _ => (moveIfAllowed_eq_ite _ _).trans (if_pos hallows)
      refine ⟨(p.cell.commit .stopped).1, (p.commit p.run (p.cell.commit .stopped)).bus, true,
        (p.token.map Token.id).toList ++ p.cancelled, fun pauseRequested => ?_⟩
      rw [hstop, hmoved, cancelRun_eq]
      rfl
    · have hsame : ∀ pauseRequested,
          { p with pauseRequested, stopRequested := true }.moveIfAllowed p.run .stopped =
            { p with pauseRequested, stopRequested := true } :=
        fun _ => (moveIfAllowed_eq_ite _ _).trans (if_neg hallows)
      refine ⟨p.cell, p.bus, true, (p.token.map Token.id).toList ++ p.cancelled,
        fun pauseRequested => ?_⟩
      rw [hstop, hsame, cancelRun_eq]
  · exact ⟨p.cell, p.bus, p.stopRequested, p.cancelled, fun _ => if_neg hactive⟩

/-- A stop changes the state and what is told of it, and what is stopped and cancelled. -/
lemma exists_stop_eq : ∃ cell bus stopRequested cancelled,
    p.stop = { p with cell, bus, stopRequested, cancelled } := by
  obtain ⟨cell, bus, stopRequested, cancelled, hstop⟩ := p.exists_stop
  exact ⟨cell, bus, stopRequested, cancelled, hstop p.pauseRequested⟩

/-! ### Checkpoints -/

/-- Setting the checkpoint changes what recovery knows only. -/
lemma gist_setCheckpoint :
    p.setCheckpoint.gist =
      { p.gist with core := { p.core with recovery := p.setCheckpoint.recovery } } := by
  unfold setCheckpoint
  split <;> rfl

/-- The checkpoint shows where the playback of a script stands. -/
lemma setCheckpoint_checkpoint {script : Script} (h : p.context.script = some script) :
    p.setCheckpoint.recovery.checkpoint = p.context.snapshot? (Instant.ofMillis p.now) := by
  simp [setCheckpoint, Context.snapshot?, h, Recovery.setCheckpoint]

/-! ### Variables and the log -/

/-- Setting a variable changes the context only. -/
lemma gist_setVariable {name : String} {value : Json} :
    (p.setVariable run name value).gist =
      { p with context := p.context.assign name value }.gist := by
  unfold setVariable
  exact gist_publish _ _ rfl

/-- Publishing that variables are removed keeps records only. -/
lemma gist_foldl_publish (names : List String) :
    (names.foldl (fun p name => p.publish run (.variableChanged name none)) p).gist = p.gist := by
  induction names generalizing p with
  | nil => rfl
  | cons name names ih =>
    rw [List.foldl_cons, ih]
    exact gist_publish _ _ rfl

/-- Removing all variables changes the context only. -/
lemma gist_clearVariables :
    (p.clearVariables run).gist = { p with context := p.context.clearVariables }.gist := by
  unfold clearVariables
  exact gist_foldl_publish _ _ _

end Player

end Recital

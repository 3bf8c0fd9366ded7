import Recital.Player.Line
import Mathlib.Tactic.Common

/-!
# The course of a line

A line changes the variables, the counts and the script of a playback, and it says so: what it does
is a chain of deeds (`Deed`), each of which comes with the events that tell of it and takes the line
from one point to the next.  A line is begun, its command is attempted and lands, once or several
times, it is executed or fails, and it may lead into another script.  Between the deeds there are
only plain events, which tell of the state and of the progress of the playback.

Two things leave no trace among the events: an attempt that is cut short, which is not counted, and
the return to a snapshot.  A course lists them as remarks, and it remarks which run has called
another script.
-/

namespace Recital

/-! ### Points, stages and grounds -/

/-- How far a line has come. -/
inductive Point
  | begun
  /-- An attempt of its command is in flight. -/
  | flying (attempt : Nat)
  /-- An attempt has ended. -/
  | landed (attempt : Nat)
  /-- An attempt has failed, and another one is to follow. -/
  | resting (attempt : Nat)
  | executed
  | failed
deriving DecidableEq

namespace Point

/-- Nothing has been said of how the line came out, and no attempt is in flight or to come. -/
def isOpen : Point → Bool
  | begun | landed _ => true
  | _ => false

/-- No attempt is in flight. -/
def isIdle : Point → Bool
  | flying _ => false
  | _ => true

/-- No attempt is in flight or to come. -/
def isDone : Point → Bool
  | flying _ | resting _ => false
  | _ => true

end Point

/-- How far a run has come. -/
inductive Stage
  /-- A script was started, and no line since. -/
  | started
  | line (index : Nat) (point : Point)
deriving DecidableEq

namespace Stage

/-- Another line may follow. -/
def mayGoOn : Stage → Bool
  | started => true
  | line _ point => point.isDone

/-- The end of the run may follow. -/
def mayEnd : Stage → Bool
  | started => true
  | line _ point => point.isIdle

variable {σ : Stage}

lemma mayEnd_of_mayGoOn (h : σ.mayGoOn = true) : σ.mayEnd = true := by
  cases σ with
  | started => rfl
  | line index point =>
    cases point with
    | flying => cases h
    | _ => rfl

end Stage

lemma Point.isDone_of_isOpen {point : Point} (h : point.isOpen = true) : point.isDone = true := by
  cases point with
  | begun | landed => rfl
  | _ => cases h

/-- The stage suits the way in which a line has ended. -/
def LineEnd.suits : LineEnd → Stage → Bool
  | .next, σ => σ.mayGoOn
  | .finished _, σ => σ.mayEnd

lemma LineEnd.suits_of_mayGoOn {σ : Stage} (by_ : LineEnd) (h : σ.mayGoOn = true) :
    by_.suits σ = true := by
  cases by_ with
  | next => exact h
  | finished f => exact Stage.mayEnd_of_mayGoOn h

/-- The stage of a run whose line is in a phase. -/
def LinePhase.stage : LinePhase → Stage
  | .flying j _ => .line j.work.index (.flying j.attempt)
  | .resting j _ => .line j.work.index (.resting j.attempt)
  | .presenting w _ _ => .line w.index .begun
  | .switching w _ _ _ => .line w.index .executed

/-- What lines change, as far as events or remarks tell of it, and what they stand on. -/
structure Ground where
  run : Run
  /-- The next identifier. -/
  serial : Nat
  script : Option Script
  labels : Table Nat
  checkpoint : Option Snapshot
  vars : Table Json
  lines : Nat
  commands : Nat
  /-- No playback is started any more. -/
  isShutDown : Bool

/-- The ground of a player. -/
def Player.ground (p : Player) : Ground :=
  { run := p.run
    serial := p.serial
    script := p.context.script
    labels := p.context.labels
    checkpoint := p.recovery.checkpoint
    vars := p.context.vars
    lines := p.context.linesExecuted
    commands := p.context.commandsExecuted
    isShutDown := p.isShutDown }

/-! ### Events -/

/-- An event that tells of the state or the progress of a playback, or of a breakpoint. -/
def Event.Payload.isPlain : Event.Payload → Bool
  | stateChanged .. | progressChanged _ | breakpointHit _ => true
  | _ => false

namespace Bus

variable {b : Bus} {news more : List Event}

/-- Publishes several events. -/
def tell (b : Bus) (news : List Event) : Bus := news.foldl publish b

lemma tell_append : b.tell (news ++ more) = (b.tell news).tell more := List.foldl_append

lemma closed_tell : (b.tell news).closed = b.closed := by
  induction news generalizing b with
  | nil => rfl
  | cons e news ih =>
    have hpublish : (b.publish e).closed = b.closed := by
      unfold publish
      split <;> rfl
    exact ih.trans hpublish

/-- An open bus takes all events. -/
lemma log_tell (h : b.closed = false) : (b.tell news).log.toList = b.log.toList ++ news := by
  induction news generalizing b with
  | nil => simp [tell]
  | cons e news ih =>
    have hpublish : b.publish e = { b with log := b.log.push e } := by
      unfold publish
      rw [if_neg (by simp [h])]
    have hrest := ih (b := b.publish e) (by rw [hpublish]; exact h)
    rw [show b.tell (e :: news) = (b.publish e).tell news from rfl, hrest, hpublish]
    simp

/-- A closed bus takes none. -/
lemma tell_of_closed (h : b.closed = true) : b.tell news = b := by
  induction news with
  | nil => rfl
  | cons e news ih =>
    have hpublish : b.publish e = b := by
      unfold publish
      rw [if_pos h]
    rw [show b.tell (e :: news) = (b.publish e).tell news from rfl, hpublish, ih]

end Bus

/-! ### Deeds -/

/-- Something of which no event tells, or not all. -/
inductive Remark
  /-- An attempt was cut short and does not count. -/
  | interrupted
  /-- The playback has returned to a snapshot. -/
  | restored (s : Snapshot)
  /-- A script was called from a run. -/
  | called (caller : Run)

/-- What may be done for a line, with the events that tell of it and what has to be remarked. -/
inductive Deed (w : Work) :
    Stage → Ground → List Event → List Remark → Stage → Ground → Prop
  /-- Nothing that is kept account of. -/
  | tells {σ : Stage} {g : Ground} {e : Event} (hplain : e.payload.isPlain = true)
    (hrun : e.run = w.run ∨ e.run = g.run) : Deed w σ g [e] [] σ g
  | assigns {σ : Stage} {g : Ground} {run : Run} {at_ : Instant} {name : String} {value : Json}
    (hrun : run = w.run ∨ run = g.run) :
    Deed w σ g [⟨.variableChanged name (some value), at_, run⟩] [] σ
      { g with vars := g.vars.insert name value }
  | clears {σ : Stage} {g : Ground} {run : Run} {at_ : Instant} (hrun : run = w.run ∨ run = g.run) :
    Deed w σ g (g.vars.keys.map fun name => ⟨.variableChanged name none, at_, run⟩) [] σ
      { g with vars := ∅ }
  | begins {σ : Stage} {g : Ground} {at_ : Instant} (hσ : σ.mayGoOn = true) (hrun : w.run = g.run) :
    Deed w σ g [⟨.lineExecuting w.index w.source, at_, w.run⟩] [] (.line w.index .begun) g
  | launches {g : Ground} {at_ : Instant} {type : String} :
    Deed w (.line w.index .begun) g [⟨.commandExecuting w.index type, at_, w.run⟩] []
      (.line w.index (.flying 1)) g
  | launchesAgain {g : Ground} {at_ : Instant} {type : String} {n : Nat} :
    Deed w (.line w.index (.resting n)) g [⟨.commandExecuting w.index type, at_, w.run⟩] []
      (.line w.index (.flying (Word.next 32 n))) g
  | lands {g : Ground} {at_ : Instant} {type : String} {success : Bool} {n : Nat} :
    Deed w (.line w.index (.flying n)) g [⟨.commandExecuted w.index type success, at_, w.run⟩] []
      (.line w.index (.landed n)) { g with commands := Word.next 64 g.commands }
  /-- The playback was cancelled while an attempt was in flight. -/
  | interrupts {g : Ground} {at_ : Instant} {type : String} {success : Bool} {n : Nat} :
    Deed w (.line w.index (.flying n)) g [⟨.commandExecuted w.index type success, at_, w.run⟩]
      [.interrupted] (.line w.index (.landed n)) g
  | retries {g : Ground} {at_ : Instant} {type : String} {n delay : Nat} :
    Deed w (.line w.index (.landed n)) g [⟨.commandRetrying w.index type n delay, at_, w.run⟩] []
      (.line w.index (.resting n)) g
  | executes {g : Ground} {at_ : Instant} {point : Point} (hpoint : point.isOpen = true) :
    Deed w (.line w.index point) g [⟨.lineExecuted w.index w.source, at_, w.run⟩] []
      (.line w.index .executed) { g with lines := Word.next 64 g.lines }
  /-- A fault is passed over. -/
  | fails {g : Ground} {at_ : Instant} {point : Point} {fault : Fault}
    (hpoint : point.isOpen = true ∨ point = .executed) :
    Deed w (.line w.index point) g [⟨.lineFailed w.index fault, at_, w.run⟩] []
      (.line w.index .failed) g
  | restores {σ : Stage} {g : Ground} {s : Snapshot} :
    Deed w σ g [] [.restored s] σ
      { g with vars := s.vars, lines := s.linesExecuted, commands := s.commandsExecuted }
  /-- The playback continues in another script, in a run that is a child of the caller's. -/
  | enters {g : Ground} {at_ : Instant} {caller : Run} {name : String} {script : Script}
    {c : Snapshot} (hc : c.scriptName = script.name) :
    Deed w (.line w.index .executed) g [⟨.scriptStarted name, at_, caller.child g.serial⟩]
      [.called caller] .started
      { g with
        run := caller.child g.serial
        serial := g.serial + 1
        script := some script
        labels := script.survey.labels
        checkpoint := some c }

/-- What is done for a line, one deed after another. -/
inductive Course (w : Work) :
    Stage → Ground → List Event → List Remark → Stage → Ground → Prop
  | done {σ : Stage} {g : Ground} : Course w σ g [] [] σ g
  | next {σ τ υ : Stage} {g h k : Ground} {news more : List Event} {remarks further : List Remark}
    (hdeed : Deed w σ g news remarks τ h) (hcourse : Course w τ h more further υ k) :
    Course w σ g (news ++ more) (remarks ++ further) υ k

namespace Course

variable {w : Work} {σ τ υ : Stage} {g h k : Ground} {news more : List Event}
  {remarks further : List Remark}

lemma single (hdeed : Deed w σ g news remarks τ h) : Course w σ g news remarks τ h := by
  have hcourse := Course.next hdeed .done
  rwa [List.append_nil, List.append_nil] at hcourse

lemma trans (hgh : Course w σ g news remarks τ h) (hhk : Course w τ h more further υ k) :
    Course w σ g (news ++ more) (remarks ++ further) υ k := by
  induction hgh with
  | done => exact hhk
  | next hdeed _ ih =>
    rw [List.append_assoc, List.append_assoc]
    exact .next hdeed (ih hhk)

/-- Plain events change nothing. -/
lemma of_plain (hplain : ∀ e ∈ news, e.payload.isPlain = true ∧ (e.run = w.run ∨ e.run = g.run)) :
    Course w σ g news [] σ g := by
  induction news with
  | nil => exact .done
  | cons e news ih =>
    obtain ⟨hhead, hrest⟩ := List.forall_mem_cons.mp hplain
    have hfirst : Deed w σ g [e] [] σ g := .tells hhead.1 hhead.2
    exact .next hfirst (ih hrest)

end Course

end Recital

import Recital.Proofs.Player.Bearing
import Recital.Proofs.Word

/-!
# Lines come to their ends

Nothing that a line waits for takes for ever: an attempt has a limit, and so have the delay before
the next attempt and the time that a text is shown (`LinePhase.deadline`).  After each of them the
line has fewer attempts left, or only a script to be loaded, or it ends (`LinePhase.rank`).

Attempts are numbered in words, so this needs that a policy leaves a word for the attempt after its
last retry (`Host.Relents`).
-/

namespace Recital

/-- No policy grants so many retries that the number of an attempt turns over to zero. -/
def Host.Relents (h : Host) : Prop := ∀ type, (h.policy type).maxRetries + 1 < 2 ^ 32

namespace LinePhase

/-- How much a line has still to do in the worst case. -/
def rank (h : Host) : LinePhase → Nat
  | .flying j _ => 3 * ((h.policy j.command.type).maxRetries + 1 - j.attempt) + 2
  | .resting j _ => 3 * ((h.policy j.command.type).maxRetries + 1 - Word.next 32 j.attempt) + 3
  | .presenting .. => 1
  | .switching .. => 0

/-- When a phase of a line is over at the latest. -/
def deadline : LinePhase → Nat
  | .flying _ f => f.limit
  | .resting _ until_ => until_
  | .presenting _ until_ _ => until_
  | .switching .. => 0

end LinePhase

namespace Player

variable {p : Player} {h : Host} {n : Nat} {w : Work} {j : Job} {f : Flight}

/-- The line has ended, or has less to do than so much. -/
def Declines (h : Host) (n : Nat) (x : Player × LineProgress) : Prop :=
  match x.2 with
  | .blocked => False
  | .goes line => line.rank h < n
  | .ends _ => True

lemma declines_applyFlow {flow : Flow} {recovered : Bool} (hn : 0 < n) :
    Declines h n (p.applyFlow w flow recovered) := by
  unfold applyFlow
  split
  · exact trivial
  · dsimp only
    split
    · exact trivial
    · exact trivial
    · exact trivial
    · exact trivial
    · exact trivial
    · split
      · exact trivial
      · exact hn

lemma declines_finishLine {flow : Flow} {recovered : Bool} (hn : 0 < n) :
    Declines h n (p.finishLine w flow recovered) := declines_applyFlow hn

lemma declines_switchScript {caller : Run} {script : String} {recovered : Bool} :
    Declines h n (p.switchScript w caller script recovered) := by
  unfold switchScript
  split <;> exact trivial

lemma declines_handleFault {fault : Fault} {policy : Policy} (hn : 0 < n) :
    Declines h n (p.handleFault w fault policy) := by
  unfold handleFault
  split
  · exact trivial
  · dsimp only
    split
    · exact declines_finishLine hn
    · exact trivial
    · exact trivial
    · exact trivial
    · exact trivial

lemma declines_launch (hn : (LinePhase.flying j f).rank h < n) : Declines h n (p.launch j) := by
  unfold launch
  dsimp only
  split <;> exact hn

lemma declines_attemptFailed (hrelents : p.host.Relents) {failure : Failure} :
    Declines p.host ((LinePhase.flying j f).rank p.host) (p.attemptFailed j failure) := by
  unfold attemptFailed
  dsimp only
  split
  · next hretry =>
    rw [Bool.and_eq_true, decide_eq_true_eq] at hretry
    have hleft : j.attempt ≤ (p.host.policy j.command.type).maxRetries := hretry.2
    have hnext : Word.next 32 j.attempt = j.attempt + 1 :=
      Word.next_of_lt (Nat.lt_of_le_of_lt (Nat.succ_le_succ hleft) (hrelents j.command.type))
    simp only [Declines, LinePhase.rank, hnext]
    omega
  · refine declines_handleFault ?_
    simp only [LinePhase.rank]
    omega

lemma declines_land (hrelents : p.host.Relents) {verdict : Except Failure CommandResult} :
    Declines p.host ((LinePhase.flying j f).rank p.host) (p.land j f verdict) := by
  have hrank : 0 < (LinePhase.flying j f).rank p.host := by
    simp only [LinePhase.rank]
    omega
  have hhost : ∀ result, (p.recordAttempt j f result).host = p.host := fun result =>
    congrArg (fun b : Bearing => b.rest.host) (bearing_recordAttempt p j f)
  unfold land
  dsimp only
  split
  · exact declines_finishLine hrank
  · split
    · exact trivial
    · rw [← hhost (j.command.conclude verdict)] at hrelents ⊢
      refine declines_attemptFailed ?_
      exact hrelents

/-- A line waits until its deadline at the latest and then has less to do. -/
lemma declines_stepLine (hrelents : p.host.Relents) (line : LinePhase) :
    (p.stepLine line = (p, .blocked) ∧ p.now < line.deadline) ∨
      Declines p.host (line.rank p.host) (p.stepLine line) := by
  cases line with
  | flying j f =>
    simp only [stepLine]
    split
    · exact .inr (declines_land hrelents)
    · next hlanding =>
      refine .inl ⟨rfl, ?_⟩
      unfold landing at hlanding
      split at hlanding
      · cases hlanding
      · split at hlanding
        · cases hlanding
        · split at hlanding
          · cases hlanding
          · next hlimit => exact Nat.lt_of_not_le hlimit
  | resting j until_ =>
    simp only [stepLine]
    split
    · exact .inr trivial
    · split
      · refine .inr (declines_launch (f := p.stillborn) ?_)
        simp only [LinePhase.rank]
        omega
      · next huntil => exact .inl ⟨rfl, Nat.lt_of_not_le huntil⟩
  | presenting w until_ verdict =>
    simp only [stepLine]
    split
    · exact .inr trivial
    · split
      · refine .inr ?_
        unfold presented
        split
        · exact declines_finishLine Nat.one_pos
        · split
          · exact trivial
          · exact declines_handleFault Nat.one_pos
      · next huntil => exact .inl ⟨rfl, Nat.lt_of_not_le huntil⟩
  | switching w caller script recovered => exact .inr declines_switchScript

end Player

end Recital

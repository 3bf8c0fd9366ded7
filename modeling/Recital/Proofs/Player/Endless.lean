import Recital.Proofs.Player.LineEnds
import Recital.Proofs.Player.Line

/-!
# Attempts without end

Where a policy grants as many retries as a word can hold, no attempt is the last one: whatever
number an attempt has, it is not above the number of retries, and after the greatest number comes
zero.  A command that fails each time with a fault that is retried is then attempted for ever.
-/

namespace Recital

/-- The fault of a failure of the command is retried. -/
def Command.Repeats (h : Host) (c : Command) (failure : Failure) : Prop :=
  (failure.classify c.type (h.policy c.type)).retryable = true

/-- The policy grants as many retries as a word can hold, and each attempt of the command fails with
a fault that is retried, at its limit as well. -/
structure Command.Insists (h : Host) (c : Command) : Prop where
  greatest : 2 ^ 32 - 1 ≤ (h.policy c.type).maxRetries
  fails : ∀ n view, ∃ failure, (c.attempt n view).verdict = .error failure ∧ c.Repeats h failure
  late : ∀ elapsed, c.Repeats h (.timedOut elapsed)

/-- Such a command is being attempted by the playback of the token. -/
structure Job.Insists (h : Host) (token : Token) (entered : Bool) (j : Job) : Prop where
  command : j.command.Insists h
  word : j.attempt < 2 ^ 32
  token : j.work.token = token
  entered : j.entered = entered

/-- The line attempts such a command: the attempt in flight will fail, or the next one is waited
for. -/
def LinePhase.Insists (h : Host) (token : Token) (entered : Bool) : LinePhase → Prop
  | .flying j f => j.Insists h token entered ∧
      ∃ failure, f.verdict = .error failure ∧ j.command.Repeats h failure
  | .resting j _ => j.Insists h token entered
  | .presenting .. | .switching .. => False

namespace Player

variable {p q : Player} {token : Token} {entered : Bool} {j : Job} {f : Flight} {line : LinePhase}

/-- The line goes on with its attempts, and nothing that requests go by has changed. -/
structure Retries (p : Player) (token : Token) (entered : Bool) (x : Player × LineProgress) :
    Prop where
  bearing : x.1.bearing = p.bearing
  line : ∃ line, x.2 = .goes line ∧ line.Insists p.host token entered

/-- The next attempt will fail as well. -/
lemma retries_launch (hgoing : p.isCancelled token = false) (hj : j.Insists p.host token entered) :
    Retries p token entered (p.launch j) := by
  have hgoing' : p.isCancelled j.work.token = false := by
    rw [hj.token]
    exact hgoing
  obtain ⟨n, q, f, attempt, hlaunch, hattempt, -, hverdict, -⟩ := launch_spec hgoing'
  obtain ⟨failure, hfails, hrepeats⟩ :=
    hj.command.fails n (p.context.view j.work.index j.work.script)
  have hflight : f.verdict = .error failure := by rw [hverdict, hattempt, hfails]
  refine ⟨bearing_launch.1, .flying j f, ?_, hj, failure, hflight, hrepeats⟩
  rw [hlaunch]

/-- After a failure another attempt is waited for. -/
lemma retries_land {failure : Failure} (hgoing : p.isCancelled token = false)
    (hj : j.Insists p.host token entered) (hrepeats : j.command.Repeats p.host failure) :
    Retries p token entered (p.land j f (.error failure)) := by
  obtain ⟨q, hq⟩ : ∃ q, q = p.recordAttempt j f (.error failure) := ⟨_, rfl⟩
  have hbearing : q.bearing = p.bearing := by rw [hq, bearing_recordAttempt]
  have hhost : q.host = p.host := congrArg (fun b : Bearing => b.rest.host) hbearing
  have hqgoing : q.isCancelled j.work.token = false := by
    rw [hj.token]
    exact (congrArg (fun b : Bearing => b.rest.isCancelled token) hbearing).trans hgoing
  have hland : p.land j f (.error failure) =
      { q with context := q.context.recordCommand }.attemptFailed j failure := by
    have hconclude : j.command.conclude (.error failure) = .error failure := rfl
    simp only [land, hconclude, ← hq, hqgoing, Bool.false_eq_true, if_false]
  have hleft : j.attempt ≤ (q.host.policy j.command.type).maxRetries := by
    rw [hhost]
    exact Nat.le_trans (Nat.le_sub_one_of_lt hj.word) hj.command.greatest
  have hretried : ((failure.classify j.command.type (q.host.policy j.command.type)).retryable &&
      decide (j.attempt ≤ (q.host.policy j.command.type).maxRetries)) = true := by
    rw [decide_eq_true hleft, Bool.and_true, hhost]
    exact hrepeats
  rw [hland]
  unfold attemptFailed
  dsimp only
  split
  · refine ⟨?_, _, rfl, hj⟩
    rw [bearing_publish _ _ rfl, bearing_backoff]
    exact hbearing
  · next hnot => exact absurd hretried hnot

/-- A line that insists waits, or goes on with its attempts. -/
lemma retries_stepLine (hgoing : p.isCancelled token = false)
    (hline : line.Insists p.host token entered) :
    p.stepLine line = (p, .blocked) ∧ p.now < line.deadline ∨
      Retries p token entered (p.stepLine line) := by
  cases line with
  | flying j f =>
    obtain ⟨hj, failure, hfails, hrepeats⟩ := hline
    have hgoing' : p.isCancelled j.work.token = false := by
      rw [hj.token]
      exact hgoing
    simp only [stepLine]
    split
    · next verdict hlanding =>
      refine .inr ?_
      rcases landing_cases hgoing' hlanding with hends | ⟨⟨elapsed, hlate⟩, -⟩
      · rw [hends, hfails]
        exact retries_land hgoing hj hrepeats
      · rw [hlate]
        exact retries_land hgoing hj (hj.command.late elapsed)
    · next hlanding =>
      refine .inl ⟨rfl, ?_⟩
      by_contra hlimit
      obtain ⟨verdict, hlanded⟩ := exists_landing hgoing' (Nat.le_of_not_lt hlimit)
      cases hlanding.symm.trans hlanded
  | resting j until_ =>
    have hj : j.Insists p.host token entered := hline
    have hgoing' : p.isCancelled j.work.token = false := by
      rw [hj.token]
      exact hgoing
    have hnext : Job.Insists p.host token entered { j with attempt := Word.next 32 j.attempt } :=
      ⟨hj.command, Word.next_lt 32 _, hj.token, hj.entered⟩
    simp only [stepLine, hgoing', Bool.false_eq_true, if_false]
    split
    · exact .inr (retries_launch hgoing hnext)
    · next huntil => exact .inl ⟨rfl, Nat.lt_of_not_le huntil⟩
  | presenting | switching => exact hline.elim

end Player

end Recital

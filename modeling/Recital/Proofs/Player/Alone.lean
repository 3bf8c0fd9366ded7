import Recital.Player.Request
import Recital.Proofs.Inevitable

/-!
# Requests that nothing interferes with

While a request is alone with the player, nothing but time comes between its steps.  Time may pass
for as long as it likes before each of them, as long as the request can go on then.

A playback goes round in a loop, and each round begins where it asks for the line lock.  `Runs`
counts the rounds that were begun, and `After` looks at a playback after a number of rounds: it is
about to begin another one, or has ended before.
-/

namespace Recital

namespace Progress

/-- The playback is about to begin another round of its loop. -/
def isLoopHead : Progress → Bool
  | .goes (.playLock _) => true
  | _ => false

/-- The request has ended. -/
def isEnded : Progress → Bool
  | .ends _ => true
  | _ => false

/-- The report of a playback that has ended. -/
def report? : Progress → Option Report
  | .ends (.report r) => some r
  | _ => none

end Progress

namespace Player

variable {id n : Nat} {c d e : Player × Progress} {p q : Player}

/-- The player at another instant. -/
def at_ (p : Player) (now : Nat) : Player := { p with now }

/-- The request makes a step, now or later. -/
def Advances (id : Nat) (c d : Player × Progress) : Prop :=
  ∃ phase now, c.2 = .goes phase ∧ c.1.now ≤ now ∧ (c.1.at_ now).step id phase = d ∧
    d.2 ≠ .blocked

/-- The request makes a step that begins no round. -/
def AdvancesWithin (id : Nat) (c d : Player × Progress) : Prop :=
  c.2.isLoopHead = false ∧ Advances id c d

/-- Some steps, with which a number of rounds is begun. -/
inductive Runs (id : Nat) (c : Player × Progress) : Nat → Player × Progress → Prop
  | refl : Runs id c 0 c
  | within {n : Nat} {d e : Player × Progress} :
    Runs id c n d → d.2.isLoopHead = false → Advances id d e → Runs id c n e
  | round {n : Nat} {d e : Player × Progress} :
    Runs id c n d → d.2.isLoopHead = true → Advances id d e → Runs id c (n + 1) e

/-- A number of rounds are over, or the request has ended in fewer. -/
def After (id : Nat) (c : Player × Progress) (n : Nat) (d : Player × Progress) : Prop :=
  (Runs id c n d ∧ d.2.isLoopHead = true) ∨ ∃ k ≤ n, Runs id c k d ∧ d.2.isEnded = true

/-! ### Single steps -/

@[simp] lemma at_now (now : Nat) : (p.at_ now).now = now := rfl

@[simp] lemma at_state (now : Nat) : (p.at_ now).state = p.state := rfl

@[simp] lemma at_isCancelled (now : Nat) (t : Token) :
    (p.at_ now).isCancelled t = p.isCancelled t := rfl

/-- A request that has ended makes no step. -/
lemma not_advances_of_isEnded (h : c.2.isEnded = true) : ¬ Advances id c d := by
  rintro ⟨phase, now, hphase, -⟩
  rw [hphase] at h
  simp [Progress.isEnded] at h

/-- The steps from a phase. -/
lemma advances_iff {phase : Phase} :
    Advances id (p, .goes phase) d ↔
      ∃ now, p.now ≤ now ∧ (p.at_ now).step id phase = d ∧ d.2 ≠ .blocked := by
  constructor
  · rintro ⟨phase', now, hphase, hnow, hstep, hd⟩
    cases hphase
    exact ⟨now, hnow, hstep, hd⟩
  · rintro ⟨now, hnow, hstep, hd⟩
    exact ⟨phase, now, rfl, hnow, hstep, hd⟩

/-- A phase in which the request can go on at some instant leads on, wherever it can lead. -/
lemma inevitably_of_step {phase : Phase} {Q : Player × Progress → Prop}
    (hphase : (Progress.goes phase).isLoopHead = false)
    (hex : ∃ now, p.now ≤ now ∧ ((p.at_ now).step id phase).2 ≠ .blocked)
    (hall : ∀ now, p.now ≤ now → ((p.at_ now).step id phase).2 ≠ .blocked →
      Inevitably (AdvancesWithin id) Q ((p.at_ now).step id phase)) :
    Inevitably (AdvancesWithin id) Q (p, .goes phase) := by
  refine .later ?_ ?_
  · obtain ⟨now, hnow, hb⟩ := hex
    exact ⟨_, hphase, advances_iff.mpr ⟨now, hnow, rfl, hb⟩⟩
  · rintro d ⟨-, hd⟩
    obtain ⟨now, hnow, rfl, hb⟩ := advances_iff.mp hd
    exact hall now hnow hb

/-- What leads to something that is not blocked is not blocked. -/
lemma ne_blocked_of_inevitably {Q : Player × Progress → Prop}
    (h : Inevitably (AdvancesWithin id) Q c) (hQ : ∀ d, Q d → d.2 ≠ .blocked) :
    c.2 ≠ .blocked := by
  cases h with
  | here h => exact hQ c h
  | later hex _ =>
    obtain ⟨d, -, phase, now, hphase, -⟩ := hex
    rw [hphase]
    exact Progress.noConfusion

/-- A phase in which the request can go on at any time leads on. -/
lemma inevitably_of_ready {phase : Phase} {Q : Player × Progress → Prop}
    (hphase : (Progress.goes phase).isLoopHead = false) (hQ : ∀ d, Q d → d.2 ≠ .blocked)
    (hall : ∀ now, p.now ≤ now →
      Inevitably (AdvancesWithin id) Q ((p.at_ now).step id phase)) :
    Inevitably (AdvancesWithin id) Q (p, .goes phase) := by
  refine inevitably_of_step hphase ⟨p.now, Nat.le_refl _, ?_⟩ fun now hnow _ => hall now hnow
  exact ne_blocked_of_inevitably (hall p.now (Nat.le_refl _)) hQ

/-- A phase in which the request can go on from some instant on leads on. -/
lemma inevitably_of_timer {phase : Phase} {Q : Player × Progress → Prop} {until_ : Nat}
    {f : Player → Player × Progress}
    (hphase : (Progress.goes phase).isLoopHead = false) (hQ : ∀ d, Q d → d.2 ≠ .blocked)
    (hstep : ∀ now, (p.at_ now).step id phase =
      if until_ ≤ now then f (p.at_ now) else (p.at_ now, .blocked))
    (hall : ∀ now, Inevitably (AdvancesWithin id) Q (f (p.at_ now))) :
    Inevitably (AdvancesWithin id) Q (p, .goes phase) := by
  refine inevitably_of_step hphase ⟨p.now + until_, Nat.le_add_right _ _, ?_⟩ ?_
  · rw [hstep, if_pos (Nat.le_add_left _ _)]
    exact ne_blocked_of_inevitably (hall _) hQ
  · intro now _ hb
    rw [hstep] at hb ⊢
    split at hb
    · next hdone =>
      rw [if_pos hdone]
      exact hall now
    · exact absurd rfl hb

/-- What is inevitable within a round is inevitable. -/
lemma inevitably_of_within {Q : Player × Progress → Prop}
    (h : Inevitably (AdvancesWithin id) Q c) : Inevitably (Advances id) Q c :=
  h.of_step fun _ _ _ hstep => ⟨fun h => ⟨hstep.1, h⟩, fun h => h.2⟩

/-! ### Rounds -/

section Rounds

/- `Q n` is a property that the playback has after `n` rounds.  It follows along every run from its
inevitability in the first round and in each round after one that had it. -/
variable {Q : Nat → Player × Progress → Prop}
  (hstart : Inevitably (AdvancesWithin id) (Q 0) c)
  (hround : ∀ n d e, Q n d → d.2.isLoopHead = true → Advances id d e →
    Inevitably (AdvancesWithin id) (Q (n + 1)) e)
  (hsettled : ∀ n d, Q n d → d.2.isLoopHead = true ∨ d.2.isEnded = true)

include hstart hround hsettled

/-- At every moment of a run, the property of the round is inevitable. -/
lemma Runs.inevitably (h : Runs id c n d) : Inevitably (AdvancesWithin id) (Q n) d := by
  induction h with
  | refl => exact hstart
  | @within n d e _ hd hstep ih =>
    cases ih with
    | here hQ =>
      rcases hsettled n d hQ with hhead | hend
      · rw [hd] at hhead
        cases hhead
      · exact absurd hstep (not_advances_of_isEnded hend)
    | later _ hall => exact hall e ⟨hd, hstep⟩
  | @round n d e _ hd hstep ih =>
    cases ih with
    | here hQ => exact hround n d e hQ hd hstep
    | later hex _ =>
      obtain ⟨_, hd', -⟩ := hex
      rw [hd] at hd'
      cases hd'

/-- A playback has the property of its round whenever the round is over. -/
lemma Runs.settled (h : Runs id c n d)
    (hd : d.2.isLoopHead = true ∨ d.2.isEnded = true) : Q n d := by
  cases Runs.inevitably hstart hround hsettled h with
  | here hQ => exact hQ
  | later hex _ =>
    obtain ⟨_, hhead, hstep⟩ := hex
    rcases hd with hd | hd
    · rw [hd] at hhead
      cases hhead
    · exact absurd hstep (not_advances_of_isEnded hd)

omit hstart hround hsettled in
/-- Steps within a round follow a run. -/
lemma Runs.append_within (h : Runs id c n d)
    (hde : Relation.ReflTransGen (AdvancesWithin id) d e) : Runs id c n e := by
  induction hde with
  | refl => exact h
  | tail _ hstep ih => exact .within ih hstep.1 hstep.2

/-- After a number of rounds a playback has the property of that number, if an ended playback has
those of all later ones. -/
lemma After.settled (hstay : ∀ k n d, k ≤ n → Q k d → d.2.isEnded = true → Q n d)
    (h : After id c n d) : Q n d := by
  rcases h with ⟨hrun, hhead⟩ | ⟨k, hk, hrun, hend⟩
  · exact Runs.settled hstart hround hsettled hrun (.inl hhead)
  · exact hstay k n d hk (Runs.settled hstart hround hsettled hrun (.inr hend)) hend

/-- Every number of rounds is played, unless the playback ends in fewer. -/
lemma exists_after (hgo : ∀ n d, Q n d → d.2.isLoopHead = true → ∃ e, Advances id d e) (n : Nat) :
    ∃ d, After id c n d := by
  suffices h : ∃ k d, Runs id c k d ∧ Q k d ∧
      (k = n ∧ d.2.isLoopHead = true ∨ k ≤ n ∧ d.2.isEnded = true) by
    obtain ⟨k, d, hrun, -, ⟨rfl, hhead⟩ | ⟨hk, hend⟩⟩ := h
    · exact ⟨d, .inl ⟨hrun, hhead⟩⟩
    · exact ⟨d, .inr ⟨k, hk, hrun, hend⟩⟩
  induction n with
  | zero =>
    obtain ⟨d, hd, hQ⟩ := hstart.reached
    refine ⟨0, d, Runs.refl.append_within hd, hQ, ?_⟩
    exact (hsettled 0 d hQ).imp (fun h => ⟨rfl, h⟩) fun h => ⟨Nat.le_refl _, h⟩
  | succ n ih =>
    obtain ⟨k, d, hrun, hQ, ⟨rfl, hhead⟩ | ⟨hk, hend⟩⟩ := ih
    · obtain ⟨e, hstep⟩ := hgo k d hQ hhead
      obtain ⟨d', hd', hQ'⟩ := (hround k d e hQ hhead hstep).reached
      refine ⟨k + 1, d', (hrun.round hhead hstep).append_within hd', hQ', ?_⟩
      exact (hsettled _ d' hQ').imp (fun h => ⟨rfl, h⟩) fun h => ⟨Nat.le_refl _, h⟩
    · exact ⟨k, d, hrun, hQ, .inr ⟨Nat.le_succ_of_le hk, hend⟩⟩

end Rounds

end Player

end Recital

import Recital.Proofs.Player.LineBudget
import Recital.Proofs.Session.Solo

/-!
# How often a line is returned from

While requests go on and much else is done, a playback may return to the checkpoint again and again.
`Session.Returns` counts the rollbacks that are performed on account of one line.

Between two moments at which the line is done there are no more of them than the budget of a line
allows.  When the line is done its budget is given back.  A later line may then return to the
checkpoint, so that the line comes up again with a whole budget, though the checkpoint has not
changed.
-/

namespace Recital

namespace Session

variable {s s' s'' : Session} {t : Task} {x : Player × Progress} {index n k : Nat}
  {kind : Session → Task → Session → Prop}

/-- Who has made a step has gone on. -/
lemma Moved.does (h : s.Moved s' t x) : s.Does (.go t.id) s' := by
  obtain ⟨hstep, hready, hplayer, ⟨left, right, htasks, htasks'⟩, hended⟩ := h
  obtain ⟨q, progress⟩ := x
  obtain ⟨player, tasks, ended⟩ := s'
  cases hplayer
  cases htasks'
  cases progress with
  | blocked => exact absurd rfl hready
  | goes phase =>
    cases hended
    have hgoes := Does.goes htasks hstep
    rwa [show left ++ { t with phase } :: right = left ++ [⟨t.id, phase⟩] ++ right by simp] at hgoes
  | ends answer =>
    cases hended
    have hends := Does.ends htasks hstep
    rwa [show left ++ right = left ++ [] ++ right by simp] at hends

/-- A session goes on by steps of a kind, and by whatever is done beside them, and performs so many
rollbacks on account of a line. -/
inductive Returns (index : Nat) (kind : Session → Task → Session → Prop) (s : Session) :
    Nat → Session → Prop
  | refl : Returns index kind s 0 s
  | goes {n : Nat} {s' s'' : Session} {t : Task} {x : Player × Progress}
    (h : Returns index kind s n s') (hmoved : s'.Moved s'' t x) (hkind : kind s' t s'') :
    Returns index kind s (n + s'.player.retreats index t.id t.phase) s''
  /-- A request or a call is made, or time passes. -/
  | beside {n : Nat} {s' s'' : Session} {a : Action} (h : Returns index kind s n s')
    (ha : ∀ id, a ≠ .go id) (hdoes : s'.Does a s'') : Returns index kind s n s''

/-- Nothing is set anew, and the line does not end the playback. -/
def Stays (index : Nat) (s : Session) (t : Task) (_ : Session) : Prop :=
  ¬ s.player.StartsOver t.id t.phase ∧ ¬ s.player.Breaks index t.id t.phase

namespace Returns

lemma changes (h : s.Returns index kind n s') :
    Player.LastingChanges (fun _ => True) (fun _ => True) s.player s'.player := by
  induction h with
  | refl => exact .refl _
  | goes _ hmoved _ ih => exact ih.trans hmoved.does.lastingChanges_any
  | beside _ _ hdoes ih => exact ih.trans hdoes.lastingChanges_any

/-- What is done beside the steps of requests uses nothing. -/
lemma spent_beside {a : Action} (ha : ∀ id, a ≠ .go id) (hdoes : s.Does a s') :
    s'.player.spent = s.player.spent := by
  cases hdoes with
  | submit | wait => rfl
  | call => exact congrArg Player.Estate.spent Player.estate_perform
  | goes | ends => exact absurd rfl (ha _)

/-- What was not told in the end was not told before, nor is it told last. -/
lemma quiet_before {a : Action} (h : s.Returns index kind n s') (hdoes : s'.Does a s'')
    (hopen : s''.player.bus.closed = false)
    (hquiet : s''.player.bus.closings index = s.player.bus.closings index) :
    s'.player.bus.closed = false ∧ s'.player.bus.closings index = s.player.bus.closings index ∧
      s''.player.bus.closings index = s'.player.bus.closings index := by
  have hchanges : Player.LastingChanges (fun _ => True) (fun _ => True) s'.player s''.player :=
    hdoes.lastingChanges_any
  have hbefore : s.player.bus.closings index ≤ s'.player.bus.closings index := h.changes.closings_le
  have hafter : s'.player.bus.closings index ≤ s''.player.bus.closings index :=
    hchanges.closings_le
  exact ⟨hchanges.isOpen hopen, by omega, by omega⟩

/-- As long as it is not told that the line is done, every rollback on account of the line takes
from its budget. -/
lemma deducts (h : s.Returns index (Stays index) n s') (hopen : s'.player.bus.closed = false)
    (hquiet : s'.player.bus.closings index = s.player.bus.closings index) :
    Player.Deducts index n s.player s'.player := by
  induction h with
  | refl => exact .of_count rfl
  | @goes n s' s'' t x h hmoved hkind ih =>
    obtain ⟨hopen', hquiet', hsilent⟩ := h.quiet_before hmoved.does hopen hquiet
    obtain ⟨hleast, hwithin⟩ := ih hopen' hquiet'
    have htolerance : s'.player.tolerance = s.player.tolerance := by
      unfold Player.tolerance
      rw [h.changes.host]
    have hready : (s'.player.step t.id t.phase).2 ≠ .blocked := hmoved.step ▸ hmoved.ready
    have hplayer : (s'.player.step t.id t.phase).1 = s''.player := by
      rw [hmoved.step, hmoved.player]
    have hstep : _ ∨ s'.player.Breaks index t.id t.phase ∨ _ :=
      Player.deducts_step hkind.1 hready (hplayer ▸ hopen)
    rw [hplayer] at hstep
    rcases hstep with htold | hbreaks | ⟨hleast', hwithin'⟩
    · omega
    · exact absurd hbreaks hkind.2
    · rw [htolerance] at hwithin'
      exact ⟨by omega, by omega⟩
  | @beside n s' s'' a h ha hdoes ih =>
    obtain ⟨hopen', hquiet', -⟩ := h.quiet_before hdoes hopen hquiet
    obtain ⟨hleast, hwithin⟩ := ih hopen' hquiet'
    rw [← spent_beside ha hdoes] at hleast hwithin
    exact ⟨hleast, hwithin⟩

end Returns

/-- The rollbacks on account of a line are within its budget.

Let requests go on in any order, make any others, make any calls and let time pass, but let no
playback be started, nothing be reset and no state be restored.  As long as it is not told that a
line is done, that no other script is called, and the line does not end the playback, no more
rollbacks are performed on account of the line than it has recoveries. -/
theorem rollbacks_within_budget (h : s.Returns index (Stays index) n s')
    (hopen : s'.player.bus.closed = false)
    (hquiet : s'.player.bus.closings index = s.player.bus.closings index) :
    n ≤ s.player.tolerance.maxRecoveries := by
  obtain ⟨hleast, hwithin⟩ := h.deducts hopen hquiet
  omega

/-! ### A canon -/

/-- The leading voice fails at every other attempt. -/
def dux : Command :=
  .custom "dux" false fun n _ =>
    { verdict := if n % 2 = 0 then .error (.network "hoarse") else .ok (.ofFlow .next) }

/-- The following voice fails at its first attempt. -/
def comes : Command :=
  .custom "comes" false fun n _ =>
    { verdict := if n = 0 then .error (.network "late") else .ok (.ofFlow .next) }

/-- Two voices, one after the other. -/
def canon : Script :=
  ⟨"canon", [.command "@dux" (some dux), .command "@comes" (some comes)]⟩

/-- A schola that may go back once for each line. -/
def schola : Session :=
  { player := .create { registry := { defaults := { onError := some .rollback } } }
      { capacity := 16 } none }

/-- The canon is about to begin. -/
def intonation : Session := ((schola.submit 0 (.play canon .beginning false)).turn 0).turn 0

/-- How many rollbacks on account of the line are performed in the next step, if a playback is all
that is in progress and goes on. -/
def sings? (index : Nat) (s : Session) : Option Nat :=
  match s.tasks with
  | [t] =>
    match (s.player.step t.id t.phase).2, t.phase.token? with
    | .goes _, some _ => some (s.player.retreats index t.id t.phase)
    | _, _ => none
  | _ => none

/-- A playback that goes on is not ended by its line. -/
lemma not_breaks {p : Player} {id : Nat} {phase next : Phase} {token : Token}
    (htoken : phase.token? = some token) (hgoes : (p.step id phase).2 = .goes next) :
    ¬ p.Breaks index id phase := by
  rintro ⟨-, f, hf⟩
  obtain ⟨⟨q, progress⟩, hexec, rfl⟩ := Option.map_eq_some_iff.mp hf
  rcases Player.step_of_execution hexec with ⟨hside, -⟩ | ⟨-, play, -, hstep⟩
  · cases (Phase.token?_of_isSide hside).symm.trans htoken
  · obtain ⟨r, hends, -⟩ := Player.finish_spec { q with lineLock := q.lineLock.release } f
    rw [hstep] at hgoes
    cases hends.symm.trans hgoes

lemma Returns.sings (h : s.Returns index kind n s') (hs : s'.sings? index = some k)
    (hkind : ∀ t, ¬ s'.player.StartsOver t.id t.phase → ¬ s'.player.Breaks index t.id t.phase →
      kind s' t (s'.turn 0)) : s.Returns index kind (n + k) (s'.turn 0) := by
  unfold sings? at hs
  split at hs
  · next t htasks =>
    split at hs
    · next next token hgoes htoken =>
      cases hs
      obtain ⟨q, hstep⟩ : ∃ q, s'.player.step t.id t.phase = (q, .goes next) :=
        ⟨_, Prod.ext rfl hgoes⟩
      have hturn : s'.turn 0 = { s' with player := q, tasks := [{ t with phase := next }] } := by
        simp [turn, htasks, hstep]
      have hmoved : s'.Moved (s'.turn 0) t (q, .goes next) := by
        rw [hturn]
        exact ⟨hstep, Progress.noConfusion, rfl, ⟨[], [], by simp [htasks], rfl⟩, rfl⟩
      refine h.goes hmoved (hkind t ?_ (not_breaks htoken hgoes))
      cases hphase : t.phase <;> rw [hphase] at htoken <;> first | exact id | cases htoken
    · cases hs
  · cases hs

/-- The first line of the canon returns to the checkpoint once before it is done. -/
theorem canon_returns_once : intonation.Returns 0 (Stays 0) 1 ((intonation.turn 0).turn 0) ∧
    ((intonation.turn 0).turn 0).player.bus.closed = false ∧
      ((intonation.turn 0).turn 0).player.bus.closings 0 = intonation.player.bus.closings 0 ∧
        1 ≤ intonation.player.tolerance.maxRecoveries := by
  have h₀ : intonation.Returns 0 (Stays 0) 0 intonation := .refl
  have h₁ := h₀.sings (k := 0) rfl fun t hover hbreaks => ⟨hover, hbreaks⟩
  have h₂ := h₁.sings (k := 1) rfl fun t hover hbreaks => ⟨hover, hbreaks⟩
  exact ⟨h₂, rfl, rfl, rollbacks_within_budget h₂ rfl rfl⟩

/-- Nothing is set anew, and the checkpoint is kept. -/
def KeepsCheckpoint (s : Session) (t : Task) (s' : Session) : Prop :=
  ¬ s.player.StartsOver t.id t.phase ∧ s'.player.recovery.checkpoint = s.player.recovery.checkpoint

/-- The first line of the canon returns to the checkpoint twice, with a budget of one.  Between the
two times it was executed, and the second line has returned to the checkpoint. -/
theorem canon_returns_again : schola.Evolves (fun _ => True) intonation ∧
    intonation.player.tolerance.maxRecoveries = 1 ∧
      ∃ s', intonation.Returns 0 KeepsCheckpoint 2 s' := by
  have hbegun : schola.Evolves (fun _ => True) intonation :=
    ((Evolves.tail .refl (a := .submit 0 (.play canon .beginning false)) trivial
      (.submit fun _ ht => absurd ht List.not_mem_nil)).turn (fun _ => trivial) 0).turn
        (fun _ => trivial) 0
  have h₀ : intonation.Returns 0 KeepsCheckpoint 0 intonation := .refl
  have h₁ := h₀.sings (k := 0) rfl fun t h _ => ⟨h, rfl⟩
  have h₂ := h₁.sings (k := 1) rfl fun t h _ => ⟨h, rfl⟩
  have h₃ := h₂.sings (k := 0) rfl fun t h _ => ⟨h, rfl⟩
  have h₄ := h₃.sings (k := 0) rfl fun t h _ => ⟨h, rfl⟩
  have h₅ := h₄.sings (k := 0) rfl fun t h _ => ⟨h, rfl⟩
  have h₆ := h₅.sings (k := 0) rfl fun t h _ => ⟨h, rfl⟩
  have h₇ := h₆.sings (k := 0) rfl fun t h _ => ⟨h, rfl⟩
  exact ⟨hbegun, rfl, _, h₇.sings (k := 1) rfl fun t h _ => ⟨h, rfl⟩⟩

end Session

end Recital

import Recital.Proofs.Player.Totals
import Recital.Proofs.Session.Flight
import Recital.Proofs.Session.RollbackBudget

/-!
# The accounts balance

A player counts in several places what it does about faults, and at the end of every attempt how
long the attempt took and what has come of it.  Here the counts are compared with the steps that its
requests have made, whatever was requested and in whatever order the requests went on.

The steps are written down by `Session.Paces`.  From each it can be read, as it stands before the
step, which attempt the step is going to end and which fault it is going to hand over to recovery
(`Stride`).  That these are counted once, by any step, is `Player.totals_step`; what is done beside
the steps of requests counts nothing.  So the counts are those of the steps that were made
(`Session.Balances`): there are as many successes of recovery as there are recoveries that did not
come to nothing, and as many executions of a type as attempts of it have ended.
-/

namespace Recital

/-! ### Steps -/

/-- A line waits for the end of an attempt of the type. -/
def LinePhase.awaits (type : String) : LinePhase → Bool
  | .flying j _ => j.command.type = type
  | _ => false

/-- A request waits for the end of an attempt of the type. -/
def Phase.awaits (type : String) (phase : Phase) : Bool := phase.line?.any (·.awaits type)

/-- A step of a request, as it stands before the step. -/
structure Stride where
  player : Player
  /-- The number of the request. -/
  id : Nat
  /-- What it waits for. -/
  phase : Phase

namespace Stride

variable {type : String}

/-- The execution that the step ends. -/
def ended? (m : Stride) : Option Execution := m.player.ended? m.phase

/-- Whether a recovery is carried out in the step, if one is planned. -/
def mends? (m : Stride) : Option Bool := (m.player.setback? m.id m.phase).bind m.player.mends?

/-- A recovery is planned. -/
def recovers (m : Stride) : Bool := m.mends?.isSome

/-- A recovery is planned that comes to nothing: the budget of the line is used up, there is no
checkpoint, or a jump has no target. -/
def fails (m : Stride) : Bool := m.mends? = some false

/-- An attempt of the type is begun. -/
def begins (type : String) (m : Stride) : Bool :=
  match (m.player.step m.id m.phase).2 with
  | .goes next => next.awaits type
  | _ => false

/-- A request that waits for the end of an attempt goes on when the attempt has ended. -/
lemma awaits_eq (m : Stride) (hready : (m.player.step m.id m.phase).2 ≠ .blocked) :
    m.phase.awaits type = m.ended?.any (·.type = type) := by
  obtain ⟨p, id, phase⟩ := m
  -- As long as the attempt goes on, its line is held up, and with it the request.
  have hlanding : ∀ j f, phase.line? = some (.flying j f) → p.landing j f ≠ none := by
    intro j f hline hnone
    apply hready
    have hblocked : p.stepLine (.flying j f) = (p, .blocked) := by
      simp only [Player.stepLine, hnone]
    cases phase with
    | playing | stepping =>
      cases hline
      simp only [Player.step, hblocked]
      rfl
    | _ => cases hline
  unfold Phase.awaits ended? Player.ended?
  cases hline : phase.line? with
  | none => rfl
  | some line =>
    cases line with
    | flying j f =>
      obtain ⟨verdict, hverdict⟩ := Option.ne_none_iff_exists'.mp (hlanding j f hline)
      simp [LinePhase.awaits, Player.lineEnded?, hverdict]
    | resting | presenting | switching => rfl

/-- An attempt has ended for every request that has waited for one. -/
lemma countP_ended (m : Stride) (hready : (m.player.step m.id m.phase).2 ≠ .blocked) :
    ([m].filterMap ended?).countP (·.type = type) = if m.phase.awaits type then 1 else 0 := by
  rw [m.awaits_eq hready, List.filterMap_cons]
  cases m.ended? with
  | none => rfl
  | some e => exact List.countP_singleton

/-- After the step the request waits for an attempt that was begun. -/
lemma countP_tasks (m : Stride) :
    ((m.player.step m.id m.phase).2.tasks m.id).countP (·.phase.awaits type) =
      if m.begins type then 1 else 0 := by
  unfold begins
  cases (m.player.step m.id m.phase).2 with
  | goes next => exact List.countP_singleton
  | blocked | ends => rfl

end Stride

/-- No request comes to wait for a script to remedy a fault. -/
lemma Player.not_isRemedy_step {p : Player} {id : Nat} {phase next : Phase} {line : LinePhase}
    (hphase : ∀ line, phase.line? = some line → line.isRemedy = false)
    (hready : (p.step id phase).2 ≠ .blocked) (hnext : (p.step id phase).2 = .goes next)
    (hline : next.line? = some line) : line.isRemedy = false := by
  have hlined : next.line?.isSome = true := by rw [hline]; rfl
  obtain ⟨y, hexec⟩ := Option.isSome_iff_exists.mp ((next_step id hready hnext).1 hlined)
  have hy : y = ((p.step id phase).1, .goes line) := goes_of_execution hexec hnext hline
  exact (countsOnce_execution hexec hphase).settled line (congrArg Prod.snd hy)

/-! ### Counting -/

/-- What was counted is what was done in the steps. -/
structure Totals.Counts (steps : List Stride) (g : Totals) : Prop where
  attempts : g.attempts = steps.countP Stride.recovers
  /-- Every recovery was carried out, or it came to nothing. -/
  successes : g.successes + steps.countP Stride.fails = g.attempts
  ledger : g.ledger = .after ((steps.filterMap Stride.ended?).map .execution)

/-- One more step is counted. -/
lemma Totals.Counts.concat {steps : List Stride} {g : Totals} (h : g.Counts steps) (m : Stride) :
    ((g.enter m.ended?).charge m.mends?).Counts (steps ++ [m]) := by
  have hsuccesses := h.successes
  have hcharged : ((g.enter m.ended?).charge m.mends?).successes +
      (if m.mends? = some false then 1 else 0) =
        (g.enter m.ended?).successes + if m.mends?.isSome then 1 else 0 := successes_charge
  refine ⟨?_, ?_, ?_⟩
  · rw [attempts_charge, attempts_enter, h.attempts, List.countP_append, List.countP_singleton]
    rfl
  · rw [attempts_charge, attempts_enter, List.countP_append, List.countP_singleton]
    rw [successes_enter] at hcharged
    simp only [Stride.fails, decide_eq_true_eq]
    omega
  · rw [ledger_charge, List.filterMap_append, List.map_append]
    cases hended : m.ended? with
    | none => simpa [enter, hended] using h.ledger
    | some e =>
      simp only [enter, List.filterMap_cons, hended, List.filterMap_nil, List.map_cons,
        List.map_nil, Ledger.after_concat, h.ledger]

namespace Session

variable {s₀ s s' : Session} {t : Task} {x : Player × Progress} {steps : List Stride}
  {type : String}

/-- A session goes on by steps of requests, which are written down, and by whatever is done beside
them. -/
inductive Paces (s₀ : Session) : List Stride → Session → Prop
  | refl : Paces s₀ [] s₀
  | goes {steps : List Stride} {s s' : Session} {t : Task} {x : Player × Progress}
    (h : Paces s₀ steps s) (hmoved : s.Moved s' t x) :
    Paces s₀ (steps ++ [⟨s.player, t.id, t.phase⟩]) s'
  /-- A request or a call is made, or time passes. -/
  | beside {steps : List Stride} {s s' : Session} {a : Action} (h : Paces s₀ steps s)
    (ha : ∀ id, a ≠ .go id) (hdoes : s.Does a s') : Paces s₀ steps s'

/-- Whatever happens, the steps can be written down. -/
lemma exists_paces (h : s₀.Evolves (fun _ => True) s) : ∃ steps, s₀.Paces steps s := by
  induction h with
  | refl => exact ⟨[], .refl⟩
  | tail _ hmay ih =>
    obtain ⟨steps, hpaces⟩ := ih
    obtain ⟨a, -, hdoes⟩ := hmay
    cases a with
    | go id =>
      obtain ⟨t, x, -, hmoved⟩ := hdoes.moved
      exact ⟨_, hpaces.goes hmoved⟩
    | submit | call | wait =>
      refine ⟨steps, hpaces.beside ?_ hdoes⟩
      exact nofun

/-! ### The accounts -/

/-- What was counted is what was done in the steps, and what is begun is not lost. -/
structure Balances (steps : List Stride) (s : Session) : Prop where
  counts : s.player.totals.Counts steps
  /-- Of the attempts that were begun, some are in flight, and all others have ended. -/
  flights : ∀ type, steps.countP (·.begins type) =
    (steps.filterMap Stride.ended?).countP (·.type = type) + s.tasks.countP (·.phase.awaits type)
  /-- No request waits for a script to remedy a fault. -/
  settled : ∀ t ∈ s.tasks, ∀ line, t.phase.line? = some line → line.isRemedy = false

namespace Balances

lemma created {host : Host} {bus : Bus} {store : Option Store} :
    Balances [] { player := .create host bus store } where
  counts := ⟨rfl, rfl, rfl⟩
  flights := fun _ => rfl
  settled := fun _ ht => absurd ht List.not_mem_nil

/-- What is done beside the steps of requests counts nothing. -/
lemma beside {a : Action} (h : s.Balances steps) (ha : ∀ id, a ≠ .go id) (hdoes : s.Does a s') :
    s'.Balances steps := by
  cases hdoes with
  | goes | ends => exact absurd rfl (ha _)
  | submit =>
    refine ⟨h.counts, ?_, ?_⟩
    · intro type
      have hflights := h.flights type
      simpa [submit, Phase.awaits, Phase.line?] using hflights
    · intro t ht
      rcases List.mem_append.mp ht with ht | ht
      · exact h.settled t ht
      · obtain rfl := List.mem_singleton.mp ht
        intro line hline
        cases hline
  | call =>
    refine ⟨?_, h.flights, h.settled⟩
    rw [Player.totals_perform]
    exact h.counts
  | wait => exact ⟨h.counts, h.flights, h.settled⟩

/-- A step is accounted for. -/
lemma goes (h : s.Balances steps) (hmoved : s.Moved s' t x) :
    s'.Balances (steps ++ [⟨s.player, t.id, t.phase⟩]) := by
  obtain ⟨m, hm⟩ : ∃ m : Stride, m = ⟨s.player, t.id, t.phase⟩ := ⟨_, rfl⟩
  have hready : (s.player.step t.id t.phase).2 ≠ .blocked := hmoved.step ▸ hmoved.ready
  have hphase := h.settled t hmoved.mem
  obtain ⟨left, right, htasks, htasks'⟩ := hmoved.tasks
  rw [← hm]
  refine ⟨?_, ?_, ?_⟩
  · have htotals : s'.player.totals = (s.player.totals.enter m.ended?).charge m.mends? := by
      rw [hmoved.player, ← hmoved.step, Player.totals_step t.id hphase, hm]
      rfl
    rw [htotals]
    exact h.counts.concat m
  · intro type
    have hflights := h.flights type
    have hbegins : (x.2.tasks t.id).countP (·.phase.awaits type) =
        if m.begins type then 1 else 0 := by
      rw [← hmoved.step, hm]
      exact Stride.countP_tasks ⟨s.player, t.id, t.phase⟩
    have hended : ([m].filterMap Stride.ended?).countP (·.type = type) =
        if t.phase.awaits type then 1 else 0 := by
      rw [hm]
      exact Stride.countP_ended ⟨s.player, t.id, t.phase⟩ hready
    rw [htasks, List.countP_append, List.countP_cons] at hflights
    rw [htasks', List.filterMap_append, List.countP_append, List.countP_append, List.countP_append,
      List.countP_append, List.countP_singleton, hbegins, hended]
    omega
  · -- The others wait for what they have waited for.
    intro u hu line hline
    rw [htasks', List.mem_append, List.mem_append, Progress.mem_tasks] at hu
    rcases hu with (hu | ⟨-, hnext⟩) | hu
    · exact h.settled u (htasks ▸ List.mem_append_left _ hu) line hline
    · exact Player.not_isRemedy_step hphase hready (hmoved.step ▸ hnext) hline
    · exact h.settled u (htasks ▸ List.mem_append_right _ (List.mem_cons_of_mem _ hu)) line hline

end Balances

/-- The accounts balance after any steps. -/
lemma Paces.balances {host : Host} {bus : Bus} {store : Option Store}
    (h : Paces { player := .create host bus store } steps s) : s.Balances steps := by
  induction h with
  | refl => exact .created
  | goes _ hmoved ih => exact ih.goes hmoved
  | beside _ ha hdoes ih => exact ih.beside ha hdoes

/-- Recoveries and statistics balance.

Take any moment in the life of a player, whatever was requested of it and in whatever order its
requests went on.  The steps that were made can be written down, and whichever way this is done: no
more recoveries were carried out than planned, and those that were planned and not carried out are
the ones that came to nothing, because the budget of the line was used up, there was no checkpoint,
or a jump had no target.  The attempts of a type that were begun are in flight or have ended, and
the statistics of the type are those of the ones that have ended.

Statistics balance after any executions and resets at all: the executions since the last reset are
counted once, and each has succeeded, failed or been cancelled; those that were late are among the
failures; and the longest time, the total and the average are as they have to be. -/
theorem accounts_balance {host : Host} {bus : Bus} {store : Option Store}
    (h : Evolves (fun _ => True) { player := .create host bus store } s) :
    ((∃ steps, Paces { player := .create host bus store } steps s) ∧
      ∀ steps, Paces { player := .create host bus store } steps s →
        s.player.recovery.attempts = steps.countP Stride.recovers ∧
        s.player.recovery.successes ≤ s.player.recovery.attempts ∧
        s.player.recovery.attempts - s.player.recovery.successes = steps.countP Stride.fails ∧
        ∀ type,
          steps.countP (·.begins type) = (steps.filterMap Stride.ended?).countP (·.type = type) +
            s.tasks.countP (·.phase.awaits type) ∧
          (s.player.ledger.stats type).Balanced
            ((steps.filterMap Stride.ended?).filter (·.type = type))) ∧
      ∀ entries type, ((Ledger.after entries).stats type).Balanced
        ((Ledger.sinceReset entries).filter (·.type = type)) := by
  refine ⟨⟨exists_paces h, ?_⟩, Ledger.balanced_after⟩
  intro steps hpaces
  have hbalances := hpaces.balances
  have hsuccesses : s.player.recovery.successes + steps.countP Stride.fails =
      s.player.recovery.attempts := hbalances.counts.successes
  refine ⟨hbalances.counts.attempts, by omega, by omega, ?_⟩
  intro type
  refine ⟨hbalances.flights type, ?_⟩
  have hbalanced := Ledger.balanced_after ((steps.filterMap Stride.ended?).map .execution) type
  rw [Ledger.sinceReset_map] at hbalanced
  have hledger : s.player.ledger = _ := hbalances.counts.ledger
  rw [hledger]
  exact hbalanced

/-! ### A hoarse cantor -/

/-- The cantor fails at every attempt. -/
def intone : Command :=
  .custom "intone" false fun _ _ => { verdict := .error (.network "hoarse") }

/-- One line, for the cantor. -/
def antiphon : Script := ⟨"antiphon", [.command "@intone" (some intone)]⟩

/-- A choir where a line may be repeated once. -/
def chancel : Session :=
  { player := .create { registry := { defaults := { onError := some .retry } } }
      { capacity := 16 } none }

/-- The antiphon was begun twice and has come to its end. -/
def vespers : Session :=
  let begun := (((chancel.submit 0 (.play antiphon .beginning false)).turn 0).turn 0).turn 0
  ((begun.turn 0).turn 0).turn 0

lemma evolves_vespers : chancel.Evolves (fun _ => True) vespers := by
  have hasked : chancel.Evolves (fun _ => True)
      (chancel.submit 0 (.play antiphon .beginning false)) :=
    Evolves.tail (a := .submit 0 _) .refl trivial (.submit fun _ ht => absurd ht List.not_mem_nil)
  have hbegun := ((hasked.turn (fun _ => trivial) 0).turn (fun _ => trivial) 0).turn
    (fun _ => trivial) 0
  exact ((hbegun.turn (fun _ => trivial) 0).turn (fun _ => trivial) 0).turn (fun _ => trivial) 0

/-- Two recoveries were planned, one of which came to nothing, and two attempts have ended. -/
theorem vespers_balance : chancel.Evolves (fun _ => True) vespers ∧ vespers.tasks.length = 0 ∧
    ∃ steps, chancel.Paces steps vespers ∧ steps.countP Stride.recovers = 2 ∧
      steps.countP Stride.fails = 1 ∧ steps.countP (·.begins "intone") = 2 ∧
        (vespers.player.ledger.stats "intone").failures = 2 := by
  obtain ⟨⟨⟨steps, hpaces⟩, haccounts⟩, -⟩ := accounts_balance evolves_vespers
  obtain ⟨hattempts, -, hfails, htypes⟩ := haccounts steps hpaces
  obtain ⟨hflights, hbalanced⟩ := htypes "intone"
  refine ⟨evolves_vespers, rfl, steps, hpaces, hattempts.symm, hfails.symm, ?_, rfl⟩
  rw [hflights, List.countP_eq_length_filter, ← hbalanced.executions]
  rfl

end Session

end Recital

import Recital.Proofs.Place.Session
import Recital.Proofs.Player.Turn

/-!
# Orderly steps

While a playback is in progress, with requests beside it, some things hold at any time: who executes
a line has the line lock, the state is `waiting` only while a command is in flight that has changed
it, and there is no playback to step in before its script is loaded and after its end.  `Orderly`
says what a step of one request has to do for that, and every step does it: those that lead to the
lines (`Opens`) and those from then on (`Turn`).
-/

namespace Recital

namespace Phase

/-- A phase of a playback that has not got the gate. -/
def isFresh : Phase → Bool
  | .entering (.play ..) | .entering (.playNamed _) | .loading _ | .playGate .. => true
  | _ => false

variable {phase : Phase}

lemma isEarly_of_isFresh (h : phase.isFresh = true) : phase.isEarly = true := by
  cases phase with
  | entering r => cases r <;> first | rfl | cases h
  | loading | playGate => rfl
  | _ => cases h

lemma isPlayback_of_isEarly (h : phase.isEarly = true) : phase.isPlayback = true := by
  cases phase with
  | playing => rfl
  | _ => simp [isPlayback, h]

/-- A request beside a playback is none to play. -/
lemma isPlayback_of_isSide (h : phase.isSide = true) : phase.isPlayback = false := by
  cases phase with
  | entering r => cases r <;> first | rfl | cases h
  | stepLock | stepping | backLock | skipLock => rfl
  | _ => cases h

lemma isSide_of_isPlayback (h : phase.isPlayback = true) : phase.isSide = false := by
  cases hside : phase.isSide with
  | false => rfl
  | true => exact absurd (h.symm.trans (isPlayback_of_isSide hside)) (by decide)

lemma token?_of_isSide (h : phase.isSide = true) : phase.token? = none := by
  cases phase with
  | entering | stepLock | stepping | backLock | skipLock => rfl
  | _ => cases h

lemma line?_of_isEarly (h : phase.isEarly = true) : phase.line? = none := by
  cases phase with
  | playing | stepping => cases h
  | _ => rfl

end Phase

namespace Player

variable {p q : Player} {id : Nat} {phase : Phase} {b : Bearing} {entered : Bool}
  {x : Player × Progress} {f : Finish} {token : Token} {run : Run}

/-- A step that leaves the playback and the requests beside it in order. -/
structure Orderly (id : Nat) (p : Player) (phase : Phase) (x : Player × Progress) : Prop where
  /-- A request stays what it is. -/
  role : ∀ next, x.2 = .goes next →
    next.isSide = phase.isSide ∧ next.isPlayback = phase.isPlayback
  /-- A playback goes by its token. -/
  token : (∀ token, phase.token? = some token → p.token = some token) →
    ∀ next token, x.2 = .goes next → next.token? = some token → x.1.token = some token
  /-- A line is begun in a playback that is under way. -/
  lined : ∀ next line, x.2 = .goes next → next.line? = some line →
    phase.line? ≠ none ∨ p.state.isUnderway = true
  /-- Who executes a line has the lock. -/
  held : ∀ next line, x.2 = .goes next → next.line? = some line →
    x.1.lineLock.isHeldBy id = true
  /-- Nobody else loses the lock. -/
  others : ∀ u, u ≠ id → p.lineLock.isHeldBy u = true → x.1.lineLock.isHeldBy u = true
  /-- The state is `waiting` for a command in flight. -/
  waiting : x.1.state = .waiting → p.state = .waiting ∧ phase.line? = none ∨
    ∃ next line, x.2 = .goes next ∧ next.line? = some line ∧ line.entered = true
  /-- Before its lines, a playback cannot be paused, and nothing can be stepped through before it
  has the gate. -/
  early : ∀ next, x.2 = .goes next → next.isEarly = true → phase.isEarly = true ∧
    x.1.state.isUnderway = false ∧ (next.isFresh = true → x.1.token = none)
  /-- A request beside a playback neither starts nor ends one. -/
  side : phase.isSide = true →
    (x.1.state.isUnderway = true → p.state.isUnderway = true) ∧ x.1.token = p.token
  /-- A playback that has ended is gone. -/
  ending : phase.isPlayback = true → ∀ answer, x.2 = .ends answer → x.1.token = none

/-! ### Before the lines -/

/-- A step of a playback that has not come to its lines. -/
structure Opens (id : Nat) (p : Player) (x : Player × Progress) : Prop where
  lock : p.lineLock.Passes id x.1.lineLock
  state : x.1.state ≠ .waiting
  next : ∀ next, x.2 = .goes next → next.line? = none ∧ next.isSide = false ∧
    next.isPlayback = true ∧ (next.isEarly = true →
      x.1.state.isUnderway = false ∧ (next.isFresh = true → x.1.token = none))
  token : ∀ next token, x.2 = .goes next → next.token? = some token → x.1.token = some token
  ending : ∀ answer, x.2 = .ends answer → x.1.token = none

lemma ne_waiting_of_idle (hstate : p.state.isUnderway = false) : p.state ≠ .waiting := by
  intro h
  rw [h] at hstate
  cases hstate

/-- A request to play is refused. -/
lemma opens_refused {answer : Answer} (hstate : p.state.isUnderway = false)
    (htoken : p.token = none) : Opens id p (p, .ends answer) where
  lock := .same
  state := ne_waiting_of_idle hstate
  next _ h := Progress.noConfusion h
  token _ _ h := Progress.noConfusion h
  ending _ _ := htoken

/-- A playback goes on to another phase before its lines. -/
lemma opens_early {next : Phase} (hnext : next.isEarly = true) (hlock : q.lineLock = p.lineLock)
    (hstate : q.state.isUnderway = false) (hfresh : next.isFresh = true → q.token = none)
    (htoken : ∀ token, next.token? = some token → q.token = some token) :
    Opens id p (q, .goes next) where
  lock := hlock ▸ .same
  state := ne_waiting_of_idle hstate
  next n hn := by
    cases hn
    have hplayback := Phase.isPlayback_of_isEarly hnext
    exact ⟨Phase.line?_of_isEarly hnext, Phase.isSide_of_isPlayback hplayback, hplayback,
      fun _ => ⟨hstate, hfresh⟩⟩
  token n token hn h := by
    cases hn
    exact htoken token h
  ending _ h := Progress.noConfusion h

/-- A playback has ended before its lines. -/
lemma opens_ended (hlock : q.lineLock = p.lineLock) (hstate : q.state ≠ .waiting)
    (h : Ended q f x) : Opens id p x := by
  obtain ⟨r, hr, -⟩ := h.report
  have hnot : ∀ next, x.2 ≠ .goes next := by
    intro next hnext
    rw [hr] at hnext
    cases hnext
  exact
    { lock := by rw [h.lock, hlock]; exact .same
      state := fun hwaiting => hstate (h.waiting hwaiting)
      next := fun n hn => absurd hn (hnot n)
      token := fun n _ hn => absurd hn (hnot n)
      ending := fun _ _ => h.token }

/-- A playback comes to its lines. -/
lemma opens_startLines {script : String} (hlock : q.lineLock = p.lineLock)
    (hstate : q.state ≠ .waiting) (htoken : q.token = some token) :
    Opens id p (q.startLines id token run script) := by
  obtain ⟨r, hr⟩ : ∃ r, r = (q.publish run (.scriptStarted script)).setCheckpoint := ⟨_, rfl⟩
  have hbearing : r.bearing = q.bearing := by
    rw [hr, bearing_setCheckpoint, bearing_publish _ _ rfl]
  have hrlock : r.lineLock = p.lineLock := (congrArg Bearing.lock hbearing).trans hlock
  have hrtoken : r.token = some token :=
    (congrArg (fun b : Bearing => b.rest.token) hbearing).trans htoken
  have hrstate : r.state ≠ .waiting := by
    rw [show r.state = q.state from congrArg Bearing.state hbearing]
    exact hstate
  unfold startLines
  split
  · exact opens_ended hlock hstate (ended_finish q _)
  · dsimp only
    rw [← hr]
    by_cases hloading : r.state = .loading
    · rw [moveFrom_eq _ _ hloading rfl]
      obtain ⟨e, he⟩ : ∃ e, e = r.commit run (r.cell.commit .playing) := ⟨_, rfl⟩
      have hebearing : e.bearing = { r.bearing with state := .playing } := by
        rw [he, bearing_commit]
      have helock : e.lineLock = p.lineLock := (congrArg Bearing.lock hebearing).trans hrlock
      have hetoken : e.token = some token :=
        (congrArg (fun b : Bearing => b.rest.token) hebearing).trans hrtoken
      have hestate : e.state ≠ .waiting := by
        rw [show e.state = .playing from congrArg Bearing.state hebearing]
        exact State.noConfusion
      obtain ⟨play, hplay⟩ : ∃ play : Play, play = ⟨token, e.stopwatch⟩ := ⟨_, rfl⟩
      have hplayed : play.token = token := by rw [hplay]
      have hbetween : Between id play.token e (e.continuePlay id play) := between_continuePlay
      rw [hplayed] at hbetween
      rw [← he, if_pos rfl, ← hplay]
      generalize e.continuePlay id play = x at hbetween
      cases hbetween with
      | @goes q next hphase hown hgoes hlocks =>
        have htokens : next.token? = (Phase.paused play).token? := by
          rw [hown, hplay]
          rfl
        have hleads := Phase.leads_of_isBetween rfl rfl htokens hphase
        have hqstate : q.state = e.state := congrArg Bearing.state hgoes
        have hqtoken : q.token = e.token := congrArg (fun b : Bearing => b.rest.token) hgoes
        refine
          { lock := ?_
            state := by rw [hqstate]; exact hestate
            next := fun n hn => ?_
            token := fun n t hn ht => ?_
            ending := fun _ h => Progress.noConfusion h }
        · rw [← helock]
          rcases hlocks with h | h
          · exact h ▸ .same
          · exact h ▸ .asked
        · cases hn
          refine ⟨hleads.unlined, hleads.side, hleads.playback, fun hearly => ?_⟩
          exact absurd (hleads.late.symm.trans hearly) Bool.false_ne_true
        · cases hn
          rw [hqtoken, hetoken, ← hown, ht]
      | ends hended hf => exact opens_ended helock hestate hended
    · rw [moveFrom_eq_of_ne _ _ hloading, if_neg Bool.false_ne_true]
      exact opens_ended hrlock hrstate (ended_finish r _)

/-- A playback that has the gate. -/
lemma opens_beginPlay {script : Script} {start : Start} {bound : Bool}
    (hstate : p.state.isUnderway = false) (htoken : p.token = none) :
    Opens id p (p.beginPlay id script start bound) := by
  obtain ⟨now, hgist⟩ := gist_prepare (p := p) script bound
  obtain ⟨q, hq⟩ : ∃ q, q = (p.prepare script bound).2 := ⟨_, rfl⟩
  rw [← hq] at hgist
  have hqlock : q.lineLock = p.lineLock := congrArg (fun g : Gist => g.core.lineLock) hgist
  have hqstate : q.state = .loading := congrArg Gist.state hgist
  have hqtoken : q.token = some (p.prepare script bound).1 :=
    congrArg (fun g : Gist => g.core.token) hgist
  unfold beginPlay
  split
  · exact ⟨.same, ne_waiting_of_idle hstate, fun _ h => Progress.noConfusion h,
      fun _ _ h => Progress.noConfusion h, fun _ _ => htoken⟩
  · dsimp only
    rw [← hq]
    split
    · next fault _ =>
      have hbearing := bearing_moveFrom q q.run (a := .loading) (b := .failed)
      rw [if_pos ⟨hqstate, rfl⟩] at hbearing
      refine opens_ended ((congrArg Bearing.lock hbearing).trans hqlock) ?_ (ended_finish _ _)
      rw [show (q.moveFrom q.run .loading .failed).2.state = .failed from
        congrArg Bearing.state hbearing]
      exact State.noConfusion
    · have hidle : q.state.isUnderway = false := congrArg State.isUnderway hqstate
      have hwaiting := ne_waiting_of_idle hidle
      split
      · split
        · refine opens_ended ?_ ?_ (ended_finish _ _)
          · exact hqlock
          · exact hwaiting
        · exact opens_early rfl hqlock hidle (fun h => Bool.noConfusion h)
            fun _ h => hqtoken.trans h
      · refine opens_startLines ?_ ?_ ?_
        · exact hqlock
        · exact hwaiting
        · exact hqtoken

/-- A request to play, with what is in progress stopped. -/
lemma opens_requestPlay {script : Script} {start : Start} {bound : Bool}
    (hstate : p.state.isUnderway = false) (htoken : p.token = none) :
    Opens id p (p.requestPlay id script start bound) := by
  have hstopped : p.stop.lineLock = p.lineLock ∧ p.stop.token = none := by
    obtain ⟨cell, bus, stopRequested, cancelled, hstop⟩ := p.exists_stop_eq
    rw [hstop]
    exact ⟨rfl, htoken⟩
  have hidle : p.stop.state.isUnderway = false := by
    by_contra hne
    have hp := stays_stop.state (Bool.not_eq_false _ ▸ hne)
    exact absurd (hstate.symm.trans hp) Bool.false_ne_true
  unfold requestPlay
  split
  · exact opens_refused hstate htoken
  · split
    · exact opens_refused hstate htoken
    · exact opens_early rfl hstopped.1 hidle (fun _ => hstopped.2) fun _ h => nomatch h

/-- What a playback may do before its lines. -/
lemma opens_step (hphase : phase.isEarly = true) (hstate : p.state.isUnderway = false)
    (htoken : phase.isFresh = true → p.token = none)
    (hown : ∀ token, phase.token? = some token → p.token = some token) :
    (p.step id phase).2 = .blocked ∨ Opens id p (p.step id phase) := by
  cases phase with
  | entering r =>
    refine .inr ?_
    cases r with
    | play script start bound => exact opens_requestPlay hstate (htoken rfl)
    | playNamed name =>
      simp only [step, accept]
      split
      · exact opens_refused hstate (htoken rfl)
      · refine opens_early rfl rfl hstate (fun _ => htoken rfl) ?_
        intro _ h
        cases h
    | _ => cases hphase
  | loading name =>
    refine .inr ?_
    simp only [step, loadAndPlay]
    split
    · exact opens_refused hstate (htoken rfl)
    · split
      · exact opens_refused hstate (htoken rfl)
      · exact opens_requestPlay hstate (htoken rfl)
  | playGate script start bound =>
    simp only [step]
    split
    · exact .inr (opens_beginPlay hstate (htoken rfl))
    · exact .inl rfl
  | preloading token run script until_ =>
    simp only [step]
    split
    · exact .inr (opens_startLines rfl (ne_waiting_of_idle hstate) (hown token rfl))
    · exact .inl rfl
  | _ => cases hphase

/-- A step of a playback before its lines is orderly. -/
lemma Opens.orderly (h : Opens id p x) (hphase : phase.isEarly = true) :
    Orderly id p phase x where
  role next hnext := by
    obtain ⟨-, hside, hplayback, -⟩ := h.next next hnext
    have hp := Phase.isPlayback_of_isEarly hphase
    exact ⟨hside.trans (Phase.isSide_of_isPlayback hp).symm, hplayback.trans hp.symm⟩
  token _ := h.token
  lined next line hnext hline := by
    rw [(h.next next hnext).1] at hline
    cases hline
  held next line hnext hline := by
    rw [(h.next next hnext).1] at hline
    cases hline
  others u hne hu := h.lock.isHeldBy hu hne
  waiting hstate := absurd hstate h.state
  early next hnext hearly := ⟨hphase, (h.next next hnext).2.2.2 hearly⟩
  side hside := by
    have hnot := Phase.isSide_of_isPlayback (Phase.isPlayback_of_isEarly hphase)
    exact absurd (hnot.symm.trans hside) (by decide)
  ending _ := h.ending

/-! ### Lines -/

namespace Bearing

lemma isUnderway_left : (b.left entered).state.isUnderway = b.state.isUnderway := by
  unfold left
  split
  · next h =>
    rw [h.2]
    rfl
  · rfl

lemma isUnderway_settled : b.settled.state.isUnderway = b.state.isUnderway := by
  unfold settled
  split
  · dsimp only
    split
    · next h =>
      rw [h]
      rfl
    · rfl
  · rfl

/-- After an attempt for which the state may have been changed, it is no longer `waiting`. -/
lemma left_state_ne_waiting (h : b.state = .waiting → entered = true) :
    (b.left entered).state ≠ .waiting := by
  unfold left
  split
  · exact State.noConfusion
  · next hnot => exact fun hb => hnot ⟨h hb, hb⟩

lemma settled_state_ne_waiting (h : b.state ≠ .waiting) : b.settled.state ≠ .waiting := by
  unfold settled
  split
  · dsimp only
    split
    · exact State.noConfusion
    · exact h
  · exact h

lemma lock_left : (b.left entered).lock = b.lock := by rw [left_eq]

lemma rest_left : (b.left entered).rest = b.rest := by rw [left_eq]

lemma lock_settled : b.settled.lock = b.lock := by rw [settled_eq]

lemma rest_settled : b.settled.rest = b.rest := by rw [settled_eq]

end Bearing

/-- The end of a line leaves the lock and the rest alone. -/
lemma Closed.keeps (h : Closed b entered q) : q.lineLock = b.lock ∧ q.backdrop = b.rest := by
  rcases h with h | h
  · exact ⟨(congrArg Bearing.lock h).trans (Bearing.lock_settled.trans Bearing.lock_left),
      (congrArg Bearing.rest h).trans (Bearing.rest_settled.trans Bearing.rest_left)⟩
  · exact ⟨(congrArg Bearing.lock h).trans Bearing.lock_left,
      (congrArg Bearing.rest h).trans Bearing.rest_left⟩

lemma Closed.isUnderway (h : Closed b entered q) : q.state.isUnderway = b.state.isUnderway := by
  rcases h with h | h
  · rw [show q.state = _ from congrArg Bearing.state h, Bearing.isUnderway_settled,
      Bearing.isUnderway_left]
  · rw [show q.state = _ from congrArg Bearing.state h, Bearing.isUnderway_left]

lemma Closed.ne_waiting (h : Closed b entered q) (hb : b.state = .waiting → entered = true) :
    q.state ≠ .waiting := by
  have hleft := Bearing.left_state_ne_waiting hb
  rcases h with h | h
  · rw [show q.state = _ from congrArg Bearing.state h]
    exact Bearing.settled_state_ne_waiting hleft
  · rw [show q.state = _ from congrArg Bearing.state h]
    exact hleft

lemma Begins.ne_waiting (h : Begins id p phase) : p.state ≠ .waiting := by
  rcases h.state with h | h
  · rw [h]
    exact State.noConfusion
  · rw [h.1]
    exact State.noConfusion

lemma Begins.isUnderway (h : Begins id p phase) : p.state.isUnderway = true := by
  rcases h.state with h | h
  · rw [h]
    rfl
  · rw [h.1]
    rfl

/-- What a line starts from. -/
lemma Takes.keeps (h : Takes id p phase b entered) : b.lock = p.lineLock ∧ b.rest = p.backdrop ∧
    (b.state.isUnderway = true → p.state.isUnderway = true) := by
  cases h with
  | runs | completes => exact ⟨rfl, rfl, fun h => h⟩
  | begins hbegins => exact ⟨rfl, rfl, fun _ => hbegins.isUnderway⟩

/-- The state is `waiting` at the start of a step of a line only if it was changed for it. -/
lemma Takes.waiting (h : Takes id p phase b entered)
    (hwaiting : ∀ line, phase.line? = some line → p.state = .waiting → line.entered = true) :
    b.state = .waiting → entered = true := by
  cases h with
  | runs hline => exact hwaiting _ hline
  | @begins index entered hbegins =>
    intro hb
    cases entered with
    | true => rfl
    | false => exact absurd hb hbegins.ne_waiting
  | completes hbegins => exact fun hb => absurd hb hbegins.ne_waiting

/-- A line is taken on, or begun in a playback that is under way. -/
lemma Takes.lined (h : Takes id p phase b entered) :
    phase.line? ≠ none ∨ p.state.isUnderway = true := by
  cases h with
  | runs hline =>
    refine .inl fun hnone => ?_
    rw [hnone] at hline
    cases hline
  | begins hbegins | completes hbegins => exact .inr hbegins.isUnderway

/-- Who makes a step of a line has the lock. -/
lemma Takes.held (h : Takes id p phase b entered)
    (hheld : ∀ line, phase.line? = some line → p.lineLock.isHeldBy id = true) :
    p.lineLock.isHeldBy id = true := by
  cases h with
  | runs hline => exact hheld _ hline
  | begins hbegins | completes hbegins => exact hbegins.held

/-! ### Every step is orderly -/

section Steps

/- A request makes a step with which nobody else loses the lock, and with which the state becomes
`waiting` only if it was before. -/
variable {next : Phase} {answer : Answer}
  (hothers : ∀ u, u ≠ id → p.lineLock.isHeldBy u = true → q.lineLock.isHeldBy u = true)
  (hwaiting : q.state = .waiting → p.state = .waiting ∧ phase.line? = none)

include hothers hwaiting

/-- The request goes on without a line. -/
lemma orderly_leads (hleads : phase.Leads next) (htoken : q.token = p.token)
    (hunderway : phase.isSide = true → q.state.isUnderway = true → p.state.isUnderway = true) :
    Orderly id p phase (q, .goes next) where
  role n hn := by
    cases hn
    exact ⟨hleads.side, hleads.playback⟩
  token hown n token hn ht := by
    cases hn
    exact htoken.trans (hown token (hleads.token.symm.trans ht))
  lined n line hn hline := by
    cases hn
    rw [hleads.unlined] at hline
    cases hline
  held n line hn hline := by
    cases hn
    rw [hleads.unlined] at hline
    cases hline
  others := hothers
  waiting h := .inl (hwaiting h)
  early n hn hearly := by
    cases hn
    rw [hleads.late] at hearly
    cases hearly
  side h := ⟨hunderway h, htoken⟩
  ending _ _ h := Progress.noConfusion h

/-- A request beside the playback ends. -/
lemma orderly_answer (hphase : phase.isSide = true)
    (hside : (q.state.isUnderway = true → p.state.isUnderway = true) ∧ q.token = p.token) :
    Orderly id p phase (q, .ends answer) where
  role _ h := Progress.noConfusion h
  token _ _ _ h := Progress.noConfusion h
  lined _ _ h := Progress.noConfusion h
  held _ _ h := Progress.noConfusion h
  others := hothers
  waiting h := .inl (hwaiting h)
  early _ h := Progress.noConfusion h
  side _ := hside
  ending h := absurd (h.symm.trans (Phase.isPlayback_of_isSide hphase)) (by decide)

/-- The playback ends. -/
lemma orderly_ended (hphase : phase.isSide = false) (hended : Ended q f x) :
    Orderly id p phase x := by
  obtain ⟨r, hr, -⟩ := hended.report
  have hnot : ∀ next, x.2 ≠ .goes next := by
    intro next h
    rw [hr] at h
    cases h
  exact
    { role := fun n hn => absurd hn (hnot n)
      token := fun _ n _ hn => absurd hn (hnot n)
      lined := fun n _ hn => absurd hn (hnot n)
      held := fun n _ hn => absurd hn (hnot n)
      others := fun u hne hu => hended.lock ▸ hothers u hne hu
      waiting := fun h => .inl (hwaiting (hended.waiting h))
      early := fun n hn => absurd hn (hnot n)
      side := fun h => absurd (hphase.symm.trans h) (by decide)
      ending := fun _ _ _ => hended.token }

end Steps

/-- A step of a line is orderly. -/
lemma Hands.orderly (h : Hands id phase b entered x) (htakes : Takes id p phase b entered)
    (hheld : p.lineLock.isHeldBy id = true) (hwaiting : b.state = .waiting → entered = true) :
    Orderly id p phase x := by
  obtain ⟨hlock, hrest, hunderway⟩ := htakes.keeps
  have hothers : ∀ l : Lock, ∀ u, u ≠ id → p.lineLock.isHeldBy u = true → l.isHeldBy u = true :=
    fun l u hne hu => absurd (Lock.isHeldBy_unique hu hheld) hne
  have htoken : ∀ q : Player, q.backdrop = b.rest → q.token = p.token := fun q hq =>
    (congrArg Player.token (hq.trans hrest) : q.backdrop.token = p.backdrop.token)
  have hunwaiting : ∀ q : Player, Closed b entered q →
      q.state = .waiting → p.state = .waiting ∧ phase.line? = none :=
    fun q hq h => absurd h (hq.ne_waiting hwaiting)
  cases h with
  | @goes q next line hline hside hplayback hown hpending hbearing =>
    have hq : q.lineLock = b.lock ∧ q.backdrop = b.rest ∧
        q.state.isUnderway = b.state.isUnderway := by
      rcases hbearing with ⟨hq, -⟩ | ⟨hq, -⟩
      · exact ⟨congrArg Bearing.lock hq, congrArg Bearing.rest hq,
          congrArg (fun b : Bearing => b.state.isUnderway) hq⟩
      · have hclosed : Closed b entered q := .inr hq
        exact ⟨hclosed.keeps.1, hclosed.keeps.2, hclosed.isUnderway⟩
    refine
      { role := fun n hn => ?_
        token := fun htokens n t hn ht => ?_
        lined := fun n l hn hl => htakes.lined
        held := fun n l hn hl => ?_
        others := hothers q.lineLock
        waiting := fun hstate => .inr ⟨next, line, rfl, hline, ?_⟩
        early := fun n hn hearly => ?_
        side := fun _ => ⟨fun h => hunderway (hq.2.2 ▸ h), htoken q hq.2.1⟩
        ending := fun _ answer h => Progress.noConfusion h }
    · cases hn
      exact ⟨hside, hplayback⟩
    · cases hn
      exact (htoken q hq.2.1).trans (htokens t (hown.symm.trans ht))
    · rw [hq.1, hlock]
      exact hheld
    · rcases hbearing with ⟨hq, hentered⟩ | ⟨hq, hentered⟩
      · rw [hentered]
        exact hwaiting ((congrArg Bearing.state hq).symm.trans hstate)
      · exact absurd ((congrArg Bearing.state hq).symm.trans hstate)
          (Bearing.left_state_ne_waiting hwaiting)
    · cases hn
      rw [Phase.line?_of_isEarly hearly] at hline
      cases hline
  | @stepped q answer hside hbearing =>
    have hclosed : Closed b entered q := .inl hbearing
    refine orderly_answer (hothers _) (fun h => hunwaiting q hclosed h) hside
      ⟨fun h => hunderway ?_, htoken q hclosed.keeps.2⟩
    rw [← hclosed.isUnderway]
    exact h
  | @defers q f answer hside hclosed =>
    have hdefer := bearing_defer q f
    have hstate : (q.defer f).state = if q.state = .paused then .playing else q.state :=
      congrArg Bearing.state hdefer
    have hdeferred : (q.defer f).token = q.token :=
      congrArg (fun b : Bearing => b.rest.token) hdefer
    refine orderly_answer (hothers _) (fun h => ?_) hside
      ⟨fun h => hunderway ?_, hdeferred.trans (htoken q hclosed.keeps.2)⟩
    · have hwaits : (q.defer f).state = .waiting := h
      rw [hstate] at hwaits
      split at hwaits
      · cases hwaits
      · exact hunwaiting q hclosed hwaits
    · have hunder : (q.defer f).state.isUnderway = true := h
      rw [hstate] at hunder
      rw [← hclosed.isUnderway]
      split at hunder
      · next hpaused =>
        rw [hpaused]
        rfl
      · exact hunder
  | @played q x token hplayback hown hbearing hbetween =>
    have hside := Phase.isSide_of_isPlayback hplayback
    have hclosed : Closed b entered q := .inl hbearing
    cases hbetween with
    | @goes r next hphase hnext hgoes hlocks =>
      have hstate : r.state = q.state := congrArg Bearing.state hgoes
      have hkept : r.token = q.token := congrArg (fun b : Bearing => b.rest.token) hgoes
      have hleads := Phase.leads_of_isBetween hside hplayback (hnext.trans hown.symm) hphase
      refine orderly_leads (hothers _) (fun h => hunwaiting q hclosed (hstate.symm.trans h)) hleads
        (hkept.trans (htoken q hclosed.keeps.2)) fun h => ?_
      exact absurd (hside.symm.trans h) (by decide)
    | ends hended hf =>
      exact orderly_ended (q := { q with lineLock := q.lineLock.release }) (hothers _)
        (fun h => hunwaiting q hclosed h) hside hended
  | @finishes q f x hplayback hclosed hended =>
    exact orderly_ended (q := { q with lineLock := q.lineLock.release }) (hothers _)
      (fun h => hunwaiting q hclosed h) (Phase.isSide_of_isPlayback hplayback) hended

/-- A step of a playback that has come to its lines, or of a request beside it, is orderly. -/
lemma Turn.orderly (h : Turn id p phase x)
    (hheld : ∀ line, phase.line? = some line → p.lineLock.isHeldBy id = true)
    (hwaiting : ∀ line, phase.line? = some line → p.state = .waiting → line.entered = true) :
    Orderly id p phase x := by
  cases h with
  | @goes q next hline hleads hbearing hlock =>
    have hstate : q.state = p.state := congrArg Bearing.state hbearing
    have htoken : q.token = p.token := congrArg (fun b : Bearing => b.rest.token) hbearing
    exact orderly_leads (fun u hne hu => hlock.isHeldBy hu hne)
      (fun h => ⟨hstate.symm.trans h, hline⟩) hleads htoken fun _ h => hstate ▸ h
  | @leaves q answer hline hside hbearing hlock =>
    have hstate : q.state = p.state := congrArg Bearing.state hbearing
    have htoken : q.token = p.token := congrArg (fun b : Bearing => b.rest.token) hbearing
    exact orderly_answer (fun u hne hu => hlock.isHeldBy hu hne)
      (fun h => ⟨hstate.symm.trans h, hline⟩) hside ⟨fun h => hstate ▸ h, htoken⟩
  | @concludes lock f x hline hplayback hlock hended =>
    exact orderly_ended (q := { p with lineLock := lock })
      (fun u hne hu => hlock.isHeldBy hu hne) (fun h => ⟨h, hline⟩)
      (Phase.isSide_of_isPlayback hplayback) hended
  | @hit q next hbegins hpending hleads hbearing =>
    have hstate : q.state = .paused := congrArg Bearing.state hbearing
    have htoken : q.token = p.token := congrArg (fun b : Bearing => b.rest.token) hbearing
    refine orderly_leads (fun u hne hu => absurd (Lock.isHeldBy_unique hu hbegins.held) hne)
      (fun h => ?_) hleads htoken fun _ _ => hbegins.isUnderway
    rw [hstate] at h
    cases h
  | line htakes hhands =>
    exact hhands.orderly htakes (htakes.held hheld) (htakes.waiting hwaiting)

/-- Every step of a playback or of a request beside it is orderly. -/
lemma orderly_step (hphase : phase.isPlayback = true ∨ phase.isSide = true)
    (hearly : phase.isEarly = true →
      p.state.isUnderway = false ∧ (phase.isFresh = true → p.token = none))
    (hown : ∀ token, phase.token? = some token → p.token = some token)
    (hheld : ∀ line, phase.line? = some line → p.lineLock.isHeldBy id = true)
    (hwaiting : ∀ line, phase.line? = some line → p.state = .waiting → line.entered = true)
    (hstep : (p.step id phase).2 ≠ .blocked) : Orderly id p phase (p.step id phase) := by
  cases he : phase.isEarly with
  | true =>
    obtain ⟨hstate, htoken⟩ := hearly he
    exact ((opens_step he hstate htoken hown).resolve_left hstep).orderly he
  | false =>
    have hturn : Turn id p phase (p.step id phase) := by
      rcases hphase with h | h
      · exact (turn_playback h he).resolve_left hstep
      · exact (turn_side h).resolve_left hstep
    exact hturn.orderly hheld hwaiting

end Player

end Recital

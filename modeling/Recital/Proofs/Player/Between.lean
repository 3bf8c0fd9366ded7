import Recital.Proofs.Player.Bearing
import Recital.Proofs.Player.Round

/-!
# Playbacks between two lines

Between two lines a playback waits for the end of a delay or of a pause, for an automatic save or
for the line lock.  It changes nothing that other requests go by, but asks for the lock, or it comes
to its end (`Between`).  The end is the one that a single step has left for it, if there is one that
it gets to see; a playback that is cancelled may not look.
-/

namespace Recital

/-- A phase of a playback between two lines. -/
def Phase.isBetween : Phase → Bool
  | .paused _ | .playLock _ | .delaying .. | .autosaving .. => true
  | _ => false

/-- The token of the playback that a phase belongs to. -/
def Phase.token? : Phase → Option Token
  | .preloading token .. => some token
  | .paused play | .playLock play | .playing play _ => some play.token
  | .delaying play _ | .autosaving play _ => some play.token
  | _ => none

namespace Player

/-- The script that is played, and how many lines and commands were executed. -/
def account (p : Player) : String × Nat × Nat :=
  (p.context.scriptName, p.context.linesExecuted, p.context.commandsExecuted)

variable {p q : Player} {id : Nat} {play : Play} {token : Token} {f : Finish}
  {x : Player × Progress} {run : Run}

/-- The report is the one that an end determines where the playback stands. -/
structure Determines (p : Player) (f : Finish) (r : Report) : Prop where
  outcome : r.outcome = (p.conclude f).2.1
  fault : r.fault = (p.conclude f).2.2.map Prod.fst
  line : r.lineIndex = (p.conclude f).2.2.map Prod.snd
  account : (r.scriptName, r.linesExecuted, r.commandsExecuted) = p.account

/-- A playback has ended. -/
structure Ended (p : Player) (f : Finish) (x : Player × Progress) : Prop where
  report : ∃ r, x.2 = .ends (.report r) ∧ p.Determines f r
  token : x.1.token = none
  lock : x.1.lineLock = p.lineLock
  begun : x.1.bus.begun = p.bus.begun
  waiting : x.1.state = .waiting → p.state = .waiting
  account : x.1.account = p.account

/-- What becomes of a playback between two lines. -/
inductive Between (id : Nat) (token : Token) (p : Player) : Player × Progress → Prop
  /-- It goes on without a line. -/
  | goes {q : Player} {phase : Phase} (hphase : phase.isBetween = true)
    (htoken : phase.token? = some token)
    (hbearing : q.bearing = { p.bearing with lock := q.lineLock })
    (hlock : q.lineLock = p.lineLock ∨ q.lineLock = p.lineLock.request id)
    (hcontext : q.context = p.context) : Between id token p (q, .goes phase)
  | ends {f : Finish} {x : Player × Progress} (hx : Ended p f x)
    (hf : p.deferred = some f ∨ p.deferred = none ∨
      f = .cancelled ∧ p.isCancelled token = true) : Between id token p x

/-! ### The end -/

/-- A move to the last state of a playback leads to no `waiting`. -/
lemma state_moveIfAllowed {b : State} (hb : b ≠ .waiting)
    (h : (p.moveIfAllowed run b).state = .waiting) : p.state = .waiting := by
  rw [moveIfAllowed_eq_ite] at h
  split at h
  · exact absurd h hb
  · exact h

lemma state_moveFrom {a b : State} (hb : b ≠ .waiting)
    (h : (p.moveFrom run a b).2.state = .waiting) : p.state = .waiting := by
  rw [moveFrom_eq_ite] at h
  split at h
  · exact absurd h hb
  · exact h

lemma state_conclude (h : (p.conclude f).1.state = .waiting) : p.state = .waiting := by
  cases f with
  | completed =>
    have hmoved := state_moveIfAllowed State.noConfusion h
    exact state_moveFrom State.noConfusion hmoved
  | stopped | failed | halted | cancelled => exact state_moveIfAllowed State.noConfusion h

/-- The end of a playback changes the state and what belongs to the playback. -/
lemma bearing_conclude :
    (p.conclude f).1.bearing = { p.bearing with state := (p.conclude f).1.state } := by
  cases f with
  | completed =>
    simp only [conclude]
    rw [bearing_moveIfAllowed, bearing_moveFrom]
    split <;> rfl
  | stopped | failed | halted | cancelled => exact bearing_moveIfAllowed _ _

/-- A playback that comes to its end has ended. -/
lemma ended_finish (p : Player) (f : Finish) : Ended p f (p.finish f) := by
  obtain ⟨q, hq⟩ : ∃ q, q = (p.conclude f).1 := ⟨_, rfl⟩
  obtain ⟨r, hr⟩ : ∃ r, r = q.report (p.conclude f).2.1 (p.conclude f).2.2 := ⟨_, rfl⟩
  have hcontext : q.context = p.context := by
    rw [hq]
    exact congrArg (fun g : Gist => g.core.context) (gist_conclude (p := p) (f := f))
  have hbearing : q.bearing = { p.bearing with state := q.state } := hq ▸ bearing_conclude
  obtain ⟨e, he⟩ : ∃ e, e = (q.publishEnd r).measureMemory := ⟨_, rfl⟩
  have hgist : e.gist = q.gist := by
    rw [he, gist_measureMemory]
    unfold publishEnd
    split <;> exact gist_publish _ _ rfl
  have hend : e.bearing = q.bearing := by
    rw [he, bearing_measureMemory]
    unfold publishEnd
    split <;> exact bearing_publish _ _ rfl
  have hfinish : p.finish f =
      ({ e with token := none, gate := e.gate.release }, .ends (.report r)) := by
    rw [he, hr, hq]
    rfl
  have hecontext : e.context = p.context :=
    (congrArg (fun g : Gist => g.core.context) hgist).trans hcontext
  rw [hfinish]
  refine ⟨⟨r, rfl, ?_⟩, rfl, ?_, ?_, fun hwaiting => ?_, ?_⟩
  · rw [hr]
    refine ⟨rfl, rfl, rfl, ?_⟩
    unfold account
    rw [← hcontext]
    rfl
  · exact (congrArg Bearing.lock hend).trans (congrArg Bearing.lock hbearing)
  · exact (congrArg Bearing.begun hend).trans (congrArg Bearing.begun hbearing)
  · have hstate : e.state = q.state := congrArg Bearing.state hend
    have hqwaiting : q.state = .waiting := hstate.symm.trans hwaiting
    exact state_conclude (hq ▸ hqwaiting)
  · unfold account
    rw [← hecontext]

/-- What is left over for the playback does not change how it ends. -/
lemma Ended.of_deferred {deferred : Option Finish}
    (h : Ended { p with deferred } f x) : Ended p f x := by
  obtain ⟨⟨r, hx, hr⟩, htoken, hlock, hbegun, hwaiting, haccount⟩ := h
  have hconclude : ({ p with deferred }.conclude f).2 = (p.conclude f).2 := by
    cases f <;> rfl
  refine ⟨⟨r, hx, ?_, ?_, ?_, hr.account⟩, htoken, hlock, hbegun, hwaiting, haccount⟩
  · rw [← hconclude]
    exact hr.outcome
  · rw [← hconclude]
    exact hr.fault
  · rw [← hconclude]
    exact hr.line

/-! ### The loop -/

/-- A playback that is not paused ends or asks for the line lock. -/
lemma between_playOn : Between id play.token p (p.playOn id play) := by
  unfold playOn
  split
  · next f hf => exact .ends (ended_finish _ f).of_deferred (.inl hf)
  · next hnone =>
    split
    · exact .ends (ended_finish p _) (.inr (.inl hnone))
    · split
      · exact .goes rfl rfl rfl (.inr rfl) rfl
      · exact .goes rfl rfl rfl (.inr rfl) rfl
      · exact .goes rfl rfl rfl (.inl rfl) rfl
      · exact .ends (ended_finish p _) (.inr (.inl hnone))
      · exact .ends (ended_finish p _) (.inr (.inl hnone))

lemma between_continuePlay : Between id play.token p (p.continuePlay id play) := by
  unfold continuePlay
  split
  · exact .goes rfl rfl rfl (.inl rfl) rfl
  · exact between_playOn

lemma between_autosave : Between id play.token p (p.autosave id play) := by
  unfold autosave
  split
  · exact .goes rfl rfl rfl (.inl rfl) rfl
  · exact between_continuePlay

/-- The same goes for a player with the same bearing that stands where the first one does. -/
lemma Between.of_bearing (h : Between id token q x) (hbearing : q.bearing = p.bearing)
    (hcontext : q.context = p.context) : Between id token p x := by
  have hstate : q.state = p.state := congrArg Bearing.state hbearing
  have hlock : q.lineLock = p.lineLock := congrArg Bearing.lock hbearing
  have hdeferred : q.deferred = p.deferred := congrArg (fun b : Bearing => b.rest.deferred) hbearing
  have hrequested : q.stopRequested = p.stopRequested :=
    congrArg (fun b : Bearing => b.rest.stopRequested) hbearing
  cases h with
  | goes hphase htoken hq hlocks hsame =>
    rw [hbearing] at hq
    rw [hlock] at hlocks
    exact .goes hphase htoken hq hlocks (hsame.trans hcontext)
  | @ends f x hx hf =>
    obtain ⟨⟨r, hx, hr⟩, htoken, hxlock, hbegun, hwaiting, haccount⟩ := hx
    have hconclude : (q.conclude f).2 = (p.conclude f).2 := by
      cases f with
      | cancelled => simp only [conclude, hrequested]
      | completed | stopped | failed | halted => rfl
    have hcancelled : q.isCancelled token = p.isCancelled token :=
      congrArg (fun b : Bearing => b.rest.isCancelled token) hbearing
    have hsame : q.account = p.account := by
      unfold account
      rw [hcontext]
    rw [hdeferred, hcancelled] at hf
    rw [hstate] at hwaiting
    refine .ends ⟨⟨r, hx, ?_, ?_, ?_, hr.account.trans hsame⟩, htoken, ?_, ?_, hwaiting,
      haccount.trans hsame⟩ hf
    · rw [← hconclude]
      exact hr.outcome
    · rw [← hconclude]
      exact hr.fault
    · rw [← hconclude]
      exact hr.line
    · exact hxlock.trans hlock
    · exact hbegun.trans (congrArg Bearing.begun hbearing)

/-! ### Phases between lines -/

/-- A playback that waits and finds itself cancelled ends. -/
lemma between_cancelled {waits : Bool} (h : (p.isCancelled token && waits) = true) :
    Between id token p (p.finish .cancelled) :=
  .ends (ended_finish p _) (.inr (.inr ⟨rfl, (Bool.and_eq_true_iff.mp h).1⟩))

/-- A playback that waits for the end of a pause. -/
lemma between_step_paused : p.step id (.paused play) = (p, .blocked) ∨
    Between id play.token p (p.step id (.paused play)) := by
  simp only [step]
  split
  · next hcancelled => exact .inr (between_cancelled hcancelled)
  · split
    · exact .inl rfl
    · exact .inr between_playOn

/-- A playback that waits for the end of a delay. -/
lemma between_step_delaying {until_ : Nat} :
    p.step id (.delaying play until_) = (p, .blocked) ∨
      Between id play.token p (p.step id (.delaying play until_)) := by
  simp only [step]
  split
  · next hcancelled => exact .inr (between_cancelled hcancelled)
  · split
    · exact .inr between_autosave
    · exact .inl rfl

/-- A playback that saves automatically. -/
lemma between_step_autosaving {s : Snapshot} :
    Between id play.token p (p.step id (.autosaving play s)) := by
  have hcontext : ∀ q : Player, q.measureMemory.context = q.context := fun q =>
    congrArg (fun g : Gist => g.core.context) (gist_measureMemory q)
  have hwrite : ∀ key, (p.write key s).2.context = p.context := fun key =>
    congrArg (fun g : Gist => g.core.context) (gist_write p)
  simp only [step]
  split
  · exact between_continuePlay.of_bearing (bearing_measureMemory p) (hcontext p)
  · refine between_continuePlay.of_bearing ?_ ((hcontext _).trans (hwrite _))
    rw [bearing_measureMemory, bearing_write]

/-- A playback that a breakpoint pauses has let go of the line lock and waits. -/
lemma paused_of_hit (id : Nat) (play : Play) {r : Player} {index : Nat} {context : Context}
    (hstate : p.state = .playing)
    (hq : q = { p with context }.publish p.run (.breakpointHit index))
    (hr : r = (q.moveFrom q.run .playing .paused).2) :
    ∃ e : Player,
      { r with lineLock := r.lineLock.release }.continuePlay id play = (e, .goes (.paused play)) ∧
        e.bearing = { p.bearing with state := .paused, lock := p.lineLock.release } := by
  have hbearing : q.bearing = p.bearing := by
    rw [hq, bearing_publish _ _ rfl]
    rfl
  have hqstate : q.state = .playing := (congrArg Bearing.state hbearing).trans hstate
  have hrbearing : r.bearing = { p.bearing with state := .paused } := by
    rw [hr, moveFrom_eq _ _ hqstate rfl, bearing_commit, hbearing]
  have hrlock : r.lineLock = p.lineLock := congrArg Bearing.lock hrbearing
  have hrstate : { r with lineLock := r.lineLock.release }.state = .paused :=
    congrArg Bearing.state hrbearing
  refine ⟨{ r with lineLock := r.lineLock.release }, ?_, ?_⟩
  · rw [continuePlay, if_pos hrstate]
  · rw [← hrlock]
    exact congrArg (fun b : Bearing => { b with lock := r.lineLock.release }) hrbearing

/-- A playback goes on after a line. -/
lemma between_afterLine :
    Between id play.token { p with lineLock := p.lineLock.release }
    (p.afterLine id play .next) := by
  obtain ⟨q, hq⟩ : ∃ q, q = { p with lineLock := p.lineLock.release } := ⟨_, rfl⟩
  rw [afterLine_next hq, ← hq]
  split
  · exact between_autosave
  · exact .goes rfl rfl rfl (.inl rfl) rfl

end Player

end Recital

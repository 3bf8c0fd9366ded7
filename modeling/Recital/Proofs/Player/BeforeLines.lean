import Recital.Proofs.Player.PlaybackEnd

/-!
# Playbacks before their lines

A request to play waits for its script and for the gate.  Once it has the gate, the script is
accepted or it is refused for its defects (`Host.Refuses`), and an accepted one is prepared until
the lines begin.  `Starts` says how a playback comes to that point, and `Opened` what becomes of it
from there: it comes to its lines sane, or it ends with a report that agrees with its state.
-/

namespace Recital

/-- The script that a host finds by a name. -/
def Host.find? (host : Host) (name : String) : Option Script :=
  host.loader.bind fun load => (load name).toOption

/-- The script has defects that the host does not tolerate. -/
def Host.Refuses (host : Host) (script : Script) : Prop :=
  host.config.tolerance.refuseDefects = true ∧ script.survey.fault? script.name ≠ none

/-- The script that a request is going to play. -/
def Request.script? (host : Host) : Request → Option Script
  | .play script _ _ => some script
  | .playNamed name => host.find? name
  | _ => none

/-- The script that a playback is going to play that has not got the gate. -/
def Phase.script? (host : Host) : Phase → Option Script
  | .entering request => request.script? host
  | .loading name => host.find? name
  | .playGate script _ _ => some script
  | _ => none

namespace Player

variable {p q : Player} {id : Nat} {token : Token} {phase : Phase} {run : Run}

/-! ### With the gate -/

/-- A playback whose script is being prepared, or that was stopped meanwhile. -/
structure Preparing (token : Token) (p : Player) : Prop where
  state : p.state = .loading ∨ p.state = .stopped ∧ p.isCancelled token = true
  deferred : p.deferred = none

lemma Preparing.active (h : Preparing token p) : p.state.isActive = true ∨ p.state = .stopped :=
  h.state.imp (fun hloading => by rw [hloading]; rfl) And.left

/-- A playback whose script is accepted prepares it further, comes to its lines or ends. -/
structure Opened (token : Token) (x : Player × Progress) : Prop where
  goes : ∀ next, x.2 = .goes next →
    next.token? = some token ∧ next.isFresh = false ∧ next.line? = none
  early : ∀ next, x.2 = .goes next → next.isEarly = true → Preparing token x.1
  late : ∀ next, x.2 = .goes next → next.isEarly = false → Sane token x.1
  ends : ∀ answer, x.2 = .ends answer → ∃ r, answer = .report r ∧ Accords x.1 r ∧
    x.1.state ≠ .failed

/-- A playback that is ended before its lines. -/
lemma opened_cancelled (token : Token) (hstate : p.state.isActive = true ∨ p.state = .stopped) :
    Opened token (p.finish .cancelled) ∧
      (p.state = .stopped → (p.finish .cancelled).1.state = .stopped) := by
  have hfair : Fair 0 token p (p.finish .cancelled) :=
    fair_finish hstate (fun h => h) fun hdone => Finish.noConfusion hdone
  obtain ⟨r, hends, -⟩ := finish_spec p .cancelled
  have hnot : ∀ next, (p.finish .cancelled).2 ≠ .goes next := fun next hnext => by
    rw [hends] at hnext
    cases hnext
  refine ⟨⟨fun next hnext => absurd hnext (hnot next), fun next hnext => absurd hnext (hnot next),
    fun next hnext => absurd hnext (hnot next), fun answer hanswer => ?_⟩, hfair.stays⟩
  obtain ⟨r, heq, haccords, hfailed, -⟩ := hfair.ends answer hanswer
  exact ⟨r, heq, haccords, hfailed⟩

/-- A playback that has prepared its script comes to its lines, unless it was stopped or
cancelled. -/
lemma opened_startLines {script : String} (h : Preparing token p) :
    Opened token (p.startLines id token run script) ∧
      (p.state = .stopped → (p.startLines id token run script).1.state = .stopped) := by
  unfold startLines
  split
  · exact opened_cancelled token h.active
  · next hgoing =>
    have hloading : p.state = .loading := h.state.resolve_right fun hs => hgoing hs.2
    obtain ⟨q, hq⟩ : ∃ q, q = (p.publish run (.scriptStarted script)).setCheckpoint := ⟨_, rfl⟩
    have hbearing : q.bearing = p.bearing := by
      rw [hq, bearing_setCheckpoint, bearing_publish _ _ rfl]
    have hqstate : q.state = .loading := (congrArg Bearing.state hbearing).trans hloading
    obtain ⟨e, he⟩ : ∃ e, e = q.commit run (q.cell.commit .playing) := ⟨_, rfl⟩
    have hebearing : e.bearing = { p.bearing with state := .playing } := by
      rw [he, bearing_commit, hbearing]
    have hestate : e.state = .playing := congrArg Bearing.state hebearing
    have hdeferred : e.deferred = none :=
      (congrArg (fun b : Bearing => b.rest.deferred) hebearing).trans h.deferred
    have hleft : e.deferred ≠ some .completed := by
      rw [hdeferred]
      exact (Option.some_ne_none _).symm
    have hsane : Sane token e := ⟨.inl (by rw [hestate]; rfl), fun hl => absurd hl hleft⟩
    obtain ⟨play, hplay⟩ : ∃ play : Play, play = ⟨token, e.stopwatch⟩ := ⟨_, rfl⟩
    have hplayed : play.token = token := by rw [hplay]
    have hfair : Fair id play.token e (e.continuePlay id play) :=
      fair_continuePlay (by rw [hplayed]; exact hsane)
    have hbetween : Between id play.token e (e.continuePlay id play) := between_continuePlay
    rw [hplayed] at hfair hbetween
    dsimp only
    rw [← hq, moveFrom_eq _ _ hqstate rfl, ← he, if_pos rfl, ← hplay]
    refine ⟨⟨fun next hnext => ?_, fun next hnext hearly => ?_, fun next hnext _ => ?_,
      fun answer hanswer => ?_⟩, fun hstopped => ?_⟩
    · generalize e.continuePlay id play = x at hbetween hnext
      cases hbetween with
      | goes hphase htoken =>
        cases hnext
        cases next with
        | paused | playLock | delaying | autosaving => exact ⟨htoken, rfl, rfl⟩
        | _ => cases hphase
      | ends hended =>
        obtain ⟨r, hr, -⟩ := hended.report
        rw [hr] at hnext
        cases hnext
    · generalize e.continuePlay id play = x at hbetween hnext
      cases hbetween with
      | goes hphase =>
        cases hnext
        cases next with
        | paused | playLock | delaying | autosaving => cases hearly
        | _ => cases hphase
      | ends hended =>
        obtain ⟨r, hr, -⟩ := hended.report
        rw [hr] at hnext
        cases hnext
    · exact (hfair.goes next hnext).1
    · obtain ⟨r, heq, haccords, hfailed, -⟩ := hfair.ends answer hanswer
      exact ⟨r, heq, haccords, hfailed⟩
    · cases hstopped.symm.trans hloading

/-! ### On the way to the gate -/

/-- What a playback does before its lines that has not got the gate. -/
inductive Starts (p : Player) (phase : Phase) : Player × Progress → Prop
  /-- It comes nearer to the gate. -/
  | waits {q : Player} {next : Phase} (hnext : next.isFresh = true)
    (hscript : next.script? p.host = phase.script? p.host) (hhost : q.host = p.host) :
    Starts p phase (q, .goes next)
  | refused {q : Player} {r : Refusal} (hstate : q.state = p.state) :
    Starts p phase (q, .ends (.refused r))
  /-- The script has defects. -/
  | unfit {x : Player × Progress} {r : Report} {script : Script}
    (hscript : phase.script? p.host = some script) (hrefuses : p.host.Refuses script)
    (hends : x.2 = .ends (.report r)) (haccords : Accords x.1 r) (hstate : x.1.state = .failed) :
    Starts p phase x
  | opens {x : Player × Progress} {token : Token} {script : Script}
    (hscript : phase.script? p.host = some script) (hfit : ¬ p.host.Refuses script)
    (hopened : Opened token x) : Starts p phase x

lemma host_stop : p.stop.host = p.host := congrArg Place.host stays_stop.place

/-- A request to play waits for the gate or is refused. -/
lemma starts_requestPlay {script : Script} {start : Start} {bound : Bool}
    (hscript : phase.script? p.host = some script) :
    Starts p phase (p.requestPlay id script start bound) := by
  unfold requestPlay
  split
  · exact .refused rfl
  · split
    · exact .refused rfl
    · exact .waits rfl hscript.symm host_stop

/-- A playback that has the gate. -/
lemma starts_beginPlay {script : Script} {start : Start} {bound : Bool} :
    Starts p (.playGate script start bound) (p.beginPlay id script start bound) := by
  obtain ⟨now, hgist⟩ := gist_prepare (p := p) script bound
  obtain ⟨q, hq⟩ : ∃ q, q = (p.prepare script bound).2 := ⟨_, rfl⟩
  obtain ⟨token, htoken⟩ : ∃ token, token = (p.prepare script bound).1 := ⟨_, rfl⟩
  rw [← hq] at hgist
  have hstate : q.state = .loading := congrArg Gist.state hgist
  have hdeferred : q.deferred = none := congrArg (fun g : Gist => g.core.deferred) hgist
  have htolerance : q.tolerance = p.tolerance :=
    congrArg (fun g : Gist => g.core.host.config.tolerance) hgist
  unfold beginPlay
  split
  · exact .refused rfl
  · dsimp only
    rw [← hq, ← htoken, htolerance]
    split
    · next fault hfault =>
      have hrefuses : p.host.Refuses script := by
        split at hfault
        · next hrefuse => exact ⟨hrefuse, by rw [hfault]; exact Option.some_ne_none _⟩
        · cases hfault
      obtain ⟨e, he⟩ : ∃ e, e = (q.moveFrom q.run .loading .failed).2 := ⟨_, rfl⟩
      have hestate : e.state = .failed := by
        rw [he, state_moveFrom_eq, if_pos ⟨hstate, rfl⟩]
      obtain ⟨r, hends, hlast, hcontext, houtcome⟩ :=
        finish_spec e (.failed fault (fault.lineIndex.getD 0))
      have hfailed : (e.finish (.failed fault (fault.lineIndex.getD 0))).1.state = .failed := by
        rw [hlast]
        simp only [conclude]
        rw [state_moveIfAllowed_eq, hestate]
        rfl
      have hfailure : r.outcome = .failure := houtcome
      rw [← he]
      refine .unfit rfl hrefuses hends ⟨?_, fun h => ?_, fun _ => .inr hfailed, fun h => ?_⟩ hfailed
      · rw [hfailure, hfailed]
        exact ⟨fun h => Outcome.noConfusion h, fun h => State.noConfusion h⟩
      · rw [hfailure] at h
        cases h
      · rw [hfailure] at h
        rcases h with h | h <;> cases h
    · next hfault =>
      have hfit : ¬ p.host.Refuses script := by
        rintro ⟨hrefuse, hne⟩
        exact hne ((if_pos (c := p.tolerance.refuseDefects = true) hrefuse).symm.trans hfault)
      have hpreparing : ∀ context trace, Preparing token { q with context, trace } := fun _ _ =>
        ⟨.inl hstate, hdeferred⟩
      split
      · split
        · exact .opens rfl hfit (opened_cancelled token (hpreparing _ _).active).1
        · have hgoes : ∀ q, Preparing token q → ∀ run name until_,
              Opened token (q, .goes (.preloading token run name until_)) := by
            intro q hq run name until_
            refine ⟨fun next hnext => ?_, fun next hnext _ => hq, fun next hnext hlate => ?_,
              fun _ h => Progress.noConfusion h⟩
            · cases hnext
              exact ⟨rfl, rfl, rfl⟩
            · cases hnext
              cases hlate
          exact .opens rfl hfit (hgoes _ (hpreparing _ _) _ _ _)
      · exact .opens rfl hfit (opened_startLines (hpreparing _ _)).1

/-- What a playback that has not got the gate does. -/
lemma starts_step (id : Nat) (hphase : phase.isFresh = true) :
    (p.step id phase).2 = .blocked ∨ Starts p phase (p.step id phase) := by
  cases phase with
  | entering r =>
    refine .inr ?_
    cases r with
    | play script start bound => exact starts_requestPlay rfl
    | playNamed name =>
      simp only [step, accept]
      split
      · exact .refused rfl
      · exact .waits rfl rfl rfl
    | _ => cases hphase
  | loading name =>
    refine .inr ?_
    simp only [step, loadAndPlay]
    split
    · exact .refused rfl
    · next load hload =>
      split
      · exact .refused rfl
      · next script hscript =>
        refine starts_requestPlay ?_
        simp only [Phase.script?, Host.find?, hload, Option.bind_some, hscript]
        rfl
  | playGate script start bound =>
    simp only [step]
    split
    · exact .inr starts_beginPlay
    · exact .inl rfl
  | _ => cases hphase

/-- What a playback does that has got the gate and has not come to its lines. -/
lemma opened_step (id : Nat) (h : Preparing token p) (hphase : phase.isEarly = true)
    (hfresh : phase.isFresh = false) (htoken : phase.token? = some token) :
    (p.step id phase).2 = .blocked ∨ Opened token (p.step id phase) ∧
      (p.state = .stopped → (p.step id phase).1.state = .stopped) := by
  cases phase with
  | preloading _ run script until_ =>
    cases htoken
    simp only [step]
    split
    · exact .inr (opened_startLines h)
    · exact .inl rfl
  | entering r => cases htoken
  | loading | playGate => cases htoken
  | _ => cases hphase

end Player

end Recital

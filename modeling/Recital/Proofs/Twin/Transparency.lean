import Mathlib.Logic.Relation
import Recital.Proofs.Player.Orderly
import Recital.Proofs.Twin.Loop

/-!
# Pauses are transparent

A playback may be paused and resumed at any time, also while a command is in flight, between two
attempts, while a text is shown, while a script is loaded and during the delay after a line
(`Player.Disturbs`).  It tells the same story as the undisturbed playback and comes to the same end.

The two playbacks are twins.  `Player.Trails` relates the undisturbed one to the disturbed one at
each moment: before its first line nothing can be paused, and from then on they are in the same
phase of their loops, where a pause holds up the disturbed one at the head of the loop only.
-/

namespace Recital

/-- The answer without the time that a playback took. -/
def Answer.timeless : Answer → Answer
  | report r => .report r.timeless
  | answer => answer

/-- The result of a request that has ended. -/
def Progress.result? : Progress → Option Answer
  | .ends answer => some answer.timeless
  | _ => none

/-- The snapshot that a playback starts from. -/
def Start.snapshot? : Start → Option Snapshot
  | snapshot s => some s
  | _ => none

/-- The snapshot that a playback is requested to start from. -/
def Phase.snapshot? : Phase → Option Snapshot
  | .entering (.play _ start _) => start.snapshot?
  | .playGate _ start _ => start.snapshot?
  | _ => none

namespace Player

variable {stepped free free' : Bool} {id k : Nat} {token : Token} {p q : Player} {a b : Phase}
  {c d d' : Player × Progress}

/-- The playback goes on, or is paused or resumed. -/
inductive Disturbs (id : Nat) : Player × Progress → Player × Progress → Prop
  | goes {c : Player × Progress} : Disturbs id c (onward id c)
  | pauses {p : Player} {progress : Progress} : Disturbs id (p, progress) (p.pause.2, progress)
  | resumes {p : Player} {progress : Progress} : Disturbs id (p, progress) (p.resume.2, progress)

/-- A pause is over, if there is one. -/
def resumed (c : Player × Progress) : Player × Progress := (c.1.resume.2, c.2)

/-- Two playbacks have told the same story and left the same variables and return addresses; if one
of them has ended, so has the other, with the same result. -/
structure Concurs (c d : Player × Progress) : Prop where
  story : c.1.bus.story = d.1.bus.story
  vars : c.1.context.vars = d.1.context.vars
  frames : c.1.context.frames = d.1.context.frames
  result : c.2.result? = d.2.result?

/-! ### Pauses belong to the way -/

lemma alike_pause (p : Player) : Alike p p.pause.2 := by
  unfold pause
  split
  · exact .refl p
  · have hasked : ∀ r : Player, Alike r { r with pauseRequested := false } :=
      fun _ => ⟨rfl, rfl, rfl⟩
    exact alike_moveFrom.trans (hasked _)
  · exact ⟨rfl, rfl, rfl⟩
  · exact .refl p

lemma alike_resume (p : Player) : Alike p p.resume.2 := by
  have hasked : Alike p { p with pauseRequested := false } := ⟨rfl, rfl, rfl⟩
  unfold resume
  dsimp only
  split
  · exact hasked.trans alike_moveFrom
  · exact hasked
  · exact hasked
  · exact hasked

lemma Concurs.of_alike {progress progress' : Progress} {q' : Player}
    (h : Concurs (p, progress) (q, progress')) (hq : Alike q q') :
    Concurs (p, progress) (q', progress') := by
  have hcontext : q'.context.essence = q.context.essence := congrArg Player.context hq.essence
  refine ⟨h.story.trans hq.story.symm, h.vars.trans ?_, h.frames.trans ?_, h.result⟩
  · exact (congrArg Context.vars hcontext :
      q'.context.essence.vars = q.context.essence.vars).symm
  · exact (congrArg Context.frames hcontext :
      q'.context.essence.frames = q.context.essence.frames).symm

/-- Twins agree. -/
lemma Twin.concurs {progress progress' : Progress} (h : Twin stepped k p q)
    (hresult : progress.result? = progress'.result?) : Concurs (p, progress) (q, progress') where
  story := h.story
  vars := (congrArg Context.vars h.context_eq : p.context.essence.vars = q.context.essence.vars)
  frames :=
    (congrArg Context.frames h.context_eq : p.context.essence.frames = q.context.essence.frames)
  result := hresult

/-- Playbacks in the same phase agree. -/
lemma Shadow.concurs (h : Shadow stepped free free' id token k c d) : Concurs c d := by
  cases h with
  | afoot h => exact h.concurs rfl
  | ended h hr => exact h.concurs (congrArg (fun r => some (Answer.report r)) hr)

/-- A playback stays afoot when its state changes and when a pause is asked for. -/
lemma Afoot.of_bearing (h : Afoot id token free p a) (state : State) (pauseRequested : Bool)
    (hq : q.bearing = { p.bearing with state, pauseRequested })
    (hstate : if a.entered then state = .waiting else state = .playing ∨ state = .paused)
    (hfree : free' = true → state ≠ .paused ∧ pauseRequested = false) :
    Afoot id token free' q a where
  owner := h.owner
  poised := by
    rw [hq]
    exact ⟨h.poised.deferred, h.poised.going, h.poised.unsaved, rfl, hstate, hfree⟩
  lock := (congrArg Bearing.lock hq).trans h.lock

/-- A playback that is afoot can be paused. -/
lemma Afoot.pause (h : Afoot id token free p a) : Afoot id token false p.pause.2 a := by
  have hnot : ∀ {P : Prop}, false = true → P := fun h => Bool.noConfusion h
  cases hentered : a.entered with
  | true =>
    have hstate : p.state = .waiting := by
      have hstate := h.poised.state
      rw [hentered] at hstate
      exact hstate
    have hpause : p.pause.2 = { p with pauseRequested := true } := by
      unfold Player.pause
      rw [hstate]
    rw [hpause]
    refine h.of_bearing .waiting true ?_ ?_ hnot
    · rw [← hstate]
      rfl
    · rw [hentered]
      rfl
  | false =>
    rcases h.state hentered with hstate | hstate
    · have hpause : p.pause.2 =
          { p.commit p.run (p.cell.commit .paused) with pauseRequested := false } := by
        unfold Player.pause
        rw [hstate]
        dsimp only
        rw [moveFrom_eq _ _ hstate rfl]
      have hcommit := bearing_commit p p.run (b := .paused)
      rw [hpause]
      refine h.of_bearing .paused false ?_ ?_ hnot
      · exact congrArg (fun b : Bearing =>
          { b with pauseRequested := false }) hcommit
      · rw [hentered]
        exact .inr rfl
    · have hpause : p.pause.2 = p := by
        unfold Player.pause
        rw [hstate]
      rw [hpause]
      refine h.of_bearing .paused p.pauseRequested ?_ ?_ hnot
      · rw [← hstate]
        rfl
      · rw [hentered]
        exact .inr rfl

/-- A playback that is resumed is free to go on. -/
lemma Afoot.resume (h : Afoot id token free p a) : Afoot id token true p.resume.2 a := by
  cases hentered : a.entered with
  | true =>
    have hstate : p.state = .waiting := by
      have hstate := h.poised.state
      rw [hentered] at hstate
      exact hstate
    have hresume : p.resume.2 = { p with pauseRequested := false } := by
      have hasked : { p with pauseRequested := false }.state = .waiting := hstate
      unfold Player.resume
      dsimp only
      rw [hasked]
    rw [hresume]
    refine h.of_bearing .waiting false ?_ ?_
      fun _ => ⟨State.noConfusion, rfl⟩
    · rw [← hstate]
      rfl
    · rw [hentered]
      rfl
  | false =>
    obtain ⟨p', hp'⟩ : ∃ r, r = { p with pauseRequested := false } := ⟨_, rfl⟩
    have hbearing : p'.bearing = { p.bearing with pauseRequested := false } := by
      rw [hp']
      rfl
    have hstate' : p'.state = p.state := congrArg Bearing.state hbearing
    have hready : if a.entered then State.playing = .waiting
        else State.playing = .playing ∨ State.playing = .paused := by
      rw [hentered]
      exact .inl rfl
    rcases h.state hentered with hstate | hstate
    · have hresume : p.resume.2 = p' := by
        unfold Player.resume
        dsimp only
        rw [← hp', hstate', hstate]
      rw [hresume]
      refine h.of_bearing .playing false ?_ hready
        fun _ => ⟨State.noConfusion, rfl⟩
      rw [← hstate]
      exact hbearing
    · have hresume : p.resume.2 = p'.commit p.run (p'.cell.commit .playing) := by
        unfold Player.resume
        dsimp only
        rw [← hp', hstate', hstate]
        dsimp only
        rw [moveFrom_eq _ _ (hstate'.trans hstate) rfl]
      rw [hresume]
      refine h.of_bearing .playing false ?_ hready
        fun _ => ⟨State.noConfusion, rfl⟩
      rw [bearing_commit, hbearing]

/-! ### Before the lines -/

/-- A playback that has not come to its lines.  Nothing is left over for it, but for a pause that
may have been asked for before it has the gate. -/
structure Early (p : Player) (phase : Phase) : Prop where
  early : phase.isEarly = true
  idle : p.state.isUnderway = false
  lock : p.lineLock = {}
  unsaved : p.host.config.pacing.autosaveInterval = none
  evenly : p.host.RunsEvenly
  breakpoints : p.context.breakpoints = []
  start : ∀ s, phase.snapshot? = some s → s.breakpoints = []
  prepared : phase.isFresh = false → p.deferred = none ∧ p.pauseRequested = false ∧
    ∃ script, p.context.script = some script

/-- The disturbed playback is where the undisturbed one is. -/
inductive Trails (free : Bool) (id : Nat) : Player × Progress → Player × Progress → Prop
  | early {p : Player} {a : Phase} {pauseRequested : Bool} (h : Early p a)
    (hsame : a.isFresh = false → pauseRequested = false) :
    Trails free id (p, .goes a) ({ p with pauseRequested }, .goes a)
  | afoot {token : Token} {k : Nat} {c d : Player × Progress}
    (h : Shadow false true free id token k c d) : Trails free id c d
  | ended {c d : Player × Progress} (h : Concurs c d) (hc : c.2.isEnded = true)
    (hd : d.2.isEnded = true) : Trails free id c d

lemma Early.trails (h : Early p a) : Trails free id (p, .goes a) (p, .goes a) := by
  have hsame : Trails free id (p, .goes a)
      ({ p with pauseRequested := p.pauseRequested }, .goes a) :=
    .early h fun hfresh => (h.prepared hfresh).2.1
  exact hsame

lemma Trails.concurs (h : Trails free id c d) : Concurs c d := by
  cases h with
  | early => exact ⟨rfl, rfl, rfl, rfl⟩
  | afoot h => exact h.concurs
  | ended h => exact h

lemma Trails.ready (h : Trails free id c d) : c.2 ≠ .blocked ∧ d.2 ≠ .blocked := by
  have hended : ∀ {progress : Progress}, progress.isEnded = true → progress ≠ .blocked := by
    rintro progress h rfl
    cases h
  cases h with
  | early => exact ⟨Progress.noConfusion, Progress.noConfusion⟩
  | afoot h => exact h.ready
  | ended h hc hd => exact ⟨hended hc, hended hd⟩

/-- A playback that is free to go on may be taken for one that is not. -/
lemma Afoot.relax (h : Afoot id token free p a) (hfree : free' = true → free = true) :
    Afoot id token free' p a :=
  ⟨h.owner, ⟨h.poised.deferred, h.poised.going, h.poised.unsaved, h.poised.lock, h.poised.state,
    fun hfree' => h.poised.free (hfree hfree')⟩, h.lock⟩

/-- A player without breakpoints is its own twin. -/
lemma Twin.self (hevenly : p.host.RunsEvenly) (hclear : p.setting.Clear) : Twin false 0 p p :=
  ⟨rfl, rfl, rfl, hevenly, fun h => Bool.noConfusion h, fun _ => ⟨rfl, hclear, hclear⟩⟩

/-- Twins that have come to the same end. -/
lemma Twin.trails_ended {r r' : Report} (h : Twin stepped k p q)
    (hr : r.timeless = r'.timeless) :
    Trails free id (p, .ends (.report r)) (q, .ends (.report r')) :=
  .ended (h.concurs (congrArg (fun r => some (Answer.report r)) hr)) rfl rfl

/-- A playback that has come to its end is in the same place as itself. -/
lemma trails_finish (p : Player) (f : Finish) : Trails free id (p.finish f) (p.finish f) :=
  .ended ⟨rfl, rfl, rfl, rfl⟩ rfl rfl

/-- A request to play goes on to the gate or is refused. -/
lemma Early.requestPlay {script : Script} {start : Start} {bound : Bool} (h : Early p a)
    (hstart : ∀ s, start.snapshot? = some s → s.breakpoints = []) (pauseRequested : Bool) :
    Trails free id (p.requestPlay id script start bound)
      ({ p with pauseRequested }.requestPlay id script start bound) := by
  have hrefused : ∀ r : Refusal, Trails free id (p, .ends (.refused r))
      ({ p with pauseRequested }, .ends (.refused r)) :=
    fun r => .ended ⟨rfl, rfl, rfl, rfl⟩ rfl rfl
  unfold Player.requestPlay
  split
  · exact hrefused _
  · dsimp only
    split
    · exact hrefused _
    · obtain ⟨cell, bus, stopRequested, cancelled, hstop⟩ := exists_stop p
      have hstopped : p.stop = { p with cell, bus, stopRequested, cancelled } :=
        hstop p.pauseRequested
      have hidle : p.stop.state.isUnderway = false := by
        by_contra hne
        have hunder := stays_stop.state (Bool.not_eq_false _ ▸ hne)
        rw [h.idle] at hunder
        cases hunder
      rw [hstop pauseRequested, hstopped]
      rw [hstopped] at hidle
      exact .early (a := .playGate script start bound)
        ⟨rfl, hidle, h.lock, h.unsaved, h.evenly, h.breakpoints, hstart,
          fun hfresh => Bool.noConfusion hfresh⟩ fun hfresh => Bool.noConfusion hfresh

/-- A script that is loaded comes to its first line. -/
lemma Early.startLines {run : Run} {name : String} (h : Early p a) (ha : a.isFresh = false) :
    Trails free id (p.startLines id token run name) (p.startLines id token run name) := by
  obtain ⟨hdeferred, hpause, script, hscript⟩ := h.prepared ha
  unfold Player.startLines
  cases hcancelled : p.isCancelled token with
  | true =>
    rw [if_pos rfl]
    exact trails_finish p _
  | false =>
    obtain ⟨q, hq⟩ : ∃ q, q = (p.publish run (.scriptStarted name)).setCheckpoint := ⟨_, rfl⟩
    have hbearing : q.bearing = p.bearing := by
      rw [hq, bearing_setCheckpoint, bearing_publish _ _ rfl]
    have hhost : q.host = p.host := congrArg (fun b : Bearing => b.rest.host) hbearing
    have hcontext : q.context = p.context := by
      rw [hq]
      exact congrArg (fun g : Gist => g.core.context)
        (gist_setCheckpoint (p.publish run (.scriptStarted name)))
    have hcheckpoint : q.recovery.checkpoint = p.context.snapshot? (.ofMillis p.now) := by
      rw [hq]
      exact setCheckpoint_checkpoint (p.publish run (.scriptStarted name)) hscript
    have hclear : q.setting.Clear := by
      refine ⟨(congrArg Context.breakpoints hcontext).trans h.breakpoints, fun c hc => ?_⟩
      have hsnapshot : p.context.snapshot? (.ofMillis p.now) = some c := hcheckpoint.symm.trans hc
      obtain ⟨_, -, rfl⟩ := Option.map_eq_some_iff.mp hsnapshot
      exact h.breakpoints
    rw [if_neg Bool.false_ne_true]
    dsimp only
    rw [← hq]
    by_cases hstate : q.state = .loading
    · obtain ⟨r, hr⟩ : ∃ r, r = q.commit run (q.cell.commit .playing) := ⟨_, rfl⟩
      have hrbearing : r.bearing = { p.bearing with state := .playing } := by
        rw [hr, bearing_commit, hbearing]
      have halike : Alike q r := by
        rw [hr]
        exact alike_commit
      have hlock : r.lineLock = {} := (congrArg Bearing.lock hrbearing).trans h.lock
      have hpoised : Poised id token true false
          { r.bearing with lock := { holder := some id } } := by
        rw [hrbearing]
        exact ⟨hdeferred, hcancelled, h.unsaved, rfl, .inl rfl,
          fun _ => ⟨State.noConfusion, hpause⟩⟩
      obtain ⟨x, b, hx, hb⟩ :=
        exists_continuePlay (rfl : Play.token { token, savedAt := r.stopwatch } = token) hlock
          hpoised
      have htwin : Twin false 0 x x := by
        have hevenly : q.host.RunsEvenly := by
          rw [hhost]
          exact h.evenly
        exact (Twin.self hevenly hclear).of_alike (halike.trans hb.alike) (halike.trans hb.alike)
      rw [moveFrom_eq _ _ hstate rfl, ← hr]
      dsimp only
      rw [if_pos rfl, hx]
      exact .afoot (.afoot htwin (.head hb.head hb.head) hb.afoot (hb.afoot.relax fun _ => rfl))
    · rw [moveFrom_eq_of_ne _ _ hstate]
      dsimp only
      rw [if_neg Bool.false_ne_true]
      exact trails_finish q _

/-- A playback that has the gate gets ready and starts its script, if that has no defects. -/
lemma Early.beginPlay {script : Script} {start : Start} {bound : Bool}
    (h : Early p (.playGate script start bound)) (pauseRequested : Bool) :
    Trails free id (p.beginPlay id script start bound)
      ({ p with pauseRequested }.beginPlay id script start bound) := by
  by_cases hup : p.isShutDown = true
  · have hdown : { p with pauseRequested }.isShutDown = true := hup
    unfold Player.beginPlay
    rw [if_pos hup, if_pos hdown]
    exact .ended ⟨rfl, rfl, rfl, rfl⟩ rfl rfl
  -- Getting ready forgets a pause that was asked for before.
  have hsame : { p with pauseRequested }.beginPlay id script start bound =
      p.beginPlay id script start bound := by
    have hprepare : { p with pauseRequested }.prepare script bound = p.prepare script bound := rfl
    have hup' : ¬ { p with pauseRequested }.isShutDown = true := hup
    unfold Player.beginPlay
    rw [if_neg hup, if_neg hup', hprepare]
  rw [hsame]
  obtain ⟨now, hgist⟩ := gist_prepare (p := p) script bound
  obtain ⟨q, hq⟩ : ∃ q, q = (p.prepare script bound).2 := ⟨_, rfl⟩
  rw [← hq] at hgist
  have hcore := congrArg Gist.core hgist
  have hhost : q.host = p.host := (congrArg Player.host hcore).trans rfl
  have hcontext : q.context = p.context.resetFor script now :=
    (congrArg Player.context hcore).trans rfl
  have hstate : q.state = .loading := congrArg Gist.state hgist
  unfold Player.beginPlay
  rw [if_neg hup]
  dsimp only
  rw [← hq]
  split
  · exact trails_finish _ _
  · obtain ⟨context, hstarted⟩ : ∃ c, c =
        startAt { q.context with labels := script.survey.labels } start := ⟨_, rfl⟩
    rw [← hstarted]
    have hearly : ∀ (trace : Array Trace) (token : Token) (until_ : Nat),
        Early { q with context, trace } (.preloading token q.run script.name until_) := by
      intro trace token until_
      refine
        { early := rfl
          idle := congrArg State.isUnderway hstate
          lock := (congrArg Player.lineLock hcore).trans h.lock
          unsaved := ?_
          evenly := ?_
          breakpoints := ?_
          start := fun s hs => nomatch hs
          prepared := fun _ => ⟨(congrArg Player.deferred hcore).trans rfl,
            (congrArg Player.pauseRequested hcore).trans rfl, script, ?_⟩ }
      · have hunsaved := h.unsaved
        rw [← hhost] at hunsaved
        exact hunsaved
      · have hevenly := h.evenly
        rw [← hhost] at hevenly
        exact hevenly
      · rw [hstarted, hcontext]
        cases start with
        | beginning | line => exact h.breakpoints
        | snapshot s =>
          have hnone := h.start s rfl
          simp only [startAt, Context.restore, hnone]
          rfl
      · rw [hstarted, startAt_script, hcontext]
        rfl
    split
    · split
      · exact trails_finish _ _
      · exact (hearly _ _ _).trails
    · exact (hearly q.trace (p.prepare script bound).1 0).startLines rfl

/-- A step before the lines does not depend on a pause that was asked for before the gate. -/
lemma Early.step (h : Early p a) {pauseRequested : Bool}
    (hsame : a.isFresh = false → pauseRequested = false) :
    (p.step id a).2 = .blocked ∧ ({ p with pauseRequested }.step id a).2 = .blocked ∨
      Trails free id (p.step id a) ({ p with pauseRequested }.step id a) := by
  have hearly := h.early
  have hrefused : ∀ r : Refusal, Trails free id (p, .ends (.refused r))
      ({ p with pauseRequested }, .ends (.refused r)) :=
    fun r => .ended ⟨rfl, rfl, rfl, rfl⟩ rfl rfl
  cases a with
  | entering r =>
    cases r with
    | play script start bound => exact .inr (h.requestPlay h.start _)
    | playNamed name =>
      simp only [Player.step, accept]
      split
      · exact .inr (hrefused _)
      · have hloading : Early p (.loading name) :=
          ⟨rfl, h.idle, h.lock, h.unsaved, h.evenly, h.breakpoints, h.start,
            fun hfresh => Bool.noConfusion hfresh⟩
        exact .inr (.early hloading fun hfresh => Bool.noConfusion hfresh)
    | _ => cases hearly
  | loading name =>
    simp only [Player.step, loadAndPlay]
    split
    · exact .inr (hrefused _)
    · split
      · exact .inr (hrefused _)
      · have hstart : ∀ s, Start.beginning.snapshot? = some s → s.breakpoints = [] := h.start
        exact .inr (h.requestPlay hstart _)
  | playGate script start bound =>
    simp only [Player.step]
    split
    · exact .inr (h.beginPlay _)
    · exact .inl ⟨rfl, rfl⟩
  | preloading token run name until_ =>
    obtain ⟨-, hpause, -⟩ := h.prepared rfl
    have hnone : { p with pauseRequested } = p := by
      rw [hsame rfl, ← hpause]
    rw [hnone]
    simp only [Player.step]
    split
    · exact .inr (h.startLines rfl)
    · exact .inl ⟨rfl, rfl⟩
  | _ => cases hearly

/-- Before the lines the playbacks go on together. -/
lemma Early.onward (h : Early p a) {pauseRequested : Bool}
    (hsame : a.isFresh = false → pauseRequested = false) :
    Trails free id (Player.onward id (p, .goes a))
      (Player.onward id ({ p with pauseRequested }, .goes a)) := by
  rcases (h.step hsame : _ ∨ Trails free id _ _) with ⟨hp, hq⟩ | hstep
  · rw [onward_of_blocked hp, onward_of_blocked hq]
    exact .early (p := p.at_ (p.now + 1)) ⟨h.early, h.idle, h.lock, h.unsaved, h.evenly,
      h.breakpoints, h.start, h.prepared⟩ hsame
  · rw [onward_of_ready hstep.ready.1, onward_of_ready hstep.ready.2]
    exact hstep

/-! ### On the way -/

lemma onward_ended (hc : c.2.isEnded = true) : Player.onward id c = c := by
  obtain ⟨p, progress⟩ := c
  cases progress with
  | ends => rfl
  | goes | blocked => cases hc

/-- The undisturbed playback catches up when the disturbed one goes on. -/
lemma Trails.goes (h : Trails free id c d) :
    ∃ n, Trails free id ((Player.onward id)^[n] c) (Player.onward id d) := by
  cases h with
  | early h hsame => exact ⟨1, h.onward hsame⟩
  | ended h hc hd =>
    rw [onward_ended hd]
    exact ⟨0, .ended h hc hd⟩
  | afoot h =>
    cases h with
    | ended h hr => exact ⟨0, h.trails_ended hr⟩
    | @afoot p q a b h hphase hp hq =>
      cases hb : b.isHead with
      | false => exact ⟨1, .afoot (h.onward hphase hp hq (hphase.isHead_eq.trans hb))⟩
      | true =>
        have ha : a.isHead = true := hphase.isHead_eq.trans hb
        rcases hq.head_cases hb with ⟨-, -, hq'⟩ | ⟨q', b', hq', hb'⟩ | ⟨hstate, play', rfl⟩
        · rw [hq']
          exact ⟨0, .afoot (.afoot h.late (.head ha hb) hp (hq.at_ _))⟩
        · rw [hq']
          exact ⟨0, .afoot (.afoot (h.of_alike (.refl p) hb'.alike) (.head ha hb'.head) hp
            hb'.afoot)⟩
        · obtain ⟨n, p', play, hp', halike, hafoot, hplaying⟩ := hp.exists_playLock ha
          have htwin := h.of_alike halike (.refl q)
          refine ⟨n + 1, ?_⟩
          rw [Function.iterate_succ_apply', hp']
          exact .afoot (htwin.begins hafoot hq hplaying hstate
            (htwin.setting.even rfl).clear.breakpoints (htwin.setting.even rfl).clear'.breakpoints)

/-- A disturbed playback that is not paused catches up when the undisturbed one goes on. -/
lemma Trails.follows (h : Trails true id c d) :
    ∃ m, Trails true id (Player.onward id c) ((Player.onward id)^[m] d) := by
  cases h with
  | early h hsame => exact ⟨1, h.onward hsame⟩
  | ended h hc hd =>
    rw [onward_ended hc]
    exact ⟨0, .ended h hc hd⟩
  | afoot h =>
    cases h with
    | ended h hr => exact ⟨0, h.trails_ended hr⟩
    | @afoot p q a b h hphase hp hq =>
      cases ha : a.isHead with
      | false => exact ⟨1, .afoot (h.onward hphase hp hq ha)⟩
      | true =>
        have hb : b.isHead = true := hphase.isHead_eq.symm.trans ha
        rcases hp.head_cases ha with ⟨hpaused, -⟩ | ⟨p', a', hp', ha'⟩ | ⟨hstate, play, rfl⟩
        · exact absurd hpaused (hp.poised.free rfl).1
        · rw [hp']
          exact ⟨0, .afoot (.afoot (h.of_alike ha'.alike (.refl q)) (.head ha'.head hb) ha'.afoot
            hq)⟩
        · obtain ⟨m, q', play', hq', halike, hafoot, hplaying⟩ := hq.exists_playLock hb
          have htwin := h.of_alike (.refl p) halike
          refine ⟨m + 1, ?_⟩
          rw [Function.iterate_succ_apply', hq']
          exact .afoot (htwin.begins hp hafoot hstate hplaying
            (htwin.setting.even rfl).clear.breakpoints (htwin.setting.even rfl).clear'.breakpoints)

lemma Trails.pauses {progress : Progress} (h : Trails free id c (q, progress)) :
    Trails false id c (q.pause.2, progress) := by
  cases h with
  | @early p a pauseRequested h hsame =>
    have hidle : p.state.isUnderway = false := h.idle
    have hrefused : { p with pauseRequested }.pause.2 = { p with pauseRequested } := by
      unfold Player.pause
      split
      · rfl
      · next hstate =>
        rw [show p.state = .playing from hstate] at hidle
        cases hidle
      · next hstate =>
        rw [show p.state = .waiting from hstate] at hidle
        cases hidle
      · rfl
    rw [hrefused]
    exact .early h hsame
  | ended h hc hd => exact .ended (h.of_alike (alike_pause q)) hc hd
  | afoot h =>
    cases h with
    | ended h hr => exact (h.of_alike (.refl _) (alike_pause q)).trails_ended hr
    | afoot h hphase hp hq =>
      exact .afoot (.afoot (h.of_alike (.refl _) (alike_pause q)) hphase hp hq.pause)

lemma Trails.resumes {progress : Progress} (h : Trails free id c (q, progress)) :
    Trails true id c (q.resume.2, progress) := by
  cases h with
  | @early p a pauseRequested h hsame =>
    have hidle : p.state.isUnderway = false := h.idle
    have hforgotten : { p with pauseRequested }.resume.2 = { p with pauseRequested := false } := by
      unfold Player.resume
      dsimp only
      split
      · next hstate =>
        rw [show p.state = .paused from hstate] at hidle
        cases hidle
      all_goals rfl
    rw [hforgotten]
    exact .early h fun _ => rfl
  | ended h hc hd => exact .ended (h.of_alike (alike_resume q)) hc hd
  | afoot h =>
    cases h with
    | ended h hr => exact (h.of_alike (.refl _) (alike_resume q)).trails_ended hr
    | afoot h hphase hp hq =>
      exact .afoot (.afoot (h.of_alike (.refl _) (alike_resume q)) hphase hp hq.resume)

/-- The disturbed playback may be taken for a paused one. -/
lemma Trails.relax (h : Trails free id c d) : Trails false id c d := by
  cases h with
  | early h hsame => exact .early h hsame
  | ended h hc hd => exact .ended h hc hd
  | afoot h =>
    cases h with
    | ended h hr => exact h.trails_ended hr
    | afoot h hphase hp hq => exact .afoot (.afoot h hphase hp (hq.relax Bool.noConfusion))

/-- Whatever disturbs a playback, the undisturbed one comes to where it is. -/
lemma Trails.disturbs (h : Trails free id c d) (hd : Disturbs id d d') :
    ∃ n, Trails false id ((Player.onward id)^[n] c) d' := by
  cases hd with
  | goes =>
    obtain ⟨n, hn⟩ := h.goes
    exact ⟨n, hn.relax⟩
  | pauses => exact ⟨0, h.pauses⟩
  | resumes => exact ⟨0, h.resumes.relax⟩

/-- However a playback is disturbed, the undisturbed one follows it. -/
lemma Trails.run (h : Trails free id c d) (hd : Relation.ReflTransGen (Disturbs id) d d') :
    ∃ n, Trails false id ((Player.onward id)^[n] c) d' := by
  induction hd with
  | refl => exact ⟨0, h.relax⟩
  | tail _ hstep ih =>
    obtain ⟨n, hn⟩ := ih
    obtain ⟨m, hm⟩ := hn.disturbs hstep
    refine ⟨m + n, ?_⟩
    rw [Function.iterate_add_apply]
    exact hm

/-- As long as the undisturbed playback goes on, so does one that is not paused any more. -/
lemma Trails.keeps_up (h : Trails true id c d) (n : Nat) :
    ∃ k, Trails true id ((Player.onward id)^[n] c) ((Player.onward id)^[k] d) := by
  induction n with
  | zero => exact ⟨0, h⟩
  | succ n ih =>
    obtain ⟨k, hk⟩ := ih
    obtain ⟨m, hm⟩ := hk.follows
    refine ⟨m + k, ?_⟩
    rw [Function.iterate_succ_apply', Function.iterate_add_apply]
    exact hm

/-- Pauses are transparent.  However often and wherever a playback without breakpoints is paused and
resumed, it never tells, leaves or answers anything else than the undisturbed playback does at some
moment; and once it is resumed for good, it comes to whatever the undisturbed playback comes to. -/
theorem pauses_are_transparent (h : Early p a)
    (hd : Relation.ReflTransGen (Disturbs id) (p, .goes a) d) :
    (∃ n, Concurs ((Player.onward id)^[n] (p, .goes a)) d) ∧
      ∀ n, ∃ m, n ≤ m ∧ ∃ k, Concurs ((Player.onward id)^[m] (p, .goes a))
        ((Player.onward id)^[k] (resumed d)) := by
  have hself : Trails true id (p, .goes a) (p, .goes a) := h.trails
  obtain ⟨l, hl⟩ := hself.run hd
  refine ⟨⟨l, hl.concurs⟩, fun n => ?_⟩
  have hresumed : Trails true id ((Player.onward id)^[l] (p, .goes a)) (resumed d) := by
    obtain ⟨q, progress⟩ := d
    exact hl.resumes
  obtain ⟨k, hk⟩ := hresumed.keeps_up n
  rw [← Function.iterate_add_apply] at hk
  exact ⟨n + l, Nat.le_add_right n l, k, hk.concurs⟩

/-! ### A pause while a command is in flight -/

/-- Waits a little before a text. -/
def interlude : Script := ⟨"interlude", [.command "@wait 20" (some (.wait 20)), .text "two"]⟩

/-- The interlude is to be played. -/
def lobby : Player × Progress :=
  (.create { presenter := some { span := .ofMillis 10 } } { capacity := 16 } none,
    .goes (.entering (.play interlude .beginning false)))

/-- The interlude is paused while its command is in flight. -/
def intermission : Player × Progress :=
  let c := (onward 0)^[4] lobby
  (c.1.pause.2, c.2)

/-- The command comes to its end, and then the playback is paused. -/
theorem interlude_paused :
    let d := (onward 0)^[40] intermission
    d.1.state = .paused ∧ d.1.bus.begun = [0] ∧
      (∃ n, Concurs ((onward 0)^[n] lobby) d) ∧
      ∀ n, ∃ m, n ≤ m ∧ ∃ k, Concurs ((onward 0)^[m] lobby) ((onward 0)^[k] (resumed d)) := by
  have hgoes : ∀ {c : Player × Progress} (n : Nat),
      Relation.ReflTransGen (Disturbs 0) c ((onward 0)^[n] c) := by
    intro c n
    induction n with
    | zero => exact .refl
    | succ n ih =>
      rw [Function.iterate_succ_apply']
      exact ih.tail .goes
  have hpaused : Relation.ReflTransGen (Disturbs 0) lobby intermission := (hgoes 4).tail .pauses
  have hearly : Early lobby.1 (.entering (.play interlude .beginning false)) :=
    { early := rfl
      idle := rfl
      lock := rfl
      unsaved := rfl
      evenly := fun a b _ t => Nat.add_sub_add_right b t a
      breakpoints := rfl
      start := fun s hs => nomatch hs
      prepared := fun hfresh => Bool.noConfusion hfresh }
  obtain ⟨hmeets, hcomes⟩ := pauses_are_transparent hearly (hpaused.trans (hgoes 40))
  exact ⟨rfl, rfl, hmeets, hcomes⟩

end Player

end Recital

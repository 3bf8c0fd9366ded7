import Recital.Proofs.Place.Line
import Recital.Player.Control

/-!
# Requests keep to the script

A playback is under way from its first line on.  Before, while its script is being loaded, the
checkpoint may still be one of the last playback; it is set when the first line comes up, and fits
the script from then on (`Player.IsConsistent`).

Every step of a request keeps a player consistent.  The phases that are about the loaded script have
to fit it: a line that is being executed, and a snapshot that is being saved and then becomes the
checkpoint.  The other phases may outlast a script, and check what they are about to do when they
get to it.
-/

namespace Recital

/-- Lines are being executed, or will be when a pause is over. -/
def State.isUnderway : State → Bool
  | playing | paused | waiting => true
  | _ => false

/-- A start in a script: a snapshot that goes by the name of the script fits it. -/
def Start.Fits (script : Script) : Start → Prop
  | .snapshot s => s.scriptName = script.name → s.Fits { script := some script }
  | _ => True

/-- A request to play is one to play a script of built-in commands. -/
def Request.Fits : Request → Prop
  | .play script start _ => script.IsBuiltin ∧ start.Fits script
  | _ => True

/-- Where a playback starts is a place in the script. -/
lemma Context.IsSound.startAt {c : Context} {script : Script} {start : Start}
    (hc : c.IsSound) (hscript : c.script = some script) (hstart : start.Fits script)
    (hrefusal : Player.startRefusal? script start = none) :
    (Player.startAt c start).IsSound ∧ (Player.startAt c start).script = some script := by
  have hcount : c.lineCount = script.size := by simp [Context.lineCount, hscript]
  cases start with
  | beginning => exact ⟨hc, hscript⟩
  | line index =>
    simp only [Player.startRefusal?] at hrefusal
    split at hrefusal
    · cases hrefusal
    · next hindex =>
      refine ⟨hc.moveTo ?_, hscript⟩
      rw [hcount]
      omega
  | snapshot s =>
    simp only [Player.startRefusal?] at hrefusal
    split at hrefusal
    · cases hrefusal
    · next hname =>
      have hfits : s.Fits { script := some script } := hstart (not_not.mp hname)
      exact ⟨hc.restore (hfits.of_script hscript), hscript⟩

/-- A phase that a player can go on from. -/
def Phase.Fits (p : Player) : Phase → Prop
  | .entering r => r.Fits
  | .playGate script start _ =>
    script.IsBuiltin ∧ start.Fits script ∧ Player.startRefusal? script start = none
  | .playing _ line => p.IsSafe ∧ line.Fits p.context
  | .stepping line => p.IsSafe ∧ line.Fits p.context
  | .storing _ s => s.Fits p.context
  | _ => True

/-- A request is in the middle of a line or of saving a snapshot. -/
def Phase.isBusy : Phase → Bool
  | .playing .. | .stepping _ | .storing .. => true
  | _ => false

namespace Player

variable {p q r : Player} {id : Nat} {play : Play} {run : Run}

/-- A player at a place in a script.  The checkpoint fits it while a playback is under way, and
there is none without a script. -/
structure IsConsistent (p : Player) : Prop extends IsSound p where
  fits : p.state.isUnderway = true ∨ p.context.script = none →
    ∀ s, p.recovery.checkpoint = some s → s.Fits p.context

/-- What became of a request: the player is consistent, and the request can go on. -/
structure KeepsOrder (x : Player × Progress) : Prop where
  consistent : x.1.IsConsistent
  fits : ∀ phase, x.2 = .goes phase → phase.Fits x.1

lemma IsSafe.consistent (hp : p.IsSafe) : p.IsConsistent := ⟨hp.toIsSound, fun _ => hp.fits⟩

lemma IsConsistent.safe (hp : p.IsConsistent) (hstate : p.state.isUnderway = true) : p.IsSafe :=
  ⟨hp.toIsSound, hp.fits (.inl hstate)⟩

/-- Without a playback there may be another checkpoint, if there is a script. -/
lemma IsSound.consistent (hp : p.IsSound) (hstate : p.state.isUnderway = false) {script : Script}
    (hscript : p.context.script = some script) : p.IsConsistent := by
  refine ⟨hp, ?_⟩
  rintro (hunderway | hnone)
  · rw [hstate] at hunderway
    cases hunderway
  · rw [hscript] at hnone
    cases hnone

/-! ### Staying in place -/

/-- The player has stayed in place, and no playback has got under way. -/
structure Stays (p q : Player) : Prop where
  place : q.place = p.place
  state : q.state.isUnderway = true → p.state.isUnderway = true

lemma Stays.refl (p : Player) : Stays p p := ⟨rfl, fun h => h⟩

lemma Stays.trans (hpq : Stays p q) (hqr : Stays q r) : Stays p r :=
  ⟨hqr.place.trans hpq.place, fun h => hpq.state (hqr.state h)⟩

/-- Consistency carries over to another place in the same script. -/
lemma IsConsistent.of_context (hp : p.IsConsistent) (hhost : q.host = p.host)
    (hcheckpoint : q.recovery.checkpoint = p.recovery.checkpoint)
    (hscript : q.context.script = p.context.script) (hcontext : q.context.IsSound)
    (hstate : q.state.isUnderway = true → p.state.isUnderway = true) : q.IsConsistent := by
  refine ⟨hp.toIsSound.of_context hhost hscript hcontext, fun hunderway s hs => ?_⟩
  rw [hcheckpoint] at hs
  rw [hscript] at hunderway
  exact (hp.fits (hunderway.imp_left hstate) s hs).of_script hscript

lemma IsConsistent.of_stays (hp : p.IsConsistent) (h : Stays p q) : q.IsConsistent := by
  have hbare : q.context.bare = p.context.bare := congrArg Place.context h.place
  exact hp.of_context (congrArg Place.host h.place) (congrArg Place.checkpoint h.place)
    (Context.script_of_bare hbare) (hp.context.of_bare hbare) h.state

lemma IsConsistent.released (hp : p.IsConsistent) :
    { p with lineLock := p.lineLock.release }.IsConsistent :=
  hp.of_stays ⟨rfl, fun h => h⟩

/-- A move between states of a playback that is under way, or to its end. -/
lemma stays_moveFrom {a b : State} (hab : b.isUnderway = true → a.isUnderway = true) :
    Stays p (p.moveFrom run a b).2 := by
  refine ⟨place_moveFrom, fun hunderway => ?_⟩
  rw [moveFrom_eq_ite] at hunderway
  split at hunderway
  · next h =>
    rw [h.1]
    exact hab hunderway
  · exact hunderway

/-- A move to the end of a playback. -/
lemma stays_moveIfAllowed {b : State} (hb : b.isUnderway = false) :
    Stays p (p.moveIfAllowed run b) := by
  refine ⟨place_of_core (congrArg Gist.core (gist_moveIfAllowed p run)), fun hunderway => ?_⟩
  rw [moveIfAllowed_eq_ite] at hunderway
  split at hunderway
  · exact absurd (hb.symm.trans hunderway) Bool.false_ne_true
  · exact hunderway

lemma stays_cancelRun : Stays p p.cancelRun := by
  rw [cancelRun_eq]
  exact ⟨rfl, fun h => h⟩

lemma stays_stop : Stays p p.stop := by
  unfold stop
  split
  · have hasked : Stays p { p with stopRequested := true } := ⟨rfl, fun h => h⟩
    have hstopped : Stays { p with stopRequested := true }
        ({ p with stopRequested := true }.moveIfAllowed p.run .stopped) := stays_moveIfAllowed rfl
    exact (hasked.trans hstopped).trans stays_cancelRun
  · exact .refl p

lemma stays_conclude {f : Finish} : Stays p (p.conclude f).1 := by
  cases f with
  | completed => exact (stays_moveFrom fun _ => rfl).trans (stays_moveIfAllowed rfl)
  | stopped | failed | halted | cancelled => exact stays_moveIfAllowed rfl

lemma stays_of_gist (h : q.gist = p.gist) : Stays p q := by
  refine ⟨place_of_gist h, ?_⟩
  have hstate : q.state = p.state := congrArg Gist.state h
  rw [hstate]
  exact fun hunderway => hunderway

/-- The end of a playback leaves the player in place. -/
lemma stays_finish {f : Finish} : Stays p (p.finish f).1 := by
  refine (stays_conclude (f := f)).trans ?_
  have hgist : ∀ (q : Player) (r : Report), (q.publishEnd r).measureMemory.gist = q.gist := by
    intro q r
    rw [gist_measureMemory]
    unfold publishEnd
    split <;> exact gist_publish _ _ rfl
  obtain ⟨hplace, hstate⟩ := stays_of_gist (hgist (p.conclude f).1
    ((p.conclude f).1.report (p.conclude f).2.1 (p.conclude f).2.2))
  exact ⟨hplace, hstate⟩

/-! ### The loop of a playback -/

/-- A request that has ended in place. -/
lemma keepsOrder_ends {a : Answer} (hp : p.IsConsistent) (h : Stays p q) :
    KeepsOrder (q, .ends a) :=
  ⟨hp.of_stays h, fun _ hgoes => Progress.noConfusion hgoes⟩

/-- A request that goes on in place. -/
lemma keepsOrder_goes {phase : Phase} (hp : p.IsConsistent) (h : Stays p q) (hfits : phase.Fits q) :
    KeepsOrder (q, .goes phase) := by
  refine ⟨hp.of_stays h, fun other hgoes => ?_⟩
  cases hgoes
  exact hfits

lemma keepsOrder_blocked (hp : p.IsConsistent) : KeepsOrder (p, .blocked) :=
  ⟨hp, fun _ hgoes => Progress.noConfusion hgoes⟩

lemma keepsOrder_finish {f : Finish} (hp : p.IsConsistent) : KeepsOrder (p.finish f) :=
  keepsOrder_ends hp stays_finish

lemma keepsOrder_playOn (hp : p.IsConsistent) : KeepsOrder (p.playOn id play) := by
  unfold playOn
  split
  · exact keepsOrder_finish (hp.of_stays ⟨rfl, fun h => h⟩)
  · split
    · exact keepsOrder_finish hp
    · split
      · exact keepsOrder_goes hp ⟨rfl, fun h => h⟩ trivial
      · exact keepsOrder_goes hp ⟨rfl, fun h => h⟩ trivial
      · exact keepsOrder_goes hp (.refl p) trivial
      · exact keepsOrder_finish hp
      · exact keepsOrder_finish hp

lemma keepsOrder_continuePlay (hp : p.IsConsistent) : KeepsOrder (p.continuePlay id play) := by
  unfold continuePlay
  split
  · exact keepsOrder_goes hp (.refl p) trivial
  · exact keepsOrder_playOn hp

/-- A snapshot that is saved automatically becomes the checkpoint where it was taken. -/
lemma keepsOrder_autosave (hp : p.IsConsistent) : KeepsOrder (p.autosave id play) := by
  unfold autosave
  split
  · next s hdue =>
    have hfits : s.Fits p.context := by
      unfold autosaveDue at hdue
      split at hdue
      · split at hdue
        · exact hp.context.fits hdue
        · cases hdue
      · cases hdue
    have hsafe : { p with recovery := p.recovery.setCheckpoint s }.IsSafe :=
      hp.toIsSound.safe_of_checkpoint hfits rfl rfl rfl
    exact keepsOrder_goes hsafe.consistent (.refl _) trivial
  · exact keepsOrder_continuePlay hp

lemma keepsOrder_afterLine {b : LineEnd} (hp : p.IsConsistent) :
    KeepsOrder (p.afterLine id play b) := by
  have hreleased := hp.released
  cases b with
  | finished f => exact keepsOrder_finish hreleased
  | next =>
    obtain ⟨q, hq⟩ : ∃ q, q = { p with lineLock := p.lineLock.release } := ⟨_, rfl⟩
    rw [afterLine_next hq]
    rw [← hq] at hreleased
    split
    · exact keepsOrder_autosave hreleased
    · exact keepsOrder_goes hreleased (.refl q) trivial

/-- What becomes of a line becomes of the playback. -/
lemma keepsOrder_followPlay {x : Player × LineProgress} (hx : KeepsPlace x) :
    KeepsOrder (followPlay id play x) := by
  obtain ⟨q, progress⟩ := x
  cases progress with
  | blocked => exact keepsOrder_blocked hx.safe.consistent
  | goes line => exact keepsOrder_goes hx.safe.consistent (.refl q) ⟨hx.safe, hx.fits line rfl⟩
  | ends b => exact keepsOrder_afterLine hx.safe.consistent

/-- A line of a playback is begun, unless there is something else to do. -/
lemma keepsOrder_playLine (hp : p.IsConsistent) : KeepsOrder (p.playLine id play) := by
  have htakes : ∀ {hit context}, p.context.takeBreakpoint = (hit, context) →
      Stays p { p with context } := fun {hit context} htaken => by
    have hbare : p.context.takeBreakpoint.2.bare = p.context.bare := Context.bare_takeBreakpoint
    rw [htaken] at hbare
    exact ⟨congrArg (Place.mk p.host · p.recovery.checkpoint) hbare, fun h => h⟩
  have hengages := p.engages_playLine id play
  generalize p.playLine id play = x at hengages ⊢
  cases hengages with
  | yields => exact keepsOrder_continuePlay hp.released
  | @pauses q r index context _ _ htaken hq hr =>
    have hhit : Stays { p with context } q := hq ▸ stays_of_gist (gist_publish _ _ rfl)
    have hpaused : Stays q r := hr ▸ stays_moveFrom fun _ => rfl
    exact keepsOrder_continuePlay
      (hp.of_stays (((htakes htaken).trans hhit).trans hpaused)).released
  | begins _ hstate htaken =>
    have hsafe : p.IsSafe := hp.safe (by rw [hstate]; rfl)
    exact keepsOrder_followPlay (keepsPlace_beginLine play.token
      (hsafe.of_place (htakes htaken).place))

/-! ### The start of a playback -/

/-- Once the checkpoint is set, it fits. -/
lemma IsConsistent.setCheckpoint (hp : p.IsConsistent) : p.setCheckpoint.IsSafe := by
  cases hscript : p.context.script with
  | some script => exact hp.toIsSound.setCheckpoint hscript
  | none =>
    have hset : p.setCheckpoint = p := by
      simp [Player.setCheckpoint, Context.snapshot?, hscript]
    rw [hset]
    exact ⟨hp.toIsSound, hp.fits (.inr hscript)⟩

/-- The first line comes up with a checkpoint of its own. -/
lemma keepsOrder_startLines {token : Token} {name : String} (hp : p.IsConsistent) :
    KeepsOrder (p.startLines id token run name) := by
  obtain ⟨q, hq⟩ : ∃ q, q = (p.publish run (.scriptStarted name)).setCheckpoint := ⟨_, rfl⟩
  have hpublished : (p.publish run (.scriptStarted name)).IsConsistent :=
    hp.of_stays ⟨rfl, fun h => h⟩
  have hsafe : q.IsSafe := hq ▸ hpublished.setCheckpoint
  have hmoved : (q.moveFrom run .loading .playing).2.IsConsistent :=
    (hsafe.of_place place_moveFrom).consistent
  unfold startLines
  dsimp only
  rw [← hq]
  split
  · exact keepsOrder_finish hp
  · split
    · exact keepsOrder_continuePlay hmoved
    · exact keepsOrder_finish hmoved

/-- Getting ready for a script leaves nothing of the last one but the checkpoint. -/
lemma IsSound.prepare {script : Script} (bound : Bool) (hp : p.IsSound)
    (hscript : script.IsBuiltin) :
    (p.prepare script bound).2.IsSound ∧
      (p.prepare script bound).2.context.script = some script ∧
      (p.prepare script bound).2.state = .loading := by
  obtain ⟨now, hgist⟩ := gist_prepare (p := p) script bound
  have hcore := congrArg Gist.core hgist
  have hhost : (p.prepare script bound).2.host = p.host := (congrArg Player.host hcore).trans rfl
  have hcontext : (p.prepare script bound).2.context = p.context.resetFor script now :=
    (congrArg Player.context hcore).trans rfl
  refine ⟨⟨?_, fun s hs => ?_, ?_⟩, ?_, congrArg Gist.state hgist⟩
  · rw [hcontext]
    exact Context.isSound_resetFor _ _ _
  · rw [hcontext] at hs
    cases hs
    exact hscript
  · rw [hhost]
    exact hp.loads
  · rw [hcontext]
    rfl

lemma keepsOrder_beginPlay {script : Script} {start : Start} {bound : Bool} (hp : p.IsConsistent)
    (hscript : script.IsBuiltin) (hstart : start.Fits script)
    (hrefusal : startRefusal? script start = none) :
    KeepsOrder (p.beginPlay id script start bound) := by
  obtain ⟨hsound, hloaded, hstate⟩ := hp.toIsSound.prepare bound hscript
  obtain ⟨token, htoken⟩ : ∃ t, t = (p.prepare script bound).1 := ⟨_, rfl⟩
  obtain ⟨q, hq⟩ : ∃ q, q = (p.prepare script bound).2 := ⟨_, rfl⟩
  rw [← hq] at hsound hloaded hstate
  have hidle : q.state.isUnderway = false := by rw [hstate]; rfl
  have hqc : q.IsConsistent := hsound.consistent hidle hloaded
  obtain ⟨context, hcontext⟩ : ∃ c, c =
      startAt { q.context with labels := script.survey.labels } start := ⟨_, rfl⟩
  obtain ⟨hplaced, hsame⟩ := (hsound.context.withLabels hloaded).startAt hloaded hstart hrefusal
  rw [← hcontext] at hplaced hsame
  have hplacedSound : { q with context }.IsSound :=
    hsound.of_context rfl (hsame.trans hloaded.symm) hplaced
  have hrc : { q with context }.IsConsistent := hplacedSound.consistent hidle hsame
  unfold beginPlay
  split
  · exact keepsOrder_ends hp ⟨rfl, fun h => h⟩
  · dsimp only
    rw [← htoken, ← hq]
    split
    · exact keepsOrder_finish (hqc.of_stays (stays_moveFrom fun h => h))
    · rw [← hcontext]
      split
      · split
        · exact keepsOrder_finish hrc
        · exact keepsOrder_goes hrc ⟨rfl, fun h => h⟩ trivial
      · exact keepsOrder_startLines hrc

lemma keepsOrder_requestPlay {script : Script} {start : Start} {bound : Bool}
    (hp : p.IsConsistent) (hscript : script.IsBuiltin) (hstart : start.Fits script) :
    KeepsOrder (p.requestPlay id script start bound) := by
  unfold requestPlay
  split
  · exact keepsOrder_ends hp (.refl p)
  · next hrefusal =>
    split
    · exact keepsOrder_ends hp (.refl p)
    · exact keepsOrder_goes (hp.of_stays stays_stop) ⟨rfl, fun h => h⟩ ⟨hscript, hstart, hrefusal⟩

/-! ### Stepping and seeking -/

/-- A request that lets go of the line lock ends. -/
lemma keepsOrder_unlock {a : Answer} (hp : p.IsConsistent) : KeepsOrder (p.unlock a) :=
  keepsOrder_ends hp ⟨rfl, fun h => h⟩

lemma keepsOrder_requestLine {phase : Phase} (hp : p.IsConsistent) (hphase : ∀ q, phase.Fits q) :
    KeepsOrder (p.requestLine id phase) :=
  keepsOrder_goes hp ⟨rfl, fun h => h⟩ (hphase _)

/-- What becomes of a line that is executed on its own. -/
lemma keepsOrder_followStep {x : Player × LineProgress} (hx : KeepsPlace x) :
    KeepsOrder (followStep x) := by
  obtain ⟨q, progress⟩ := x
  cases progress with
  | blocked => exact keepsOrder_blocked hx.safe.consistent
  | goes line => exact keepsOrder_goes hx.safe.consistent (.refl q) ⟨hx.safe, hx.fits line rfl⟩
  | ends b =>
    have hdone : { q with context := { q.context with stepMode := false } }.IsConsistent :=
      hx.safe.consistent.of_stays ⟨rfl, fun h => h⟩
    cases b with
    | next => exact keepsOrder_unlock hdone
    | finished f =>
      refine keepsOrder_unlock (IsConsistent.of_stays ?_ (stays_moveFrom fun _ => rfl))
      exact hdone.of_stays ⟨rfl, fun h => h⟩

lemma keepsOrder_beginStep (hp : p.IsConsistent) : KeepsOrder p.beginStep := by
  unfold beginStep
  split
  · exact keepsOrder_unlock hp
  · exact keepsOrder_unlock hp
  · next token hrefusal _ =>
    have hunderway : p.state.isUnderway = true := by
      unfold stepRefusal? at hrefusal
      split at hrefusal
      · next hstate => rw [hstate]; rfl
      · next hstate => rw [hstate]; rfl
      · cases hrefusal
    have hsafe := hp.safe hunderway
    exact keepsOrder_followStep (keepsPlace_beginLine token (hsafe.of_place rfl))

/-- The line before one of the script is one of the script. -/
lemma keepsOrder_stepBack (hp : p.IsConsistent) : KeepsOrder p.stepBack := by
  have hle : p.context.cursor - 1 ≤ p.context.lineCount :=
    Nat.le_trans (Nat.sub_le _ _) hp.context.cursor_le
  have hmoved : { p with context := p.context.moveTo (p.context.cursor - 1) }.IsConsistent :=
    hp.of_context rfl rfl rfl (hp.context.moveTo hle) fun h => h
  exact keepsOrder_unlock (hmoved.of_stays ⟨rfl, fun h => h⟩)

lemma keepsOrder_skip {index : Nat} (hp : p.IsConsistent) : KeepsOrder (p.skip index) := by
  unfold skip
  split
  · exact keepsOrder_unlock hp
  · split
    · exact keepsOrder_unlock hp
    · next hlt =>
      have hle : index ≤ p.context.lineCount := by omega
      have hmoved : { p with context := p.context.moveTo index }.IsConsistent :=
        hp.of_context rfl rfl rfl (hp.context.moveTo hle) fun h => h
      exact keepsOrder_unlock (hmoved.of_stays ⟨rfl, fun h => h⟩)

/-! ### Saved snapshots -/

/-- A snapshot that is to be saved fits the script. -/
lemma keepsOrder_requestSave (hp : p.IsConsistent) : KeepsOrder p.requestSave := by
  unfold requestSave
  split
  · exact keepsOrder_ends hp (.refl p)
  · exact keepsOrder_ends hp (.refl p)
  · next s _ hs =>
    have hfits : s.Fits p.context := hp.context.fits hs
    exact keepsOrder_goes hp ⟨rfl, fun h => h⟩ hfits

lemma keepsOrder_storeSnapshot {key : String} {s : Snapshot} (hp : p.IsConsistent)
    (hs : s.Fits p.context) : KeepsOrder (p.storeSnapshot key s) := by
  obtain ⟨result, q, hwrite⟩ : ∃ result q, p.write key s = (result, q) := ⟨_, _, rfl⟩
  have hgist : q.gist = p.gist := by
    have hsnd : (p.write key s).2.gist = p.gist := gist_write p
    rw [hwrite] at hsnd
    exact hsnd
  have hstays : Stays p q := stays_of_gist hgist
  have hcontext : q.context = p.context := congrArg (fun g : Gist => g.core.context) hgist
  have hhost : q.host = p.host := congrArg (fun g : Gist => g.core.host) hgist
  unfold storeSnapshot
  rw [hwrite]
  cases result with
  | error e => exact keepsOrder_ends hp hstays
  | ok u =>
    have hsafe : { q with recovery := q.recovery.setCheckpoint s }.IsSafe :=
      hp.toIsSound.safe_of_checkpoint hs hhost hcontext rfl
    exact keepsOrder_ends hsafe.consistent (.refl _)

/-- A snapshot that fits is restored and becomes the checkpoint; another one is refused. -/
lemma keepsOrder_restoreSnapshot {s : Snapshot} (hp : p.IsConsistent)
    (hs : p.context.scriptName? = some s.scriptName → s.Fits p.context) :
    KeepsOrder (p.restoreSnapshot s) := by
  unfold restoreSnapshot
  split
  · exact keepsOrder_unlock hp
  · next name hname =>
    split
    · exact keepsOrder_unlock hp
    · next hsame =>
      split
      · exact keepsOrder_unlock hp
      · have hfits : s.Fits p.context := hs (hname.trans (congrArg some (not_not.mp hsame)))
        obtain ⟨q, hq⟩ : ∃ q, q = { p with context := p.context.restore s } := ⟨_, rfl⟩
        have hqcontext : q.context = p.context.restore s := by rw [hq]
        have hsound : q.IsSound := by
          rw [hq]
          exact hp.toIsSound.of_context rfl rfl (hp.context.restore hfits)
        have hqfits : s.Fits q.context := hfits.of_script (by rw [hqcontext]; rfl)
        have hsafe : { p with
            context := p.context.restore s
            recovery := p.recovery.setCheckpoint s
            spent := {} }.IsSafe :=
          hsound.safe_of_checkpoint hqfits (by rw [hq]) hqcontext.symm rfl
        exact keepsOrder_unlock (hsafe.consistent.of_stays ⟨rfl, fun h => h⟩)

lemma keepsOrder_requestSnapshot {key : String} {restoring : Bool} (hp : p.IsConsistent) :
    KeepsOrder (p.requestSnapshot key restoring) := by
  unfold requestSnapshot
  split
  · exact keepsOrder_ends hp (.refl p)
  · exact keepsOrder_goes hp (.refl p) trivial

lemma keepsOrder_fetchSnapshot {key : String} {restoring : Bool} (hp : p.IsConsistent) :
    KeepsOrder (p.fetchSnapshot id key restoring) := by
  unfold fetchSnapshot
  split
  · exact keepsOrder_ends hp (.refl p)
  · split
    · exact keepsOrder_requestLine hp fun _ => trivial
    · exact keepsOrder_ends hp (.refl p)

/-! ### Phases -/

lemma keepsOrder_requestLabel {label : String} (hp : p.IsConsistent) :
    KeepsOrder (p.requestLabel id label) := by
  unfold requestLabel
  split
  · exact keepsOrder_ends hp (.refl p)
  · split
    · exact keepsOrder_ends hp (.refl p)
    · exact keepsOrder_requestLine hp fun _ => trivial

/-- A request is taken up. -/
lemma keepsOrder_accept {request : Request} (hp : p.IsConsistent) (hrequest : request.Fits) :
    KeepsOrder (p.accept id request) := by
  cases request with
  | play script start bound => exact keepsOrder_requestPlay hp hrequest.1 hrequest.2
  | playNamed name =>
    simp only [accept]
    split
    · exact keepsOrder_ends hp (.refl p)
    · exact keepsOrder_goes hp (.refl p) trivial
  | reset => exact keepsOrder_goes (hp.of_stays stays_stop) ⟨rfl, fun h => h⟩ trivial
  | shutDown =>
    have hshut : Stays p { p with isShutDown := true } := ⟨rfl, fun h => h⟩
    exact keepsOrder_goes (hp.of_stays (hshut.trans stays_stop)) ⟨rfl, fun h => h⟩ trivial
  | stepForward =>
    simp only [accept]
    split
    · exact keepsOrder_ends hp (.refl p)
    · exact keepsOrder_requestLine hp fun _ => trivial
  | stepBackward =>
    simp only [accept]
    split
    · exact keepsOrder_ends hp (.refl p)
    · exact keepsOrder_requestLine hp fun _ => trivial
  | skipToLine index => exact keepsOrder_requestLine hp fun _ => trivial
  | skipToLabel label => exact keepsOrder_requestLabel hp
  | save => exact keepsOrder_requestSave hp
  | loadSnapshot key => exact keepsOrder_requestSnapshot hp
  | loadState key =>
    simp only [accept]
    split
    · exact keepsOrder_ends hp (.refl p)
    · exact keepsOrder_requestSnapshot hp

/-- A script that is loaded to be played has built-in commands. -/
lemma keepsOrder_loadAndPlay {name : String} (hp : p.IsConsistent) :
    KeepsOrder (p.loadAndPlay id name) := by
  unfold loadAndPlay
  split
  · exact keepsOrder_ends hp (.refl p)
  · next load hload =>
    split
    · exact keepsOrder_ends hp (.refl p)
    · next script hscript =>
      exact keepsOrder_requestPlay hp (hp.loads load hload name script hscript) trivial

/-- Without a script there is nothing to keep to. -/
lemma keepsOrder_resetAll (hp : p.IsConsistent) : KeepsOrder p.resetAll := by
  have hhost : (p.resetState p.run).host = p.host := congrArg (fun g : Gist => g.core.host)
    (gist_resetState p p.run)
  have hsound : p.resetAll.1.IsSound := by
    refine ⟨⟨Nat.zero_le _, fun f hf => absurd hf List.not_mem_nil, fun _ _ hget => ?_⟩,
      fun script hscript => ?_, ?_⟩
    · cases hget
    · cases hscript
    · exact hhost ▸ hp.loads
  have hsafe : p.resetAll.1.IsSafe := ⟨hsound, fun s hs => by cases hs⟩
  exact ⟨hsafe.consistent, fun _ hgoes => Progress.noConfusion hgoes⟩

/-- The write of an automatic save leaves the player in place. -/
lemma stays_autosaving {key : String} {s : Snapshot} :
    Stays p (p.write key s).2.measureMemory := by
  refine stays_of_gist ?_
  rw [gist_measureMemory, gist_write]

/-- Every step of a request keeps to the script, if a snapshot that is restored fits. -/
lemma keepsOrder_step {phase : Phase} (hp : p.IsConsistent) (hphase : phase.Fits p)
    (hrestore : ∀ s, phase = .restoreLock s →
      p.context.scriptName? = some s.scriptName → s.Fits p.context) :
    KeepsOrder (p.step id phase) := by
  have hblocked : KeepsOrder (p, .blocked) := keepsOrder_blocked hp
  cases phase with
  | entering request => exact keepsOrder_accept hp hphase
  | loading name => exact keepsOrder_loadAndPlay hp
  | playGate script start bound =>
    simp only [step]
    split
    · exact keepsOrder_beginPlay hp hphase.1 hphase.2.1 hphase.2.2
    · exact hblocked
  | preloading token run script until_ =>
    simp only [step]
    split
    · exact keepsOrder_startLines hp
    · exact hblocked
  | paused play =>
    simp only [step]
    split
    · exact keepsOrder_finish hp
    · split
      · exact hblocked
      · exact keepsOrder_playOn hp
  | playLock play =>
    simp only [step]
    split
    · exact keepsOrder_playLine hp
    · exact hblocked
  | playing play line => exact keepsOrder_followPlay (keepsPlace_stepLine hphase.1 hphase.2)
  | delaying play until_ =>
    simp only [step]
    split
    · exact keepsOrder_finish hp
    · split
      · exact keepsOrder_autosave hp
      · exact hblocked
  | autosaving play s =>
    simp only [step]
    split
    · exact keepsOrder_continuePlay (hp.of_stays (stays_of_gist (gist_measureMemory p)))
    · exact keepsOrder_continuePlay (hp.of_stays stays_autosaving)
  | resetGate =>
    simp only [step]
    split
    · exact keepsOrder_resetAll hp
    · exact hblocked
  | closeGate =>
    simp only [step]
    split
    · exact keepsOrder_ends hp ⟨rfl, fun h => h⟩
    · exact hblocked
  | stepLock =>
    simp only [step]
    split
    · exact keepsOrder_beginStep hp
    · exact hblocked
  | stepping line => exact keepsOrder_followStep (keepsPlace_stepLine hphase.1 hphase.2)
  | backLock =>
    simp only [step]
    split
    · exact keepsOrder_stepBack hp
    · exact hblocked
  | skipLock index =>
    simp only [step]
    split
    · exact keepsOrder_skip hp
    · exact hblocked
  | storing key s => exact keepsOrder_storeSnapshot hp hphase
  | fetching key restoring => exact keepsOrder_fetchSnapshot hp
  | restoreLock s =>
    simp only [step]
    split
    · exact keepsOrder_restoreSnapshot hp (hrestore s rfl)
    · exact hblocked

end Player

end Recital

import Recital.Proofs.Player.LastingChange
import Recital.Proofs.Session.Interleaving

/-!
# What requests and calls change for good

Every step of a request (`Player.changesWithin_step`) and every call
(`Player.lastingChanges_perform`) changes what a player keeps by lasting changes, and a request that
goes on brings values of the kind only.
-/

namespace Recital

variable {P : Json → Prop} {K : String → Prop}

/-- A call brings values of a kind only. -/
def Call.Sets (P : Json → Prop) : Call → Prop
  | .assign _ value => P value
  | _ => True

namespace Player

variable {p q : Player} {id : Nat} {play : Play} {run : Run}

/-- A request goes on by lasting changes, and brings values of the kind. -/
structure ChangesWithin (P : Json → Prop) (K : String → Prop) (p : Player)
    (x : Player × Progress) : Prop where
  changes : LastingChanges P K p x.1
  goes : ∀ next, x.2 = .goes next → next.Sets P

lemma ChangesWithin.trans {x : Player × Progress} (hpq : LastingChanges P K p q)
    (hx : ChangesWithin P K q x) :
    ChangesWithin P K p x :=
  ⟨hpq.trans hx.changes, hx.goes⟩

/-- A request goes on after something that is not kept. -/
lemma ChangesWithin.of_lastingPart {x : Player × Progress} (hx : ChangesWithin P K q x)
    (hpart : q.lastingPart = p.lastingPart) :
    ChangesWithin P K p x :=
  .trans (.of_lastingPart hpart) hx

lemma changesWithin_ends {answer : Answer} (h : LastingChanges P K p q) :
    ChangesWithin P K p (q, .ends answer) :=
  ⟨h, fun _ hgoes => nomatch hgoes⟩

lemma changesWithin_goes {next : Phase} (h : LastingChanges P K p q) (hnext : next.Sets P) :
    ChangesWithin P K p (q, .goes next) :=
  ⟨h, fun _ hgoes => Progress.goes.inj hgoes ▸ hnext⟩

lemma changesWithin_blocked :
    ChangesWithin P K p (p, .blocked) := ⟨.refl p, fun _ hgoes => nomatch hgoes⟩

/-! ### The end of a playback -/

lemma lastingChanges_conclude {f : Finish} : LastingChanges P K p (p.conclude f).1 := by
  cases f with
  | completed => exact LastingChanges.trans lastingChanges_moveFrom lastingChanges_moveIfAllowed
  | stopped | failed | halted | cancelled => exact lastingChanges_moveIfAllowed

lemma lastingChanges_publishEnd {r : Report} : LastingChanges P K p (p.publishEnd r) := by
  unfold publishEnd
  split <;> exact lastingChanges_publish trivial

lemma changesWithin_finish {f : Finish} : ChangesWithin P K p (p.finish f) := by
  unfold finish
  have hconcluded : LastingChanges P K p (p.conclude f).1 := lastingChanges_conclude
  generalize p.conclude f = concluded at hconcluded ⊢
  obtain ⟨q, outcome, fault⟩ := concluded
  have hended : LastingChanges P K p (q.publishEnd (q.report outcome fault)).measureMemory :=
    (hconcluded.trans lastingChanges_publishEnd).trans (.of_lastingPart lastingPart_measureMemory)
  exact changesWithin_ends (hended.trans (.of_lastingPart rfl))

/-! ### The loop of a playback -/

lemma changesWithin_playOn : ChangesWithin P K p (p.playOn id play) := by
  unfold playOn
  split
  · exact .of_lastingPart changesWithin_finish rfl
  · split
    · exact changesWithin_finish
    · split
      · exact changesWithin_goes (.of_lastingPart rfl) trivial
      · exact changesWithin_goes (.of_lastingPart rfl) trivial
      · exact changesWithin_goes (.refl p) trivial
      · exact changesWithin_finish
      · exact changesWithin_finish

lemma changesWithin_continuePlay : ChangesWithin P K p (p.continuePlay id play) := by
  unfold continuePlay
  split
  · exact changesWithin_goes (.refl p) trivial
  · exact changesWithin_playOn

/-- The snapshot to be saved automatically is one of the playback. -/
lemma snapshot?_of_autosaveDue {s : Snapshot} (h : p.autosaveDue play = some s) :
    p.context.snapshot? (Instant.ofMillis p.now) = some s := by
  unfold autosaveDue at h
  split at h
  · split at h
    · exact h
    · cases h
  · cases h

lemma changesWithin_autosave (hp : p.lastingPart.Holds P) :
    ChangesWithin P K p (p.autosave id play) := by
  unfold autosave
  split
  · next s hs =>
    have hholds : s.Holds P := holds_of_snapshot? hp (snapshot?_of_autosaveDue hs)
    exact changesWithin_goes (.single (.keeps hholds)) hholds
  · exact changesWithin_continuePlay

lemma changesWithin_afterLine {by_ : LineEnd} (hp : p.lastingPart.Holds P) :
    ChangesWithin P K p (p.afterLine id play by_) := by
  have hreleased : LastingChanges P K p { p with lineLock := p.lineLock.release } :=
    .of_lastingPart rfl
  unfold afterLine
  dsimp only
  split
  · exact .trans hreleased changesWithin_finish
  · split
    · exact .trans hreleased (changesWithin_autosave (hreleased.holds hp))
    · exact changesWithin_goes hreleased trivial

lemma changesWithin_followPlay {x : Player × LineProgress} (hp : p.lastingPart.Holds P)
    (hx : LineChangesWithin P K p x) :
    ChangesWithin P K p (followPlay id play x) := by
  obtain ⟨q, progress⟩ := x
  cases progress with
  | blocked => exact ⟨hx.changes, fun _ hgoes => nomatch hgoes⟩
  | goes line => exact changesWithin_goes hx.changes (hx.goes line rfl)
  | ends by_ => exact .trans hx.changes (changesWithin_afterLine (hx.changes.holds hp))

lemma changesWithin_playLine (hp : p.lastingPart.Holds P) :
    ChangesWithin P K p (p.playLine id play) := by
  have htakes : LastingChanges P K p { p with context := p.context.takeBreakpoint.2 } :=
    lastingChanges_of_context Context.lastingPart_takeBreakpoint
  have hengages := p.engages_playLine id play
  generalize p.playLine id play = x at hengages ⊢
  cases hengages with
  | yields => exact .of_lastingPart changesWithin_continuePlay rfl
  | @pauses q r index context _ _ htaken hq hr =>
    rw [htaken] at htakes
    have hhit : LastingChanges P K p q := hq ▸ htakes.trans (lastingChanges_publish trivial)
    have hpaused : LastingChanges P K p r := hr ▸ hhit.trans lastingChanges_moveFrom
    exact .trans hpaused (.of_lastingPart changesWithin_continuePlay rfl)
  | begins _ _ htaken =>
    rw [htaken] at htakes
    have hheld := htakes.holds hp
    exact .trans htakes (changesWithin_followPlay hheld (lineChangesWithin_beginLine hheld))

/-! ### The start of a playback -/

lemma changesWithin_startLines {token : Token} {script : String} (hp : p.lastingPart.Holds P) :
    ChangesWithin P K p (p.startLines id token run script) := by
  unfold startLines
  split
  · exact changesWithin_finish
  · have htold : LastingChanges P K p (p.publish run (.scriptStarted script)) :=
      lastingChanges_publish trivial
    have hset := htold.trans (lastingChanges_setCheckpoint (htold.holds hp))
    generalize (p.publish run (.scriptStarted script)).setCheckpoint = q at hset ⊢
    have hmoved : LastingChanges P K p (q.moveFrom run .loading .playing).2 :=
      hset.trans lastingChanges_moveFrom
    dsimp only
    split
    · exact .trans hmoved changesWithin_continuePlay
    · exact .trans hmoved changesWithin_finish

lemma lastingChanges_prepare {script : Script} {bound : Bool} (hscript : script.Sets P) :
    LastingChanges P K p (p.prepare script bound).2 := by
  obtain ⟨q, hq⟩ : ∃ q, q = { p with
      token := some ⟨p.serial, bound⟩, run := .numbered p.serial
      serial := p.serial + 1 }.clearLeftovers := ⟨_, rfl⟩
  have hcleared : LastingChanges P K p q := by
    rw [hq]
    exact LastingChanges.trans (.of_lastingPart rfl) lastingChanges_clearLeftovers
  have hquiet : q.pauseRequested = false := by rw [hq]; rfl
  have hmoved : LastingChanges P K p
      ((q.resetState (.numbered p.serial)).moveFrom (.numbered p.serial) .idle .loading).2 :=
    (hcleared.trans (lastingChanges_resetState hquiet)).trans lastingChanges_moveFrom
  obtain ⟨r, hr⟩ : ∃ r, r =
      ((q.resetState (.numbered p.serial)).moveFrom (.numbered p.serial) .idle .loading).2 :=
    ⟨_, rfl⟩
  rw [← hr] at hmoved
  have hloaded : LastingChanges P K r
      { r with context := { r.context with script := some script } } :=
    .single (.loads fun s hs => Option.some.inj hs ▸ hscript)
  have hreset : LastingChanges P K { r with context := { r.context with script := some script } }
      { r with context := r.context.resetFor script r.stopwatch, attempts := {} } :=
    .single .clears
  have heq : (p.prepare script bound).2 =
      { r with context := r.context.resetFor script r.stopwatch, attempts := {} } := by
    rw [hr, hq]
    rfl
  rw [heq]
  exact (hmoved.trans hloaded).trans hreset

/-- What is kept when a playback is put where it starts. -/
lemma lastingChanges_startAt {start : Start} {labels : Table Nat} (hstart : start.Holds P) :
    LastingChanges P K p { p with context := startAt { p.context with labels } start } := by
  cases start with
  | beginning | line => exact .of_lastingPart rfl
  | snapshot s => exact .single (.restores hstart)

lemma changesWithin_beginPlay {script : Script} {start : Start} {bound : Bool}
    (hp : p.lastingPart.Holds P)
    (hscript : script.Sets P) (hstart : start.Holds P) :
    ChangesWithin P K p (p.beginPlay id script start bound) := by
  unfold beginPlay
  split
  · exact changesWithin_ends (.of_lastingPart rfl)
  · have hprepared : LastingChanges P K p (p.prepare script bound).2 :=
      lastingChanges_prepare hscript
    generalize p.prepare script bound = prepared at hprepared ⊢
    obtain ⟨token, q⟩ := prepared
    dsimp only at hprepared ⊢
    split
    · exact .trans (hprepared.trans lastingChanges_moveFrom) changesWithin_finish
    · have hput : LastingChanges P K p
          { q with context := startAt { q.context with labels := script.survey.labels } start } :=
        hprepared.trans (lastingChanges_startAt hstart)
      split
      · split
        · exact .trans hput changesWithin_finish
        · exact changesWithin_goes (hput.trans (.of_lastingPart rfl)) trivial
      · exact .trans hput (changesWithin_startLines (hput.holds hp))

lemma changesWithin_requestPlay {script : Script} {start : Start} {bound : Bool}
    (hscript : script.Sets P)
    (hstart : start.Holds P) : ChangesWithin P K p (p.requestPlay id script start bound) := by
  unfold requestPlay
  split
  · exact changesWithin_ends (.refl p)
  · split
    · exact changesWithin_ends (.refl p)
    · exact changesWithin_goes (lastingChanges_stop.trans (.of_lastingPart rfl)) ⟨hscript, hstart⟩

/-! ### Stepping and seeking -/

lemma changesWithin_unlock {answer : Answer} :
    ChangesWithin P K p (p.unlock answer) := changesWithin_ends (.of_lastingPart rfl)

lemma changesWithin_requestLine {next : Phase} (hnext : next.Sets P) :
    ChangesWithin P K p (p.requestLine id next) :=
  changesWithin_goes (.of_lastingPart rfl) hnext

lemma changesWithin_followStep {x : Player × LineProgress} (hx : LineChangesWithin P K p x) :
    ChangesWithin P K p (followStep x) := by
  obtain ⟨q, progress⟩ := x
  cases progress with
  | blocked => exact ⟨hx.changes, fun _ hgoes => nomatch hgoes⟩
  | goes line => exact changesWithin_goes hx.changes (hx.goes line rfl)
  | ends by_ =>
    have hleft : LastingChanges P K p { q with context := { q.context with stepMode := false } } :=
      hx.changes.trans (.of_lastingPart rfl)
    cases by_ with
    | next => exact .trans hleft changesWithin_unlock
    | finished f => exact .trans (hleft.trans lastingChanges_defer) changesWithin_unlock

lemma changesWithin_beginStep (hp : p.lastingPart.Holds P) : ChangesWithin P K p p.beginStep := by
  unfold beginStep
  split
  · exact changesWithin_unlock
  · exact changesWithin_unlock
  · have hstepped : LastingChanges P K p
        { p with context := { p.context with stepMode := true } } :=
      .of_lastingPart rfl
    exact .trans hstepped (changesWithin_followStep
      (lineChangesWithin_beginLine (hstepped.holds hp)))

/-- Moving the cursor is seen in the progress only. -/
lemma lastingChanges_moveTo {index : Nat} :
    LastingChanges P K p { p with context := p.context.moveTo index }.publishProgress := by
  have hmoved : LastingChanges P K p { p with context := p.context.moveTo index } :=
    .of_lastingPart rfl
  exact hmoved.trans lastingChanges_publishProgress

lemma changesWithin_skip {index : Nat} : ChangesWithin P K p (p.skip index) := by
  unfold skip
  split
  · exact changesWithin_unlock
  · split
    · exact changesWithin_unlock
    · exact .trans lastingChanges_moveTo changesWithin_unlock

lemma changesWithin_requestLabel {label : String} :
    ChangesWithin P K p (p.requestLabel id label) := by
  unfold requestLabel
  split
  · exact changesWithin_ends (.refl p)
  · split
    · exact changesWithin_ends (.refl p)
    · exact changesWithin_requestLine trivial

/-! ### Saved snapshots -/

lemma changesWithin_requestSave (hp : p.lastingPart.Holds P) :
    ChangesWithin P K p p.requestSave := by
  unfold requestSave
  split
  · exact changesWithin_ends (.refl p)
  · exact changesWithin_ends (.refl p)
  · next hs => exact changesWithin_goes (.of_lastingPart rfl) (holds_of_snapshot? hp hs)

lemma lastingChanges_write {key : String} {s : Snapshot} (hkey : K key) :
    LastingChanges P K p (p.write key s).2 := by
  unfold write
  split
  · exact .refl p
  · next store hstore => exact .single (.writes hstore hkey)

lemma changesWithin_storeSnapshot {key : String} {s : Snapshot} (hkey : K key) (hs : s.Holds P) :
    ChangesWithin P K p (p.storeSnapshot key s) := by
  unfold storeSnapshot
  have hwritten : LastingChanges P K p (p.write key s).2 := lastingChanges_write hkey
  generalize p.write key s = written at hwritten ⊢
  obtain ⟨result, q⟩ := written
  cases result with
  | error e => exact changesWithin_ends hwritten
  | ok => exact changesWithin_ends (hwritten.trans (.single (.keeps hs)))

/-- A snapshot that is read holds values of the kind. -/
lemma holds_of_readSnapshot {key : String} {s : Snapshot} (hp : p.lastingPart.Holds P)
    (h : p.readSnapshot key = .ok s) : s.Holds P := by
  unfold readSnapshot at h
  split at h
  · cases h
  · next store hstore =>
    split at h
    · cases h
    · cases h
    · next j hload =>
      split at h
      · cases h
      · next s hs =>
        cases h
        exact hp.store store hstore store .refl key j s hload hs

lemma changesWithin_fetchSnapshot {key : String} {restoring : Bool} (hp : p.lastingPart.Holds P) :
    ChangesWithin P K p (p.fetchSnapshot id key restoring) := by
  unfold fetchSnapshot
  split
  · exact changesWithin_ends (.refl p)
  · next s hs =>
    split
    · exact changesWithin_requestLine (holds_of_readSnapshot hp hs)
    · exact changesWithin_ends (.refl p)

lemma changesWithin_requestSnapshot {key : String} {restoring : Bool} :
    ChangesWithin P K p (p.requestSnapshot key restoring) := by
  unfold requestSnapshot
  split
  · exact changesWithin_ends (.refl p)
  · exact changesWithin_goes (.refl p) trivial

lemma changesWithin_restoreSnapshot {s : Snapshot} (hs : s.Holds P) :
    ChangesWithin P K p (p.restoreSnapshot s) := by
  unfold restoreSnapshot
  split
  · exact changesWithin_unlock
  · split
    · exact changesWithin_unlock
    · split
      · exact changesWithin_unlock
      · have hrestored : LastingChanges P K p { p with context := p.context.restore s } :=
          .single (.restores hs)
        have hkept : LastingChanges P K { p with context := p.context.restore s }
            { p with
              context := p.context.restore s
              recovery := p.recovery.setCheckpoint s
              spent := {} } := .single (.keeps hs)
        exact .trans ((hrestored.trans hkept).trans lastingChanges_publishProgress)
          changesWithin_unlock

/-! ### Phases -/

lemma changesWithin_accept {r : Request} (hp : p.lastingPart.Holds P) (hr : r.Sets P) :
    ChangesWithin P K p (p.accept id r) := by
  cases r with
  | play => exact changesWithin_requestPlay hr.1 hr.2
  | playNamed =>
    simp only [accept]
    split
    · exact changesWithin_ends (.refl p)
    · exact changesWithin_goes (.refl p) trivial
  | reset => exact changesWithin_goes (lastingChanges_stop.trans (.of_lastingPart rfl)) trivial
  | shutDown =>
    have hshut : LastingChanges P K p { p with isShutDown := true } := .of_lastingPart rfl
    exact changesWithin_goes ((hshut.trans lastingChanges_stop).trans (.of_lastingPart rfl)) trivial
  | stepForward | stepBackward =>
    simp only [accept]
    split
    · exact changesWithin_ends (.refl p)
    · exact changesWithin_requestLine trivial
  | skipToLine => exact changesWithin_requestLine trivial
  | skipToLabel => exact changesWithin_requestLabel
  | save => exact changesWithin_requestSave hp
  | loadSnapshot => exact changesWithin_requestSnapshot
  | loadState =>
    simp only [accept]
    split
    · exact changesWithin_ends (.refl p)
    · exact changesWithin_requestSnapshot

lemma changesWithin_loadAndPlay {name : String} (hp : p.lastingPart.Holds P) :
    ChangesWithin P K p (p.loadAndPlay id name) := by
  unfold loadAndPlay
  split
  · exact changesWithin_ends (.refl p)
  · next load hload =>
    split
    · exact changesWithin_ends (.refl p)
    · next script hscript =>
      exact changesWithin_requestPlay (hp.loads load name script hload hscript) trivial

/-- A reset comes to the same when the pause that was asked for is forgotten first. -/
lemma resetState_forget :
    { p with pauseRequested := false }.resetState run =
      { p.resetState run with pauseRequested := false } := by
  by_cases h : p.state = .idle
  · have hidle : { p with pauseRequested := false }.state = .idle := h
    rw [resetState_eq_ite, resetState_eq_ite, if_pos h, if_pos hidle]
  · have hbusy : { p with pauseRequested := false }.state ≠ .idle := h
    rw [resetState_eq_ite, resetState_eq_ite, if_neg h, if_neg hbusy]
    rfl

lemma changesWithin_resetAll : ChangesWithin P K p p.resetAll := by
  have hforgotten : LastingChanges P K p { p with pauseRequested := false } := .single .forgets
  have hreset : LastingChanges P K p ({ p with pauseRequested := false }.resetState p.run) :=
    hforgotten.trans (lastingChanges_resetState rfl)
  rw [resetState_forget] at hreset
  obtain ⟨q, hq⟩ : ∃ q, q = p.resetState p.run := ⟨_, rfl⟩
  rw [← hq] at hreset
  have hunloaded : LastingChanges P K { q with pauseRequested := false }
      { q with pauseRequested := false, context := { q.context with script := none } } :=
    .single (.loads fun s hs => nomatch hs)
  have hcleared : LastingChanges P K
      { q with pauseRequested := false, context := { q.context with script := none } }
      { q with pauseRequested := false, context := { breakpoints := q.context.breakpoints } } :=
    .single .clears
  have hunmarked : LastingChanges P K
      { q with pauseRequested := false, context := { breakpoints := q.context.breakpoints } }
      { q with pauseRequested := false, context := {} } := .single (.marks fun _ => .nil)
  have hdropped : LastingChanges P K { q with pauseRequested := false, context := {} }
      { q with
        pauseRequested := false, context := {}, recovery := q.recovery.clearCheckpoint } :=
    .single .drops
  have hall := (((hreset.trans hunloaded).trans hcleared).trans hunmarked).trans hdropped
  unfold resetAll
  dsimp only
  rw [← hq]
  exact changesWithin_ends (hall.trans (.of_lastingPart rfl))

lemma changesWithin_close : ChangesWithin P K p p.close := changesWithin_ends (.single .closes)

/-- A step of a request. -/
lemma changesWithin_step {phase : Phase} (hp : p.lastingPart.Holds P) (hphase : phase.Sets P)
    (hwrites : phase.Writes K) (hautosave : K p.host.config.pacing.autosaveKey) :
    ChangesWithin P K p (p.step id phase) := by
  cases phase with
  | entering r => exact changesWithin_accept hp hphase
  | loading name => exact changesWithin_loadAndPlay hp
  | playGate script start bound =>
    simp only [step]
    split
    · exact changesWithin_beginPlay hp hphase.1 hphase.2
    · exact changesWithin_blocked
  | preloading token run script until_ =>
    simp only [step]
    split
    · exact changesWithin_startLines hp
    · exact changesWithin_blocked
  | paused play =>
    simp only [step]
    split
    · exact changesWithin_finish
    · split
      · exact changesWithin_blocked
      · exact changesWithin_playOn
  | playLock play =>
    simp only [step]
    split
    · exact changesWithin_playLine hp
    · exact changesWithin_blocked
  | playing play line => exact changesWithin_followPlay hp (lineChangesWithin_stepLine hp hphase)
  | delaying play until_ =>
    simp only [step]
    split
    · exact changesWithin_finish
    · split
      · exact changesWithin_autosave hp
      · exact changesWithin_blocked
  | autosaving play s =>
    have hwritten : LastingChanges P K p
        (if p.prompt && p.isCancelled play.token then p
          else (p.write p.host.config.pacing.autosaveKey s).2) := by
      split
      · exact .refl p
      · exact lastingChanges_write hautosave
    exact .trans (hwritten.trans (.of_lastingPart lastingPart_measureMemory))
      changesWithin_continuePlay
  | resetGate =>
    simp only [step]
    split
    · exact changesWithin_resetAll
    · exact changesWithin_blocked
  | closeGate =>
    simp only [step]
    split
    · exact changesWithin_close
    · exact changesWithin_blocked
  | stepLock =>
    simp only [step]
    split
    · exact changesWithin_beginStep hp
    · exact changesWithin_blocked
  | stepping line => exact changesWithin_followStep (lineChangesWithin_stepLine hp hphase)
  | backLock =>
    simp only [step]
    split
    · exact .trans lastingChanges_moveTo changesWithin_unlock
    · exact changesWithin_blocked
  | skipLock index =>
    simp only [step]
    split
    · exact changesWithin_skip
    · exact changesWithin_blocked
  | storing key s => exact changesWithin_storeSnapshot hwrites hphase
  | fetching key restoring => exact changesWithin_fetchSnapshot hp
  | restoreLock s =>
    simp only [step]
    split
    · exact changesWithin_restoreSnapshot hphase
    · exact changesWithin_blocked

/-- A call. -/
lemma lastingChanges_perform {c : Call} (hc : c.Sets P) : LastingChanges P K p (p.perform c) := by
  cases c with
  | pause =>
    simp only [perform, pause]
    split
    · exact .refl p
    · have hmoved : LastingChanges P K p (p.moveFrom p.run .playing .paused).2 :=
        lastingChanges_moveFrom
      exact hmoved.trans (.single .forgets)
    · next hwaiting => exact .single (.asks hwaiting)
    · exact .refl p
  | resume =>
    have hforgotten : LastingChanges P K p { p with pauseRequested := false } := .single .forgets
    simp only [perform, resume]
    split
    · exact hforgotten.trans lastingChanges_moveFrom
    · exact hforgotten
    · exact hforgotten
    · exact hforgotten
  | stop => exact lastingChanges_stop
  | cancel => exact .of_lastingPart rfl
  | setSpeed speed =>
    simp only [perform, setSpeed]
    split
    · exact .of_lastingPart rfl
    · exact .refl p
  | addBreakpoint index => exact .single (.marks fun h => Context.pairwise_insertMark h)
  | removeBreakpoint index =>
    have hpart : (p.context.removeBreakpoint index).lastingPart = { p.context.lastingPart with
        breakpoints := p.context.breakpoints.filter (· != index) } := by
      unfold Context.removeBreakpoint Context.unrelease
      split <;> rfl
    have hmarked : LastingChange P K p.lastingPart (p.removeBreakpoint index).2.lastingPart := by
      have hchange : LastingChange P K p.lastingPart { p.lastingPart with
          context := { p.lastingPart.context with
            breakpoints := p.context.breakpoints.filter (· != index) } } :=
        .marks fun h => h.filter _
      rwa [show (p.removeBreakpoint index).2.lastingPart = _ from
        congrArg (LastingPart.mk _ _ _ _ · _ _) hpart]
    exact .single hmarked
  | clearBreakpoints => exact .single (.marks fun _ => .nil)
  | assign name value => exact lastingChanges_setVariable hc
  | unassignAll => exact lastingChanges_clearVariables

end Player

/-! ### Sessions -/

namespace Session

variable {s s' : Session} {a : Action}

/-- An action brings values of a kind only. -/
def Action.Sets (P : Json → Prop) : Action → Prop
  | .submit _ r => r.Sets P
  | .call c => c.Sets P
  | _ => True

/-- All values are of a kind, those of the requests in progress included. -/
structure Sets (P : Json → Prop) (s : Session) : Prop where
  player : s.player.lastingPart.Holds P
  tasks : ∀ t ∈ s.tasks, t.phase.Sets P

/-- No values are there before anything is done. -/
lemma Sets.created {host : Host} {bus : Bus} {store : Option Store}
    (hloads : ∀ load name script, host.loader = some load → load name = .ok script → script.Sets P)
    (hstore : ∀ given, store = some given → given.Yields P) :
    Sets P { player := .create host bus store } where
  player :=
    { loads := hloads
      script := fun _ h => nomatch h
      vars := Table.holds_empty
      checkpoint := fun _ h => nomatch h
      store := hstore }
  tasks := fun _ ht => absurd ht List.not_mem_nil

/-- Whatever is done changes what the player keeps by lasting changes, and brings values of the kind
only. -/
lemma Does.changes (h : s.Does a s') (hs : s.Sets P) (ha : a.Sets P)
    (hwrites : ∀ t ∈ s.tasks, t.phase.Writes K)
    (hautosave : K s.player.host.config.pacing.autosaveKey) :
    Player.LastingChanges P K s.player s'.player ∧ s'.Sets P := by
  cases h with
  | @submit id r hnew =>
    refine ⟨.refl _, hs.player, fun t ht => ?_⟩
    rcases List.mem_append.mp ht with ht | ht
    · exact hs.tasks t ht
    · rw [List.mem_singleton.mp ht]
      exact ha
  | call =>
    have hchanges : Player.LastingChanges P K s.player (s.player.perform _) :=
      Player.lastingChanges_perform ha
    exact ⟨hchanges, hchanges.holds hs.player, hs.tasks⟩
  | @goes t left right q phase htasks hstep =>
    have ht : t ∈ s.tasks := by rw [htasks]; simp
    have hwithin : Player.ChangesWithin P K s.player (s.player.step t.id t.phase) :=
      Player.changesWithin_step hs.player (hs.tasks t ht) (hwrites t ht) hautosave
    rw [hstep] at hwithin
    refine ⟨hwithin.changes, hwithin.changes.holds hs.player, fun u hu => ?_⟩
    rcases List.mem_append.mp hu with hu | hu
    · exact hs.tasks u (by rw [htasks]; exact List.mem_append_left _ hu)
    · rcases List.mem_cons.mp hu with rfl | hu
      · exact hwithin.goes phase rfl
      · exact hs.tasks u (by rw [htasks]; exact List.mem_append_right _ (.tail _ hu))
  | @ends t left right q answer htasks hstep =>
    have ht : t ∈ s.tasks := by rw [htasks]; simp
    have hwithin : Player.ChangesWithin P K s.player (s.player.step t.id t.phase) :=
      Player.changesWithin_step hs.player (hs.tasks t ht) (hwrites t ht) hautosave
    rw [hstep] at hwithin
    refine ⟨hwithin.changes, hwithin.changes.holds hs.player, fun u hu => hs.tasks u ?_⟩
    rw [htasks]
    rcases List.mem_append.mp hu with hu | hu
    · exact List.mem_append_left _ hu
    · exact List.mem_append_right _ (.tail _ hu)
  | wait => exact ⟨.of_lastingPart rfl, hs.player, hs.tasks⟩

/-- The same, whichever keys are written to. -/
lemma Does.lastingChanges_of_sets (h : s.Does a s') (hs : s.Sets P) (ha : a.Sets P) :
    Player.LastingChanges P (fun _ => True) s.player s'.player ∧ s'.Sets P := by
  have hwrites : ∀ t ∈ s.tasks, t.phase.Writes fun _ => True := fun t _ => by
    cases t.phase <;> trivial
  exact h.changes hs ha hwrites trivial

end Session

/-! ### Values of any kind -/

/-- Every command sets some values. -/
lemma Command.sets_any (c : Command) : c.Sets fun _ => True := by
  intro n view e _
  cases e <;> simp [Effect.Sets]

lemma Script.sets_any (s : Script) : s.Sets fun _ => True := fun _ c _ => c.sets_any

lemma Phase.sets_any (phase : Phase) : phase.Sets fun _ => True := by
  have hvars : ∀ s : Snapshot, s.Holds fun _ => True := fun _ _ _ => trivial
  have hline : ∀ line : LinePhase, line.Sets fun _ => True := fun line => by
    cases line with
    | flying j | resting j => exact j.command.sets_any
    | presenting | switching => trivial
  have hstart : ∀ start : Start, start.Holds fun _ => True := fun start => by
    cases start with
    | snapshot s => exact hvars s
    | beginning | line => trivial
  cases phase with
  | entering r =>
    cases r with
    | play script start => exact ⟨script.sets_any, hstart start⟩
    | _ => trivial
  | playGate script start => exact ⟨script.sets_any, hstart start⟩
  | playing _ line | stepping line => exact hline line
  | autosaving _ s | storing _ s | restoreLock s => exact hvars s
  | _ => trivial

lemma Session.sets_any (s : Session) : s.Sets fun _ => True where
  player :=
    { loads := fun _ _ script _ _ => script.sets_any
      script := fun script _ => script.sets_any
      vars := fun _ _ => trivial
      checkpoint := fun _ _ _ _ => trivial
      store := fun _ _ _ _ _ _ _ _ _ _ _ => trivial }
  tasks t _ := t.phase.sets_any

/-- Whatever is done changes what the player keeps by lasting changes. -/
lemma Session.Does.lastingChanges_any {s s' : Session} {a : Session.Action} (h : s.Does a s') :
    Player.LastingChanges (fun _ => True) (fun _ => True) s.player s'.player := by
  have ha : a.Sets fun _ => True := by
    cases a with
    | submit id r => exact (Phase.entering r).sets_any
    | call c => cases c <;> trivial
    | go | wait => trivial
  exact (h.lastingChanges_of_sets s.sets_any ha).1

/-- Steps leave the host as it is. -/
lemma Player.host_step {p : Player} {id : Nat} {phase : Phase} :
    (p.step id phase).1.host = p.host := by
  have hp : p.lastingPart.Holds fun _ => True := (Session.sets_any { player := p }).player
  have hwithin : Player.ChangesWithin (fun _ => True) (fun _ => True) p (p.step id phase) := by
    refine Player.changesWithin_step hp phase.sets_any ?_ trivial
    cases phase with
    | entering r => cases r <;> trivial
    | _ => trivial
  exact hwithin.changes.host

end Recital

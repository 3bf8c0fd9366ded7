import Recital.Proofs.Session.Ownership

/-!
# What becomes of the state of a playback

A request that waits for the line lock goes by the state that it was taken up in.  While it waits,
the state may change under it, but not by most steps: a step may stop the playback (`Phase.stops`),
pass the gate, or end the playback, and all others keep a playback under way (`Player.Abides`).  A
playback that is paused even stays so, unless a single step comes to the end of the script
(`Player.defers`), for then the playback is woken.

The state is `waiting` only while a line is in flight that has changed it (`Player.StateFollows`),
so whoever has the line lock without a line finds a playback that is under way playing or paused.
-/

namespace Recital

/-- The playback stays under way, and paused if it is not roused. -/
structure State.Lasts (roused : Bool) (a b : State) : Prop where
  underway : a.isUnderway = true → b.isUnderway = true
  paused : roused = false → a = .paused → b = .paused

namespace State.Lasts

variable {roused : Bool} {a b c : State}

lemma refl (roused : Bool) (a : State) : Lasts roused a a := ⟨fun h => h, fun _ h => h⟩

lemma trans (hab : Lasts roused a b) (hbc : Lasts roused b c) : Lasts roused a c :=
  ⟨fun h => hbc.underway (hab.underway h), fun hroused h =>
    hbc.paused hroused (hab.paused hroused h)⟩

/-- What holds without a rouse holds with one. -/
lemma of_calm (h : Lasts false a b) : Lasts roused a b := ⟨h.underway, fun _ => h.paused rfl⟩

/-- Nothing is under way. -/
lemma of_idle (h : a.isUnderway = false) : Lasts roused a b := by
  refine ⟨fun hunder => ?_, fun _ hpaused => ?_⟩
  · cases h.symm.trans hunder
  · rw [hpaused] at h
    cases h

end State.Lasts

/-- A request that stops the playback when it goes on. -/
def Phase.stops : Phase → Bool
  | .entering (.play ..) | .loading _ | .entering .reset | .entering .shutDown => true
  | _ => false

namespace Player

variable {p q : Player} {id : Nat} {play : Play} {phase : Phase} {token : Token} {run : Run}
  {entered : Bool} {b : Bearing} {f : Finish} {line : LinePhase} {x : Player × Progress}
  {y : Player × LineProgress}

/-- A single step leaves an end for the playback in the next step of its request. -/
def defers (p : Player) (id : Nat) (phase : Phase) : Bool :=
  phase.isStep &&
    match p.execution? id phase with
    | some (_, .ends (.finished _)) => true
    | _ => false

/-- The next step of a request neither stops the playback nor ends it, and no other one begins. -/
def Abides (id : Nat) (p : Player) (phase : Phase) : Prop :=
  phase.stops = false ∧ ¬ Enters id p phase ∧ ∀ r, (p.step id phase).2 ≠ .ends (.report r)

/-! ### Lines -/

lemma Bearing.lasts_left : State.Lasts false b.state (b.left entered).state := by
  unfold Bearing.left
  split
  · next hwaits =>
    rw [hwaits.2]
    exact ⟨fun _ => rfl, fun _ h => State.noConfusion h⟩
  · exact .refl _ _

lemma Bearing.lasts_settled : State.Lasts false b.state b.settled.state := by
  unfold Bearing.settled
  split
  · dsimp only
    split
    · exact ⟨fun _ => rfl, fun _ _ => rfl⟩
    · exact .refl _ _
  · exact .refl _ _

/-- An attempt that has ended does not leave the state changed. -/
lemma Bearing.waiting_of_left (h : (b.left entered).state = .waiting) :
    b.state = .waiting ∧ entered = false := by
  unfold Bearing.left at h
  split at h
  · cases h
  · next hnot =>
    refine ⟨h, ?_⟩
    cases entered with
    | false => rfl
    | true => exact absurd ⟨rfl, h⟩ hnot

lemma Bearing.waiting_of_settled (h : b.settled.state = .waiting) : b.state = .waiting := by
  unfold Bearing.settled at h
  split at h
  · dsimp only at h
    split at h
    · cases h
    · exact h
  · exact h

/-- What becomes of a line that a request takes on or begins. -/
structure LineStateFollows (p : Player) (phase : Phase) (y : Player × LineProgress) : Prop where
  ready : y.2 ≠ .blocked
  lasts : State.Lasts false p.state y.1.state
  waiting : y.1.state = .waiting →
    (∃ line, y.2 = .goes line ∧ line.entered = true) ∨
      p.state = .waiting ∧ ∀ line, phase.line? = some line → line.entered = false

lemma Follows.lasts (h : Follows entered b y) : State.Lasts false b.state y.1.state := by
  obtain ⟨q, progress⟩ := y
  have hleft : ∀ {c : Bearing}, q.bearing = c → State.Lasts false b.state c.state →
      State.Lasts false b.state q.state := fun hq hc => by
    rw [show q.state = _ from congrArg Bearing.state hq]
    exact hc
  cases progress with
  | blocked => exact h.elim
  | goes next =>
    rcases h with ⟨hq, -⟩ | ⟨hq, -⟩
    · exact hleft hq (.refl _ _)
    · exact hleft hq Bearing.lasts_left
  | ends by_ =>
    rcases h with hq | ⟨hq, -⟩
    · exact hleft hq (Bearing.lasts_left.trans Bearing.lasts_settled)
    · exact hleft hq Bearing.lasts_left

/-- A line leaves the state `waiting` for its own attempt, or it was so before. -/
lemma Follows.waiting (h : Follows entered b y) (hwaiting : y.1.state = .waiting) :
    (∃ line, y.2 = .goes line ∧ line.entered = true) ∨ b.state = .waiting ∧ entered = false := by
  obtain ⟨q, progress⟩ := y
  have hleft : q.bearing = b.left entered → b.state = .waiting ∧ entered = false := fun hq =>
    Bearing.waiting_of_left ((congrArg Bearing.state hq).symm.trans hwaiting)
  cases progress with
  | blocked => exact h.elim
  | goes next =>
    rcases h with ⟨hq, hentered⟩ | ⟨hq, -⟩
    · cases entered with
      | true => exact .inl ⟨next, rfl, hentered⟩
      | false => exact .inr ⟨(congrArg Bearing.state hq).symm.trans hwaiting, rfl⟩
    · exact .inr (hleft hq)
  | ends by_ =>
    rcases h with hq | ⟨hq, -⟩
    · exact .inr (Bearing.waiting_of_left
        (Bearing.waiting_of_settled ((congrArg Bearing.state hq).symm.trans hwaiting)))
    · exact .inr (hleft hq)

lemma Follows.ready (h : Follows entered b y) : y.2 ≠ .blocked := by
  intro hblocked
  obtain ⟨q, progress⟩ := y
  cases hblocked
  exact h

lemma lineStateFollows_stepLine (hline : phase.line? = some line)
    (hready : (p.stepLine line).2 ≠ .blocked) :
    LineStateFollows p phase (p.stepLine line) := by
  rcases follows_stepLine p line with hblocked | hfollows
  · rw [hblocked] at hready
    exact absurd rfl hready
  · refine ⟨hready, hfollows.lasts, fun hwaiting => ?_⟩
    refine (hfollows.waiting hwaiting).imp_right fun ⟨hstate, hentered⟩ => ⟨hstate, fun l hl => ?_⟩
    rw [hline] at hl
    cases hl
    exact hentered

lemma lineStateFollows_beginLine {context : Context} (hline : phase.line? = none) :
    LineStateFollows p phase ({ p with context }.beginLine token) := by
  have hunlined : ∀ l, phase.line? = some l → l.entered = false := fun l hl => by
    rw [hline] at hl
    cases hl
  rcases follows_beginLine { p with context } token with ⟨hbearing, hend⟩ | ⟨i, entered, hs, hf⟩
  · have hstate : ({ p with context }.beginLine token).1.state = p.state :=
      congrArg Bearing.state hbearing
    refine ⟨?_, hstate ▸ .refl _ _, fun hwaiting => .inr ⟨hstate.symm.trans hwaiting, hunlined⟩⟩
    rw [hend]
    exact LineProgress.noConfusion
  · have hbegins : State.Lasts false p.state (if entered then .waiting else p.state) := by
      cases entered with
      | false => exact .refl _ _
      | true =>
        refine ⟨fun _ => rfl, fun _ hpaused => ?_⟩
        cases hpaused.symm.trans (hs rfl)
    refine ⟨hf.ready, hbegins.trans hf.lasts, fun hwaiting => ?_⟩
    refine (hf.waiting hwaiting).imp_right fun ⟨hstate, hentered⟩ => ⟨?_, hunlined⟩
    rw [hentered] at hstate
    exact hstate

/-! ### Requests -/

/-- What a step of a request does to the state. -/
structure StateFollows (id : Nat) (p : Player) (phase : Phase) (x : Player × Progress) : Prop where
  /-- A state that is `waiting` is so for the line that the request has in flight now, or it was so
  before, for a line of another request. -/
  waiting : x.1.state = .waiting →
    (∃ next line, x.2 = .goes next ∧ next.line? = some line ∧ line.entered = true) ∨
      p.state = .waiting ∧ ∀ line, phase.line? = some line → line.entered = false
  lasts : phase.stops = false → ¬ Enters id p phase → (∀ r, x.2 ≠ .ends (.report r)) →
    State.Lasts (p.defers id phase) p.state x.1.state

/-- The state is the same as before. -/
lemma stateFollows_of_state {progress : Progress} (hline : phase.line? = none)
    (hstate : q.state = p.state) : StateFollows id p phase (q, progress) := by
  refine ⟨fun hwaiting => .inr ⟨hstate.symm.trans hwaiting, fun l hl => ?_⟩, fun _ _ _ => ?_⟩
  · rw [hline] at hl
    cases hl
  · rw [show (q, progress).1.state = p.state from hstate]
    exact .refl _ _

/-- A playback has ended. -/
lemma stateFollows_of_ended (h : Ended q f x)
    (hwaiting : q.state = .waiting →
      p.state = .waiting ∧ ∀ line, phase.line? = some line → line.entered = false) :
    StateFollows id p phase x := by
  obtain ⟨r, hr, -⟩ := h.report
  exact ⟨fun hx => .inr (hwaiting (h.waiting hx)), fun _ _ hends => absurd hr (hends r)⟩

/-- A playback goes on between two lines, or ends. -/
lemma stateFollows_of_between (h : Between id token q x)
    (hlasts : State.Lasts false p.state q.state)
    (hwaiting : q.state = .waiting →
      p.state = .waiting ∧ ∀ line, phase.line? = some line → line.entered = false) :
    StateFollows id p phase x := by
  cases h with
  | @goes r _ _ _ hbearing =>
    have hstate : r.state = q.state := congrArg Bearing.state hbearing
    refine ⟨fun hx => .inr (hwaiting (hstate.symm.trans hx)), fun _ _ _ => State.Lasts.of_calm ?_⟩
    exact hstate ▸ hlasts
  | ends hx => exact stateFollows_of_ended hx hwaiting

/-- A request goes on with its line. -/
lemma LineStateFollows.stateFollows_goes {line : LinePhase} {next : Phase}
    (hy : LineStateFollows p phase (q, .goes line))
    (hline : next.line? = some line) : StateFollows id p phase (q, .goes next) := by
  refine ⟨fun hx => (hy.waiting hx).imp_left ?_, fun _ _ _ => hy.lasts.of_calm⟩
  rintro ⟨l, hl, hentered⟩
  cases hl
  exact ⟨next, line, rfl, hline, hentered⟩

/-- A line that has ended leaves no state that it has entered. -/
lemma LineStateFollows.of_ends {by_ : LineEnd} (hy : LineStateFollows p phase (q, .ends by_))
    (hq : q.state = .waiting) :
    p.state = .waiting ∧ ∀ line, phase.line? = some line → line.entered = false :=
  (hy.waiting hq).resolve_left fun ⟨_, hgoes, _⟩ => LineProgress.noConfusion hgoes

/-- A single step hands on what becomes of its line. -/
lemma stateFollows_followStep (hy : LineStateFollows p phase y)
    (hdefers : ∀ f, y.2 = .ends (.finished f) → p.defers id phase = true) :
    StateFollows id p phase (followStep y) := by
  have hlasts := hy.lasts
  obtain ⟨q, progress⟩ := y
  cases progress with
  | blocked => exact absurd rfl hy.ready
  | goes line => exact hy.stateFollows_goes rfl
  | ends by_ =>
    have hended := hy.of_ends
    cases by_ with
    | next => exact ⟨fun hx => .inr (hended hx), fun _ _ _ => hlasts.of_calm⟩
    | finished f =>
      obtain ⟨r, hr⟩ : ∃ r, r = { q with context := { q.context with stepMode := false } } :=
        ⟨_, rfl⟩
      have hrstate : r.state = q.state := by rw [hr]; rfl
      have hdeferred : (r.defer f).state = if q.state = .paused then .playing else q.state := by
        rw [← hrstate]
        exact congrArg Bearing.state (bearing_defer r f)
      have hfollow : followStep (q, .ends (.finished f)) = (r.defer f).unlock .done := by
        rw [hr]
        rfl
      have hstate : ((r.defer f).unlock .done).1.state = (r.defer f).state := rfl
      rw [hfollow]
      refine ⟨fun hx => .inr (hended ?_), fun _ _ _ => ⟨fun hunder => ?_, fun hroused => ?_⟩⟩
      · rw [hstate, hdeferred] at hx
        split at hx
        · cases hx
        · exact hx
      · rw [hstate, hdeferred]
        split
        · rfl
        · exact hlasts.underway hunder
      · cases hroused.symm.trans (hdefers f rfl)

/-- A playback hands on what becomes of its line. -/
lemma stateFollows_followPlay (hy : LineStateFollows p phase y) :
    StateFollows id p phase (followPlay id play y) := by
  have hlasts := hy.lasts
  obtain ⟨q, progress⟩ := y
  cases progress with
  | blocked => exact absurd rfl hy.ready
  | goes line => exact hy.stateFollows_goes rfl
  | ends by_ =>
    have hended := hy.of_ends
    cases by_ with
    | next => exact stateFollows_of_between between_afterLine hlasts hended
    | finished f => exact stateFollows_of_ended (ended_finish _ f) hended

/-! ### The start of a playback -/

/-- A playback comes to its lines, or it ends.  It does not come to them if one is under way
already. -/
lemma state_startLines (p : Player) (id : Nat) (token : Token) (run : Run) (name : String) :
    ((p.startLines id token run name).1.state = .waiting → p.state = .waiting) ∧
      ((∀ r, (p.startLines id token run name).2 ≠ .ends (.report r)) →
        p.state.isUnderway = false) := by
  have hended : ∀ {q : Player} {f : Finish} {x : Player × Progress}, q.state = p.state →
      Ended q f x → (x.1.state = .waiting → p.state = .waiting) ∧
        ((∀ r, x.2 ≠ .ends (.report r)) → p.state.isUnderway = false) := by
    intro q f x hq hx
    obtain ⟨r, hr, -⟩ := hx.report
    exact ⟨fun h => hq.symm.trans (hx.waiting h), fun hends => absurd hr (hends r)⟩
  obtain ⟨r, hr⟩ : ∃ r, r = (p.publish run (.scriptStarted name)).setCheckpoint := ⟨_, rfl⟩
  have hrstate : r.state = p.state := by
    have hbearing : r.bearing = p.bearing := by
      rw [hr, bearing_setCheckpoint, bearing_publish _ _ rfl]
    exact congrArg Bearing.state hbearing
  unfold startLines
  split
  · exact hended rfl (ended_finish p _)
  · dsimp only
    rw [← hr]
    by_cases hloading : r.state = .loading
    · rw [moveFrom_eq _ _ hloading rfl, if_pos rfl]
      obtain ⟨e, he⟩ : ∃ e, e = r.commit run (r.cell.commit .playing) := ⟨_, rfl⟩
      have hestate : e.state = .playing := by
        rw [he]
        exact congrArg Bearing.state (bearing_commit r run)
      rw [← he]
      have hbetween : Between id token e (e.continuePlay id { token, savedAt := e.stopwatch }) :=
        (between_continuePlay : Between id { token, savedAt := e.stopwatch : Play }.token _ _)
      refine ⟨fun hx => ?_, fun _ => ?_⟩
      · generalize e.continuePlay id { token, savedAt := e.stopwatch } = x at hbetween hx
        cases hbetween with
        | @goes d _ _ _ hbearing =>
          have hstate : d.state = e.state := congrArg Bearing.state hbearing
          cases hestate.symm.trans (hstate.symm.trans hx)
        | ends hends => cases hestate.symm.trans (hends.waiting hx)
      · rw [← hrstate, hloading]
        rfl
    · rw [moveFrom_eq_of_ne _ _ hloading, if_neg Bool.false_ne_true]
      exact hended hrstate (ended_finish r _)

/-- A playback that gets ready has no command in flight. -/
lemma state_beginPlay {script : Script} {start : Start} {bound : Bool}
    (h : (p.beginPlay id script start bound).1.state = .waiting) : p.state = .waiting := by
  obtain ⟨now, hgist⟩ := gist_prepare (p := p) script bound
  obtain ⟨q, hq⟩ : ∃ q, q = (p.prepare script bound).2 := ⟨_, rfl⟩
  rw [← hq] at hgist
  have hqstate : q.state = .loading := congrArg Gist.state hgist
  unfold beginPlay at h
  split at h
  · exact h
  · dsimp only at h
    rw [← hq] at h
    exfalso
    split at h
    · rw [moveFrom_eq q q.run hqstate rfl] at h
      have hended := (ended_finish _ _).waiting h
      cases hended
    · split at h
      · split at h
        · have hended := (ended_finish _ _).waiting h
          exact State.noConfusion (hqstate.symm.trans hended)
        · exact State.noConfusion (hqstate.symm.trans h)
      · have hstarted := (state_startLines _ _ _ _ _).1 h
        exact State.noConfusion (hqstate.symm.trans hstarted)

lemma state_stop (h : p.stop.state = .waiting) : p.state = .waiting := by
  unfold stop at h
  split at h
  · rw [cancelRun_eq] at h
    exact state_moveIfAllowed (p := { p with stopRequested := true }) State.noConfusion h
  · exact h

/-! ### All steps -/

/-- Where the playback is stopped, nothing has to last. -/
lemma stateFollows_of_stops (hstops : phase.stops = true) (hline : phase.line? = none)
    (hwaiting : x.1.state = .waiting → p.state = .waiting) : StateFollows id p phase x := by
  refine ⟨fun h => .inr ⟨hwaiting h, fun l hl => ?_⟩, fun hnot => ?_⟩
  · rw [hline] at hl
    cases hl
  · cases hnot.symm.trans hstops

/-- Where the gate is passed, nothing has to last. -/
lemma stateFollows_of_enters (henters : Enters id p phase) (hline : phase.line? = none)
    (hwaiting : x.1.state = .waiting → p.state = .waiting) : StateFollows id p phase x := by
  refine ⟨fun h => .inr ⟨hwaiting h, fun l hl => ?_⟩, fun _ hnot => absurd henters hnot⟩
  rw [hline] at hl
  cases hl

lemma stateFollows_requestPlay {script : Script} {start : Start} {bound : Bool}
    (hstops : phase.stops = true) (hline : phase.line? = none) :
    StateFollows id p phase (p.requestPlay id script start bound) := by
  unfold requestPlay
  split
  · exact stateFollows_of_state hline rfl
  · split
    · exact stateFollows_of_state hline rfl
    · exact stateFollows_of_stops hstops hline state_stop

lemma stateFollows_accept {request : Request} :
    StateFollows id p (.entering request) (p.accept id request) := by
  cases request with
  | play script start bound => exact stateFollows_requestPlay rfl rfl
  | playNamed name =>
    simp only [accept]
    split <;> exact stateFollows_of_state rfl rfl
  | reset => exact stateFollows_of_stops rfl rfl state_stop
  | shutDown =>
    refine stateFollows_of_stops rfl rfl fun h => ?_
    exact state_stop (p := { p with isShutDown := true }) h
  | stepForward | stepBackward =>
    simp only [accept]
    split <;> exact stateFollows_of_state rfl rfl
  | skipToLine index => exact stateFollows_of_state rfl rfl
  | skipToLabel label =>
    simp only [accept, requestLabel]
    split
    · exact stateFollows_of_state rfl rfl
    · split <;> exact stateFollows_of_state rfl rfl
  | save =>
    simp only [accept, requestSave]
    split <;> exact stateFollows_of_state rfl rfl
  | loadSnapshot key =>
    simp only [accept, requestSnapshot]
    split <;> exact stateFollows_of_state rfl rfl
  | loadState key =>
    simp only [accept]
    split
    · exact stateFollows_of_state rfl rfl
    · unfold requestSnapshot
      split <;> exact stateFollows_of_state rfl rfl

/-- A single step that has the line lock. -/
lemma stateFollows_beginStep (hheld : p.lineLock.isHeldBy id = true) :
    StateFollows id p .stepLock p.beginStep := by
  unfold beginStep
  split
  · exact stateFollows_of_state rfl rfl
  · exact stateFollows_of_state rfl rfl
  · next token hrefusal htoken =>
    refine stateFollows_followStep (lineStateFollows_beginLine rfl) fun f hf => ?_
    have hexec : p.execution? id .stepLock =
        some ({ p with context := { p.context with stepMode := true } }.beginLine token) := by
      simp only [execution?]
      rw [if_pos ⟨hheld, hrefusal⟩, htoken]
      rfl
    unfold defers
    rw [hexec]
    generalize { p with context := { p.context with stepMode := true } }.beginLine token = y at hf ⊢
    obtain ⟨q, progress⟩ := y
    cases hf
    rfl

/-- A playback that has the line lock. -/
lemma stateFollows_playLine : StateFollows id p (.playLock play) (p.playLine id play) := by
  have hunlined : p.state = .waiting →
      p.state = .waiting ∧ ∀ line, (Phase.playLock play).line? = some line → line.entered = false :=
    fun hp => ⟨hp, fun _ hl => (nomatch hl)⟩
  have hengages := p.engages_playLine id play
  generalize p.playLine id play = x at hengages ⊢
  cases hengages with
  | yields =>
    exact stateFollows_of_between (q := { p with lineLock := p.lineLock.release })
      between_continuePlay
      (.refl _ _) hunlined
  | pauses _ hstate _ hq hr =>
    obtain ⟨e, he, hbearing⟩ := paused_of_hit id play hstate hq hr
    have hpaused : e.state = .paused := congrArg Bearing.state hbearing
    rw [he]
    refine ⟨fun h => ?_, fun _ _ _ => ⟨fun _ => ?_, fun _ _ => hpaused⟩⟩
    · cases hpaused.symm.trans h
    · exact congrArg State.isUnderway hpaused
  | begins => exact stateFollows_followPlay (lineStateFollows_beginLine rfl)

lemma stateFollows_fetchSnapshot {key : String} {restoring : Bool} (hline : phase.line? = none) :
    StateFollows id p phase (p.fetchSnapshot id key restoring) := by
  unfold fetchSnapshot
  split
  · exact stateFollows_of_state hline rfl
  · split <;> exact stateFollows_of_state hline rfl

lemma stateFollows_storeSnapshot {key : String} {s : Snapshot} (hline : phase.line? = none) :
    StateFollows id p phase (p.storeSnapshot key s) := by
  have hwritten : (p.write key s).2.state = p.state := by
    unfold write
    split <;> rfl
  unfold storeSnapshot
  split
  · next e q hwrite =>
    rw [hwrite] at hwritten
    exact stateFollows_of_state hline hwritten
  · next q hwrite =>
    rw [hwrite] at hwritten
    exact stateFollows_of_state hline hwritten

lemma stateFollows_restoreSnapshot {s : Snapshot} (hline : phase.line? = none) :
    StateFollows id p phase (p.restoreSnapshot s) := by
  unfold restoreSnapshot
  split
  · exact stateFollows_of_state hline rfl
  · split
    · exact stateFollows_of_state hline rfl
    · split <;> exact stateFollows_of_state hline rfl

lemma stateFollows_skip {index : Nat} (hline : phase.line? = none) :
    StateFollows id p phase (p.skip index) := by
  unfold skip
  split
  · exact stateFollows_of_state hline rfl
  · split <;> exact stateFollows_of_state hline rfl

/-! ### Steps of requests -/

lemma stateFollows_of_step_between {token : Token} (hline : phase.line? = none)
    (hready : (p.step id phase).2 ≠ .blocked)
    (hcases : p.step id phase = (p, .blocked) ∨ Between id token p (p.step id phase)) :
    StateFollows id p phase (p.step id phase) := by
  have h : Between id token p (p.step id phase) :=
    hcases.resolve_left fun hblocked => hready (congrArg Prod.snd hblocked)
  refine stateFollows_of_between h (.refl _ _) fun hp => ⟨hp, fun l hl => ?_⟩
  rw [hline] at hl
  cases hl

lemma stateFollows_loading {name : String} :
    StateFollows id p (.loading name) (p.step id (.loading name)) := by
  simp only [step, loadAndPlay]
  split
  · exact stateFollows_of_state rfl rfl
  · split
    · exact stateFollows_of_state rfl rfl
    · exact stateFollows_requestPlay rfl rfl

lemma stateFollows_playGate {script : Script} {start : Start} {bound : Bool}
    (hready : (p.step id (.playGate script start bound)).2 ≠ .blocked) :
    StateFollows id p (.playGate script start bound)
    (p.step id (.playGate script start bound)) := by
  simp only [step] at hready ⊢
  have hheld := holds_of_ready hready
  rw [if_pos hheld]
  exact stateFollows_of_enters hheld rfl state_beginPlay

lemma stateFollows_preloading {token : Token} {run : Run} {name : String} {until_ : Nat}
    (hready : (p.step id (.preloading token run name until_)).2 ≠ .blocked) :
    StateFollows id p (.preloading token run name until_)
      (p.step id (.preloading token run name until_)) := by
  simp only [step] at hready ⊢
  rw [if_pos (holds_of_ready hready)]
  obtain ⟨hwaiting, hidle⟩ := p.state_startLines id token run name
  refine ⟨fun h => .inr ⟨hwaiting h, fun _ hl => ?_⟩, fun _ _ hends => .of_idle (hidle hends)⟩
  cases hl

lemma stateFollows_paused {play : Play} (hready : (p.step id (.paused play)).2 ≠ .blocked) :
    StateFollows id p (.paused play) (p.step id (.paused play)) :=
  stateFollows_of_step_between rfl hready between_step_paused

lemma stateFollows_playLock {play : Play} (hready : (p.step id (.playLock play)).2 ≠ .blocked) :
    StateFollows id p (.playLock play) (p.step id (.playLock play)) := by
  simp only [step] at hready ⊢
  rw [if_pos (holds_of_ready hready)]
  exact stateFollows_playLine

lemma stateFollows_playing {play : Play} {line : LinePhase}
    (hready : (p.step id (.playing play line)).2 ≠ .blocked) :
    StateFollows id p (.playing play line) (p.step id (.playing play line)) := by
  simp only [step] at hready ⊢
  refine stateFollows_followPlay (lineStateFollows_stepLine rfl fun hblocked => hready ?_)
  generalize p.stepLine line = y at hblocked
  obtain ⟨q, progress⟩ := y
  cases hblocked
  rfl

lemma stateFollows_delaying {play : Play} {until_ : Nat}
    (hready : (p.step id (.delaying play until_)).2 ≠ .blocked) :
    StateFollows id p (.delaying play until_) (p.step id (.delaying play until_)) :=
  stateFollows_of_step_between rfl hready between_step_delaying

lemma stateFollows_resetGate (hready : (p.step id .resetGate).2 ≠ .blocked) :
    StateFollows id p .resetGate (p.step id .resetGate) := by
  simp only [step] at hready ⊢
  have hheld := holds_of_ready hready
  rw [if_pos hheld]
  refine stateFollows_of_enters hheld rfl fun h => ?_
  have hidle : p.resetAll.1.state = .idle := congrArg Gist.state (gist_resetState p p.run)
  cases hidle.symm.trans h

lemma stateFollows_closeGate (hready : (p.step id .closeGate).2 ≠ .blocked) :
    StateFollows id p .closeGate (p.step id .closeGate) := by
  simp only [step] at hready ⊢
  rw [if_pos (holds_of_ready hready)]
  exact stateFollows_of_state rfl rfl

lemma stateFollows_stepLock (hready : (p.step id .stepLock).2 ≠ .blocked) :
    StateFollows id p .stepLock (p.step id .stepLock) := by
  simp only [step] at hready ⊢
  have hheld := holds_of_ready hready
  rw [if_pos hheld]
  exact stateFollows_beginStep hheld

lemma stateFollows_stepping {line : LinePhase}
    (hready : (p.step id (.stepping line)).2 ≠ .blocked) :
    StateFollows id p (.stepping line) (p.step id (.stepping line)) := by
  have hstep : (p.stepLine line).2 ≠ .blocked := fun hblocked => by
    simp only [step] at hready
    generalize p.stepLine line = y at hblocked hready
    obtain ⟨q, progress⟩ := y
    cases hblocked
    exact hready rfl
  refine stateFollows_followStep (lineStateFollows_stepLine rfl hstep) fun f hf => ?_
  simp only [defers, execution?]
  generalize p.stepLine line = y at hf
  obtain ⟨q, progress⟩ := y
  cases hf
  rfl

lemma stateFollows_backLock (hready : (p.step id .backLock).2 ≠ .blocked) :
    StateFollows id p .backLock (p.step id .backLock) := by
  simp only [step] at hready ⊢
  rw [if_pos (holds_of_ready hready)]
  exact stateFollows_of_state rfl rfl

lemma stateFollows_skipLock {index : Nat} (hready : (p.step id (.skipLock index)).2 ≠ .blocked) :
    StateFollows id p (.skipLock index) (p.step id (.skipLock index)) := by
  simp only [step] at hready ⊢
  rw [if_pos (holds_of_ready hready)]
  exact stateFollows_skip rfl

lemma stateFollows_restoreLock {s : Snapshot} (hready : (p.step id (.restoreLock s)).2 ≠ .blocked) :
    StateFollows id p (.restoreLock s) (p.step id (.restoreLock s)) := by
  simp only [step] at hready ⊢
  rw [if_pos (holds_of_ready hready)]
  exact stateFollows_restoreSnapshot rfl

/-- What the step of a request does to the state. -/
lemma stateFollows_step (id : Nat) (phase : Phase) (p : Player)
    (hready : (p.step id phase).2 ≠ .blocked) :
    StateFollows id p phase (p.step id phase) := by
  cases phase with
  | entering request => exact stateFollows_accept
  | loading => exact stateFollows_loading
  | playGate => exact stateFollows_playGate hready
  | preloading => exact stateFollows_preloading hready
  | paused => exact stateFollows_paused hready
  | playLock => exact stateFollows_playLock hready
  | playing => exact stateFollows_playing hready
  | delaying => exact stateFollows_delaying hready
  | autosaving play s =>
    exact stateFollows_of_step_between rfl hready (.inr between_step_autosaving)
  | resetGate => exact stateFollows_resetGate hready
  | closeGate => exact stateFollows_closeGate hready
  | stepLock => exact stateFollows_stepLock hready
  | stepping => exact stateFollows_stepping hready
  | backLock => exact stateFollows_backLock hready
  | skipLock => exact stateFollows_skipLock hready
  | storing key s => exact stateFollows_storeSnapshot rfl
  | fetching key restoring => exact stateFollows_fetchSnapshot rfl
  | restoreLock => exact stateFollows_restoreLock hready

end Player

end Recital

import Recital.Proofs.Player.RequestChanges
import Recital.Proofs.Player.Lapse
import Recital.Proofs.Session.OpenBus

/-!
# Playbacks that go on after faults

A player that is told to go on after faults never ends a playback with one.  The only playbacks that
fail are those whose script is refused before its first line.  This rests on the ends that lines
come to (`Player.Outlasts`) and on the end that a single step leaves to the playback, which is no
fault either (`Player.TellsNoFault`).

Whether the next step of a request is a lapse can be said before the step is made (`Player.lapse?`).
Steps without a lapse tell of no failed line, and those with one tell of it once.
-/

namespace Recital

/-- The events that tell of failed lines. -/
def Bus.failures (b : Bus) : List Event := b.log.toList.filter (·.payload.isFailure)

namespace Bus

variable {b : Bus} {news : List Event}

lemma failures_tell : (b.tell news).failures =
    if b.closed then b.failures else b.failures ++ news.filter (·.payload.isFailure) := by
  unfold failures
  cases hclosed : b.closed with
  | true => rw [tell_of_closed hclosed, if_pos rfl]
  | false => rw [log_tell hclosed, List.filter_append, if_neg Bool.false_ne_true]

/-- Other events leave the failures alone. -/
lemma failures_tell_of_not (h : ∀ e ∈ news, e.payload.isFailure = false) :
    (b.tell news).failures = b.failures := by
  have hnone : news.filter (·.payload.isFailure) = [] :=
    List.filter_eq_nil_iff.mpr fun e he => by simp [h e he]
  rw [failures_tell, hnone, List.append_nil, ite_self]

end Bus

/-- A fault about which nothing can be done. -/
structure Lapse where
  /-- The line of the fault. -/
  index : Nat
  fault : Fault
  /-- Where the playback stands when the fault arises. -/
  context : Context

namespace Player

variable {p q r : Player} {id : Nat} {play : Play} {phase : Phase} {f : Finish}
  {x : Player × Progress} {y : Player × LineProgress} {token : Token} {w : Work} {c : Context}
  {o : Option Fault}

/-! ### The lapse of a request -/

/-- The lapse of a line that is begun where the cursor has settled. -/
def settledLapse? (p : Player) (token : Token) (c : Context) : Option Lapse :=
  ({ p with context := c }.lapseAtOnce? token).map fun fault => ⟨c.cursor, fault, c⟩

/-- The lapse of a request in its next step. -/
def lapse? (p : Player) (id : Nat) : Phase → Option Lapse
  | .playing _ line | .stepping line =>
    (p.lineLapse? line).map fun fault => ⟨line.work.index, fault, p.context⟩
  | .playLock play =>
    if (p.execution? id (.playLock play)).isSome then
      p.settledLapse? play.token p.context.takeBreakpoint.2.settleCursor
    else none
  | .stepLock =>
    if (p.execution? id .stepLock).isSome then
      p.token.bind fun token =>
        p.settledLapse? token { p.context with stepMode := true }.settleCursor
    else none
  | _ => none

/-- A request that executes a line has the lapse of the line. -/
lemma outlasts_execution (hexec : p.execution? id phase = some y) (hready : y.2 ≠ .blocked)
    (hgoes : p.tolerance.continueOnError = true) :
    ∃ w c o, Outlasts w c p o y ∧ p.lapse? id phase = o.map fun fault => ⟨w.index, fault, c⟩ := by
  have hline : ∀ line : LinePhase, y = p.stepLine line →
      p.lapse? id phase = (p.lineLapse? line).map
      (fun fault => ⟨line.work.index, fault, p.context⟩) →
        ∃ w c o, Outlasts w c p o y ∧
          p.lapse? id phase = o.map fun fault => ⟨w.index, fault, c⟩ := by
    intro line hy hlapse
    rw [hy] at hready
    refine ⟨line.work, p.context, p.lineLapse? line, ?_, hlapse⟩
    rw [hy]
    exact outlasts_stepLine hgoes hready
  have hbegin : ∀ (context : Context) (token : Token),
      y = { p with context }.beginLine token →
      p.lapse? id phase = p.settledLapse? token context.settleCursor →
        ∃ w c o, Outlasts w c p o y ∧
          p.lapse? id phase = o.map fun fault => ⟨w.index, fault, c⟩ := by
    intro context token hy hlapse
    obtain ⟨w, hw, houtlasts⟩ : ∃ w : Work, w.index = context.settleCursor.cursor ∧
        Outlasts w context.settleCursor { p with context }
          ({ p with context := context.settleCursor }.lapseAtOnce? token)
          ({ p with context }.beginLine token) :=
      outlasts_beginLine (p := { p with context }) hgoes rfl
    refine ⟨w, context.settleCursor, { p with context := context.settleCursor }.lapseAtOnce? token,
      ?_, ?_⟩
    · rw [hy]
      exact houtlasts.after (.of_eq rfl rfl rfl)
    · rw [hlapse, hw]
      rfl
  cases phase with
  | playing play line =>
    cases hexec
    exact hline line rfl rfl
  | stepping line =>
    cases hexec
    exact hline line rfl rfl
  | playLock play =>
    have hsome : (p.execution? id (.playLock play)).isSome = true := by rw [hexec]; rfl
    have hlapse : p.lapse? id (.playLock play) =
        p.settledLapse? play.token p.context.takeBreakpoint.2.settleCursor := if_pos hsome
    simp only [execution?] at hexec
    split at hexec
    · exact hbegin _ play.token (Option.some.inj hexec).symm hlapse
    · cases hexec
  | stepLock =>
    have hsome : (p.execution? id .stepLock).isSome = true := by rw [hexec]; rfl
    have hlapse : p.lapse? id .stepLock = p.token.bind fun token =>
        p.settledLapse? token { p.context with stepMode := true }.settleCursor := if_pos hsome
    simp only [execution?] at hexec
    split at hexec
    · obtain ⟨token, htoken, hy⟩ := Option.map_eq_some_iff.mp hexec
      rw [htoken] at hlapse
      exact hbegin _ token hy.symm hlapse
    · cases hexec
  | _ => cases hexec

/-! ### Steps that end no playback with a fault -/

/-- No playback is to end with a fault that a single step has met. -/
def Unfailing (p : Player) : Prop := ∀ fault index, p.deferred ≠ some (.failed fault index)

/-- No line is told to have failed, and no playback ends with a fault. -/
structure TellsNoFault (p : Player) (x : Player × Progress) : Prop where
  failures : x.1.bus.failures = p.bus.failures
  deferred : p.Unfailing → x.1.Unfailing
  report : p.Unfailing → ∀ r, x.2 = .ends (.report r) → r.outcome ≠ .failure

/-- What tells of no failed line and does not end a playback. -/
lemma tellsNoFault_of_discreet {progress : Progress} (h : TellsNoLapse p q)
    (hprogress : ∀ r, progress ≠ .ends (.report r)) : TellsNoFault p (q, progress) := by
  obtain ⟨news, hnews, hbus⟩ := h.news
  refine ⟨?_, fun hp => ?_, fun _ r hr => absurd hr (hprogress r)⟩
  · dsimp only
    rw [hbus, Bus.failures_tell_of_not hnews]
  · unfold Unfailing
    rw [h.deferred]
    exact hp

/-- Something else may come first. -/
lemma TellsNoFault.after (hx : TellsNoFault q x) (hpq : TellsNoLapse p q) : TellsNoFault p x := by
  have hfirst : TellsNoFault p (q, .blocked) :=
    tellsNoFault_of_discreet hpq fun _ h => Progress.noConfusion h
  exact ⟨hx.failures.trans hfirst.failures, fun hp => hx.deferred (hfirst.deferred hp),
    fun hp => hx.report (hfirst.deferred hp)⟩

lemma tellsNoFault_goes {next : Phase} (h : TellsNoLapse p q) : TellsNoFault p (q, .goes next) :=
  tellsNoFault_of_discreet h fun _ h => Progress.noConfusion h

lemma tellsNoFault_blocked : TellsNoFault p (p, .blocked) :=
  tellsNoFault_of_discreet (.refl p) fun _ h => Progress.noConfusion h

lemma tellsNoFault_refused {refusal : Refusal} : TellsNoFault p (p, .ends (.refused refusal)) :=
  tellsNoFault_of_discreet (.refl p) fun _ h => by cases h

lemma tellsNoFault_unlock {answer : Answer} (hanswer : ∀ r, answer ≠ .report r) :
    TellsNoFault p (p.unlock answer) :=
  tellsNoFault_of_discreet (.of_eq rfl rfl rfl) fun r h => hanswer r (Progress.ends.inj h)

/-- A playback that ends tells of no failed line, and leaves its context alone. -/
lemma finish_failures (p : Player) (f : Finish) :
    (p.finish f).1.bus.failures = p.bus.failures ∧ (p.finish f).1.deferred = p.deferred ∧
      (p.finish f).1.context = p.context := by
  obtain ⟨r, hfinished⟩ := finished_finish p f
  obtain ⟨news, at_, hnews, hbus⟩ := hfinished.news
  have hcore := core_finish (p := p) (f := f)
  refine ⟨?_, (congrArg Player.deferred hcore).trans rfl, (congrArg Player.context hcore).trans rfl⟩
  rw [hbus]
  refine Bus.failures_tell_of_not fun e he => ?_
  rcases List.mem_append.mp he with he | he
  · exact Event.Payload.not_isFailure_of_isPlain (hnews e he).1
  · rw [List.mem_singleton.mp he]
    unfold Report.news
    split <;> rfl

/-- A playback ends with a fault only if the fault is its end. -/
lemma tellsNoFault_finish (hf : ∀ fault index, f = .failed fault index → p.deferred = some f) :
    TellsNoFault p (p.finish f) := by
  obtain ⟨hfailures, hdeferred, -⟩ := p.finish_failures f
  refine ⟨hfailures, fun hp => ?_, fun hp r hr hfailure => ?_⟩
  · unfold Unfailing
    rw [hdeferred]
    exact hp
  · obtain ⟨r', hends, -, -, houtcome⟩ := p.finish_spec f
    cases hends.symm.trans hr
    rw [hfailure] at houtcome
    cases f with
    | failed fault index => exact hp fault index (hf fault index rfl)
    | completed | stopped | halted => cases houtcome
    | cancelled =>
      simp only [conclude] at houtcome
      split at houtcome <;> cases houtcome

lemma tellsNoFault_cancelled : TellsNoFault p (p.finish .cancelled) :=
  tellsNoFault_finish fun _ _ h => by cases h

/-- Between two lines a playback stays where it stands. -/
lemma tellsNoFault_playOn :
    TellsNoFault p (p.playOn id play) ∧ (p.playOn id play).1.context = p.context := by
  unfold playOn
  split
  · next f hf =>
    obtain ⟨q, hq⟩ : ∃ q, q = { p with deferred := none } := ⟨_, rfl⟩
    have hcontext : (q.finish f).1.context = p.context :=
      (q.finish_failures f).2.2.trans (hq ▸ rfl)
    rw [← hq]
    refine ⟨⟨?_, fun _ fault index => ?_, fun hp r hr hfailure => ?_⟩, hcontext⟩
    · rw [(q.finish_failures f).1, hq]
    · rw [(q.finish_failures f).2.1, hq]
      exact (Option.some_ne_none _).symm
    · obtain ⟨r', hends, -, -, houtcome⟩ := q.finish_spec f
      cases hends.symm.trans hr
      rw [hfailure] at houtcome
      cases f with
      | failed fault index => exact hp fault index hf
      | completed | stopped | halted => cases houtcome
      | cancelled =>
        simp only [conclude] at houtcome
        split at houtcome <;> cases houtcome
  · have hcancelled : TellsNoFault p (p.finish .cancelled) ∧
        (p.finish .cancelled).1.context = p.context :=
      ⟨tellsNoFault_cancelled, (p.finish_failures .cancelled).2.2⟩
    split
    · exact hcancelled
    · split
      · exact ⟨tellsNoFault_goes (.of_eq rfl rfl rfl), rfl⟩
      · exact ⟨tellsNoFault_goes (.of_eq rfl rfl rfl), rfl⟩
      · exact ⟨tellsNoFault_goes (.refl p), rfl⟩
      · exact ⟨tellsNoFault_finish (fun _ _ h => by cases h), (p.finish_failures .completed).2.2⟩
      · exact hcancelled

lemma tellsNoFault_continuePlay :
    TellsNoFault p (p.continuePlay id play) ∧ (p.continuePlay id play).1.context = p.context := by
  unfold continuePlay
  split
  · exact ⟨tellsNoFault_goes (.refl p), rfl⟩
  · exact tellsNoFault_playOn

lemma tellsNoFault_autosave :
    TellsNoFault p (p.autosave id play) ∧ (p.autosave id play).1.context = p.context := by
  unfold autosave
  split
  · exact ⟨tellsNoFault_goes (.of_eq rfl rfl rfl), rfl⟩
  · exact tellsNoFault_continuePlay

/-- After a line that has not ended the playback with a fault. -/
lemma tellsNoFault_afterLine {by_ : LineEnd}
    (hby : ∀ fault index, by_ ≠ .finished (.failed fault index)) :
    TellsNoFault p (p.afterLine id play by_) ∧ (p.afterLine id play by_).1.context = p.context := by
  obtain ⟨q, hq⟩ : ∃ q, q = { p with lineLock := p.lineLock.release } := ⟨_, rfl⟩
  have hreleased : TellsNoLapse p q := hq ▸ .of_eq rfl rfl rfl
  have hcontext : q.context = p.context := hq ▸ rfl
  unfold afterLine
  dsimp only
  rw [← hq, ← hcontext]
  cases by_ with
  | finished f =>
    refine ⟨(tellsNoFault_finish fun fault index h => ?_).after hreleased,
      (q.finish_failures f).2.2⟩
    rw [h] at hby
    exact absurd rfl (hby fault index)
  | next =>
    dsimp only
    split
    · obtain ⟨hupright, hsame⟩ :
          TellsNoFault q (q.autosave id play) ∧ (q.autosave id play).1.context = q.context :=
        tellsNoFault_autosave
      exact ⟨hupright.after hreleased, hsame⟩
    · exact ⟨tellsNoFault_goes hreleased, rfl⟩

/-- A playback that has the line lock and does not execute a line. -/
lemma tellsNoFault_playLine (h : p.execution? id (.playLock play) = none)
    (hheld : p.lineLock.isHeldBy id = true) : TellsNoFault p (p.playLine id play) := by
  have hreleases : ∀ q : Player,
      TellsNoFault q ({ q with lineLock := q.lineLock.release }.continuePlay id play) := fun q =>
    tellsNoFault_continuePlay.1.after (.of_eq rfl rfl rfl)
  have hengages := p.engages_playLine id play
  generalize p.playLine id play = x at hengages ⊢
  cases hengages with
  | yields => exact hreleases p
  | @pauses q r index context _ _ _ hq hr =>
    have hput : TellsNoLapse p { p with context } := .of_eq rfl rfl rfl
    have hhit : TellsNoLapse p q :=
      hput.trans (hq ▸ tellsNoLapse_publish (e := .breakpointHit index) rfl)
    have hpaused : TellsNoLapse q r := hr ▸ tellsNoLapse_moveFrom fun _ => rfl
    exact (hreleases r).after (hhit.trans hpaused)
  | begins hdeferred hstate htaken =>
    cases h.symm.trans (execution?_playLock hheld hdeferred hstate htaken)

/-! ### The start of a playback -/

lemma tellsNoLapse_setCheckpoint : TellsNoLapse p p.setCheckpoint := by
  unfold setCheckpoint
  split <;> exact .of_eq rfl rfl rfl

/-- A change of state tells of no failed line. -/
lemma tellsNoLapse_commit {run : Run} {target : State} :
    TellsNoLapse p (p.commit run (p.cell.commit target)) :=
  ⟨⟨[⟨.stateChanged p.state target, Instant.ofMillis p.now, run⟩],
    by simp [Event.Payload.isFailure], rfl⟩, rfl, rfl⟩

lemma tellsNoLapse_move {run : Run} {a b : State} : TellsNoLapse p (p.moveFrom run a b).2 := by
  rw [moveFrom_eq_ite]
  split
  · exact tellsNoLapse_commit
  · exact .refl p

lemma tellsNoLapse_resetState {run : Run} : TellsNoLapse p (p.resetState run) := by
  rw [resetState_eq_ite]
  split
  · exact .refl p
  · exact tellsNoLapse_commit

lemma tellsNoFault_startLines {run : Run} {script : String} :
    TellsNoFault p (p.startLines id token run script) := by
  have htold : TellsNoLapse p (p.publish run (.scriptStarted script)).setCheckpoint :=
    (tellsNoLapse_publish (e := .scriptStarted script) rfl).trans tellsNoLapse_setCheckpoint
  unfold startLines
  split
  · exact tellsNoFault_cancelled
  · have hmoved : TellsNoLapse p
        (((p.publish run (.scriptStarted script)).setCheckpoint).moveFrom run .loading
          .playing).2 :=
      htold.trans tellsNoLapse_move
    dsimp only
    split
    · exact tellsNoFault_continuePlay.1.after hmoved
    · exact tellsNoFault_cancelled.after hmoved

/-- A playback gets ready, and forgets the end that was left for the last one. -/
lemma prepare_failures (p : Player) (script : Script) (bound : Bool) :
    (p.prepare script bound).2.bus.failures = p.bus.failures ∧
      (p.prepare script bound).2.deferred = none ∧
      (p.prepare script bound).2.host = p.host := by
  obtain ⟨q, hq⟩ : ∃ q, q = { p with
      token := some ⟨p.serial, bound⟩, run := .numbered p.serial
      serial := p.serial + 1 }.clearLeftovers := ⟨_, rfl⟩
  obtain ⟨r, hr⟩ : ∃ r, r =
      ((q.resetState (.numbered p.serial)).moveFrom (.numbered p.serial) .idle .loading).2 :=
    ⟨_, rfl⟩
  have hready : TellsNoLapse q r := by
    rw [hr]
    exact tellsNoLapse_resetState.trans tellsNoLapse_move
  have hprepare : (p.prepare script bound).2 =
      { r with context := r.context.resetFor script r.stopwatch, attempts := {} } := by
    rw [hr, hq]
    rfl
  obtain ⟨news, hnews, hbus⟩ := hready.news
  rw [hprepare]
  refine ⟨?_, hready.deferred.trans (hq ▸ rfl), hready.host.trans (hq ▸ rfl)⟩
  dsimp only
  rw [hbus, Bus.failures_tell_of_not hnews, hq]
  rfl

/-- A playback that has the gate ends with a fault only if its script is refused. -/
lemma tellsNoFault_beginPlay (p : Player) (id : Nat) (script : Script) (start : Start)
    (bound : Bool) :
    (p.beginPlay id script start bound).1.bus.failures = p.bus.failures ∧
      (p.Unfailing → (p.beginPlay id script start bound).1.Unfailing) ∧
      ∀ r, (p.beginPlay id script start bound).2 = .ends (.report r) → r.outcome = .failure →
        p.host.Refuses script := by
  obtain ⟨q, hq⟩ : ∃ q, q = (p.prepare script bound).2 := ⟨_, rfl⟩
  obtain ⟨token, htoken⟩ : ∃ token, token = (p.prepare script bound).1 := ⟨_, rfl⟩
  obtain ⟨hfailures, hnone, hhost⟩ := p.prepare_failures script bound
  rw [← hq] at hfailures hnone hhost
  have hunfailing : q.Unfailing := fun fault index => by
    rw [hnone]
    exact (Option.some_ne_none _).symm
  have hall : ∀ x, TellsNoFault q x → x.1.bus.failures = p.bus.failures ∧
    (p.Unfailing → x.1.Unfailing) ∧
      ∀ r, x.2 = .ends (.report r) → r.outcome = .failure → p.host.Refuses script := fun x hx =>
    ⟨hx.failures.trans hfailures, fun _ => hx.deferred hunfailing,
      fun r hr hfailure => absurd hfailure (hx.report hunfailing r hr)⟩
  unfold beginPlay
  split
  · exact ⟨rfl, fun h => h, fun _ h => by cases h⟩
  · dsimp only
    rw [← hq, ← htoken]
    split
    · next fault hfault =>
      have hmoved : TellsNoLapse q (q.moveFrom q.run .loading .failed).2 := tellsNoLapse_move
      obtain ⟨hfinished, hdeferred, -⟩ := finish_failures (q.moveFrom q.run .loading .failed).2
        (.failed fault (fault.lineIndex.getD 0))
      obtain ⟨news, hnews, hbus⟩ := hmoved.news
      refine ⟨?_, fun _ fault index => ?_, fun _ _ _ => ?_⟩
      · rw [hfinished, hbus, Bus.failures_tell_of_not hnews]
        exact hfailures
      · rw [hdeferred, hmoved.deferred]
        exact hunfailing fault index
      · split at hfault
        · next hrefuse =>
          have hstrict : p.tolerance.refuseDefects = true := by
            unfold tolerance at hrefuse ⊢
            rwa [hhost] at hrefuse
          exact ⟨hstrict, by rw [hfault]; exact Option.some_ne_none _⟩
        · cases hfault
    · have hput : ∀ context trace, TellsNoLapse q { q with context, trace } := fun _ _ =>
        .of_eq rfl rfl rfl
      split
      · split
        · exact hall _ (tellsNoFault_cancelled.after (hput _ _))
        · exact hall _ (tellsNoFault_goes (hput _ _))
      · exact hall _ (tellsNoFault_startLines.after (hput _ _))

/-! ### Other requests -/

lemma tellsNoLapse_moveIfAllowed {run : Run} {b : State} :
    TellsNoLapse p (p.moveIfAllowed run b) := by
  rw [moveIfAllowed_eq_ite]
  split
  · exact tellsNoLapse_commit
  · exact .refl p

lemma tellsNoLapse_stop : TellsNoLapse p p.stop := by
  unfold stop
  split
  · have hasked : TellsNoLapse p { p with stopRequested := true } := .of_eq rfl rfl rfl
    rw [cancelRun_eq]
    exact (hasked.trans tellsNoLapse_moveIfAllowed).trans (.of_eq rfl rfl rfl)
  · exact .refl p

/-- A request stops the playback in progress and asks for the gate. -/
lemma tellsNoFault_requestGate {next : Phase} (hpq : TellsNoLapse p q) :
    TellsNoFault p ({ q.stop with gate := q.stop.gate.request id }, .goes next) := by
  have hgate : TellsNoLapse q.stop { q.stop with gate := q.stop.gate.request id } :=
    .of_eq rfl rfl rfl
  exact tellsNoFault_goes ((hpq.trans tellsNoLapse_stop).trans hgate)

lemma tellsNoFault_requestPlay {script : Script} {start : Start} {bound : Bool} :
    TellsNoFault p (p.requestPlay id script start bound) := by
  unfold requestPlay
  split
  · exact tellsNoFault_refused
  · split
    · exact tellsNoFault_refused
    · exact tellsNoFault_requestGate (.refl p)

lemma tellsNoFault_requestLine {next : Phase} : TellsNoFault p (p.requestLine id next) :=
  tellsNoFault_goes (.of_eq rfl rfl rfl)

lemma tellsNoFault_requestSnapshot {key : String} {restoring : Bool} :
    TellsNoFault p (p.requestSnapshot key restoring) := by
  unfold requestSnapshot
  split
  · exact tellsNoFault_refused
  · exact tellsNoFault_goes (.refl p)

lemma tellsNoFault_accept {request : Request} : TellsNoFault p (p.accept id request) := by
  cases request with
  | play => exact tellsNoFault_requestPlay
  | playNamed =>
    simp only [accept]
    split
    · exact tellsNoFault_refused
    · exact tellsNoFault_goes (.refl p)
  | reset => exact tellsNoFault_requestGate (.refl p)
  | shutDown =>
    exact tellsNoFault_requestGate (q := { p with isShutDown := true }) (.of_eq rfl rfl rfl)
  | stepForward | stepBackward =>
    simp only [accept]
    split
    · exact tellsNoFault_refused
    · exact tellsNoFault_requestLine
  | skipToLine => exact tellsNoFault_requestLine
  | skipToLabel =>
    simp only [accept, requestLabel]
    split
    · exact tellsNoFault_refused
    · split
      · exact tellsNoFault_refused
      · exact tellsNoFault_requestLine
  | save =>
    simp only [accept, requestSave]
    split
    · exact tellsNoFault_refused
    · exact tellsNoFault_refused
    · exact tellsNoFault_goes (.of_eq rfl rfl rfl)
  | loadSnapshot => exact tellsNoFault_requestSnapshot
  | loadState =>
    simp only [accept]
    split
    · exact tellsNoFault_refused
    · exact tellsNoFault_requestSnapshot

lemma tellsNoLapse_write {key : String} {s : Snapshot} : TellsNoLapse p (p.write key s).2 := by
  unfold write
  split <;> exact .of_eq rfl rfl rfl

lemma tellsNoFault_storeSnapshot {key : String} {s : Snapshot} :
    TellsNoFault p (p.storeSnapshot key s) := by
  have hwritten : TellsNoLapse p (p.write key s).2 := tellsNoLapse_write
  unfold storeSnapshot
  generalize p.write key s = written at hwritten ⊢
  obtain ⟨result, q⟩ := written
  cases result with
  | error e => exact tellsNoFault_of_discreet hwritten fun _ h => by cases h
  | ok =>
    have hkept : TellsNoLapse q { q with recovery := q.recovery.setCheckpoint s } :=
      .of_eq rfl rfl rfl
    exact tellsNoFault_of_discreet (hwritten.trans hkept) fun _ h => by cases h

/-- The cursor or more of the context is moved, which is told by the progress. -/
lemma tellsNoFault_progress {q : Player} {answer : Answer} (hpq : TellsNoLapse p q)
    (hanswer : ∀ r, answer ≠ .report r) : TellsNoFault p (q.publishProgress.unlock answer) :=
  (tellsNoFault_unlock hanswer).after
    (hpq.trans (tellsNoLapse_publish (e := .progressChanged q.context.progress) rfl))

lemma tellsNoFault_skip {index : Nat} : TellsNoFault p (p.skip index) := by
  unfold skip
  split
  · exact tellsNoFault_unlock fun _ h => Answer.noConfusion h
  · split
    · exact tellsNoFault_unlock fun _ h => Answer.noConfusion h
    · exact tellsNoFault_progress (.of_eq rfl rfl rfl) fun _ h => Answer.noConfusion h

lemma tellsNoFault_restoreSnapshot {s : Snapshot} : TellsNoFault p (p.restoreSnapshot s) := by
  unfold restoreSnapshot
  split
  · exact tellsNoFault_unlock fun _ h => Answer.noConfusion h
  · split
    · exact tellsNoFault_unlock fun _ h => Answer.noConfusion h
    · split
      · exact tellsNoFault_unlock fun _ h => Answer.noConfusion h
      · exact tellsNoFault_progress (.of_eq rfl rfl rfl) fun _ h => Answer.noConfusion h

lemma tellsNoFault_resetAll (p : Player) : p.resetAll.1.bus.failures = p.bus.failures ∧
    p.resetAll.1.deferred = none := by
  have hreset : TellsNoLapse p (p.resetState p.run) := tellsNoLapse_resetState
  obtain ⟨news, hnews, hbus⟩ := hreset.news
  have hfailures : (p.resetState p.run).bus.failures = p.bus.failures := by
    rw [hbus, Bus.failures_tell_of_not hnews]
  exact ⟨hfailures, rfl⟩

/-! ### Steps that execute no line -/

lemma tellsNoFault_loading {name : String} : TellsNoFault p (p.step id (.loading name)) := by
  simp only [step, loadAndPlay]
  split
  · exact tellsNoFault_refused
  · split
    · exact tellsNoFault_refused
    · exact tellsNoFault_requestPlay

lemma tellsNoFault_preloading {token : Token} {run : Run} {script : String} {until_ : Nat} :
    TellsNoFault p (p.step id (.preloading token run script until_)) := by
  simp only [step]
  split
  · exact tellsNoFault_startLines
  · exact tellsNoFault_blocked

lemma tellsNoFault_paused {play : Play} : TellsNoFault p (p.step id (.paused play)) := by
  simp only [step]
  split
  · exact tellsNoFault_cancelled
  · split
    · exact tellsNoFault_blocked
    · exact tellsNoFault_playOn.1

lemma tellsNoFault_playLock {play : Play} (hexec : p.execution? id (.playLock play) = none) :
    TellsNoFault p (p.step id (.playLock play)) := by
  simp only [step]
  split
  · next hheld => exact tellsNoFault_playLine hexec hheld
  · exact tellsNoFault_blocked

lemma tellsNoFault_delaying {play : Play} {until_ : Nat} :
    TellsNoFault p (p.step id (.delaying play until_)) := by
  simp only [step]
  split
  · exact tellsNoFault_cancelled
  · split
    · exact tellsNoFault_autosave.1
    · exact tellsNoFault_blocked

lemma tellsNoFault_autosaving {play : Play} {s : Snapshot} :
    TellsNoFault p (p.step id (.autosaving play s)) := by
  have hmeasured : ∀ q : Player, TellsNoLapse q q.measureMemory := fun q => by
    obtain ⟨hbus, -, -⟩ := q.measureMemory_spec
    have hcore := congrArg Gist.core (gist_measureMemory q)
    exact .of_eq hbus ((congrArg Player.host hcore).trans rfl)
      ((congrArg Player.deferred hcore).trans rfl)
  simp only [step]
  refine tellsNoFault_continuePlay.1.after (TellsNoLapse.trans ?_ (hmeasured _))
  split
  · exact .refl p
  · exact tellsNoLapse_write

lemma tellsNoFault_resetGate : TellsNoFault p (p.step id .resetGate) := by
  by_cases hheld : p.gate.isHeldBy id = true
  · have hstep : p.step id .resetGate = p.resetAll := if_pos hheld
    obtain ⟨hfailures, hdeferred⟩ := p.tellsNoFault_resetAll
    rw [hstep]
    refine ⟨hfailures, fun _ fault index => ?_, fun _ r hr => by cases hr⟩
    rw [hdeferred]
    exact (Option.some_ne_none _).symm
  · have hstep : p.step id .resetGate = (p, .blocked) := if_neg hheld
    rw [hstep]
    exact tellsNoFault_blocked

lemma tellsNoFault_closeGate : TellsNoFault p (p.step id .closeGate) := by
  simp only [step]
  split
  · exact ⟨rfl, fun h => h, fun _ r hr => by cases hr⟩
  · exact ⟨rfl, fun h => h, fun _ r hr => by cases hr⟩

lemma tellsNoFault_stepLock (hexec : p.execution? id .stepLock = none) :
    TellsNoFault p (p.step id .stepLock) := by
  simp only [step]
  split
  · next hheld =>
    unfold beginStep
    split
    · exact tellsNoFault_unlock fun _ h => Answer.noConfusion h
    · exact tellsNoFault_unlock fun _ h => Answer.noConfusion h
    · next token hrefusal htoken =>
      simp only [execution?] at hexec
      rw [if_pos ⟨hheld, hrefusal⟩, htoken] at hexec
      cases hexec
  · exact tellsNoFault_blocked

lemma tellsNoFault_backLock : TellsNoFault p (p.step id .backLock) := by
  simp only [step]
  split
  · exact tellsNoFault_progress (.of_eq rfl rfl rfl) fun _ h => Answer.noConfusion h
  · exact tellsNoFault_blocked

lemma tellsNoFault_skipLock {index : Nat} : TellsNoFault p (p.step id (.skipLock index)) := by
  simp only [step]
  split
  · exact tellsNoFault_skip
  · exact tellsNoFault_blocked

lemma tellsNoFault_fetching {key : String} {restoring : Bool} :
    TellsNoFault p (p.step id (.fetching key restoring)) := by
  simp only [step, fetchSnapshot]
  split
  · exact tellsNoFault_refused
  · split
    · exact tellsNoFault_requestLine
    · exact tellsNoFault_of_discreet (.refl p) fun _ h => by cases h

lemma tellsNoFault_restoreLock {s : Snapshot} : TellsNoFault p (p.step id (.restoreLock s)) := by
  simp only [step]
  split
  · exact tellsNoFault_restoreSnapshot
  · exact tellsNoFault_blocked

/-- A step that executes no line tells of no failed line, and ends a playback with a fault only if
its script is refused. -/
lemma tellsNoFault_step (hexec : p.execution? id phase = none) :
    (p.step id phase).1.bus.failures = p.bus.failures ∧
      (p.Unfailing → (p.step id phase).1.Unfailing) ∧
      (p.Unfailing → ∀ r, (p.step id phase).2 = .ends (.report r) → r.outcome = .failure →
        ∃ script start bound, phase = .playGate script start bound ∧ p.host.Refuses script) := by
  have hall : TellsNoFault p (p.step id phase) →
      (p.step id phase).1.bus.failures = p.bus.failures ∧
      (p.Unfailing → (p.step id phase).1.Unfailing) ∧
      (p.Unfailing → ∀ r, (p.step id phase).2 = .ends (.report r) → r.outcome = .failure →
        ∃ script start bound, phase = .playGate script start bound ∧ p.host.Refuses script) :=
    fun hx => ⟨hx.failures, hx.deferred, fun hp r hr hfailure =>
      absurd hfailure (hx.report hp r hr)⟩
  cases phase with
  | entering request => exact hall tellsNoFault_accept
  | loading => exact hall tellsNoFault_loading
  | playGate script start bound =>
    by_cases hheld : p.gate.isHeldBy id = true
    · have hstep : p.step id (.playGate script start bound) = p.beginPlay id script start bound :=
        if_pos hheld
      obtain ⟨hfailures, hdeferred, hreport⟩ := p.tellsNoFault_beginPlay id script start bound
      rw [hstep]
      exact ⟨hfailures, hdeferred, fun _ r hr hfailure =>
        ⟨script, start, bound, rfl, hreport r hr hfailure⟩⟩
    · have hstep : p.step id (.playGate script start bound) = (p, .blocked) := if_neg hheld
      refine hall ?_
      rw [hstep]
      exact tellsNoFault_blocked
  | preloading => exact hall tellsNoFault_preloading
  | paused => exact hall tellsNoFault_paused
  | playLock => exact hall (tellsNoFault_playLock hexec)
  | delaying => exact hall tellsNoFault_delaying
  | autosaving => exact hall tellsNoFault_autosaving
  | resetGate => exact hall tellsNoFault_resetGate
  | closeGate => exact hall tellsNoFault_closeGate
  | stepLock => exact hall (tellsNoFault_stepLock hexec)
  | backLock => exact hall tellsNoFault_backLock
  | skipLock => exact hall tellsNoFault_skipLock
  | storing key s => exact hall tellsNoFault_storeSnapshot
  | fetching => exact hall tellsNoFault_fetching
  | restoreLock => exact hall tellsNoFault_restoreLock
  | playing | stepping => cases hexec

/-! ### Steps that execute a line -/

/-- A single step may leave another end to the playback than a fault. -/
lemma tellsNoFault_defer (hf : ∀ fault index, f ≠ .failed fault index) :
    TellsNoFault p ((p.defer f).unlock .done) ∧ (p.defer f).context = p.context := by
  obtain ⟨q, hq⟩ : ∃ q, q = { p with deferred := some f } := ⟨_, rfl⟩
  have hleft : q.Unfailing := fun fault index h => by
    rw [hq] at h
    exact hf fault index (Option.some.inj h)
  have hmoved : TellsNoFault q ((p.defer f).unlock .done) := by
    rw [hq]
    exact (tellsNoFault_unlock fun _ h => Answer.noConfusion h).after tellsNoLapse_move
  refine ⟨⟨?_, fun _ => hmoved.deferred hleft, fun _ r h => by cases h⟩, ?_⟩
  · rw [hmoved.failures, hq]
  · exact context_moveFrom (p := { p with deferred := some f })

/-- A request hands on what becomes of its line.  The playback stays where the line has led it. -/
lemma tellsNoFault_handOn (hexec : p.execution? id phase = some y) (hready : y.2 ≠ .blocked)
    (hends : ∀ fault index, y.2 ≠ .ends (.finished (.failed fault index))) :
    TellsNoFault y.1 (p.step id phase) ∧ (p.step id phase).1.context.trunk = y.1.context.trunk ∧
      (p.step id phase).1.context.cursor = y.1.context.cursor := by
  obtain ⟨q, progress⟩ := y
  rcases step_of_execution hexec with ⟨-, hstep⟩ | ⟨-, play, -, hstep⟩
  · rw [hstep]
    cases progress with
    | blocked => exact absurd rfl hready
    | goes line => exact ⟨tellsNoFault_goes (.refl q), rfl, rfl⟩
    | ends by_ =>
      obtain ⟨r, hr⟩ : ∃ r, r = { q with context := { q.context with stepMode := false } } :=
        ⟨_, rfl⟩
      have hleft : TellsNoLapse q r := hr ▸ .of_eq rfl rfl rfl
      have hsame : r.context.trunk = q.context.trunk ∧ r.context.cursor = q.context.cursor := by
        rw [hr]
        exact ⟨rfl, rfl⟩
      unfold followStep
      dsimp only
      rw [← hr]
      cases by_ with
      | next => exact ⟨(tellsNoFault_unlock fun _ h => Answer.noConfusion h).after hleft, hsame⟩
      | finished f =>
        obtain ⟨hupright, hcontext⟩ := tellsNoFault_defer (p := r) (f := f)
          fun fault index h => hends fault index (h ▸ rfl)
        exact ⟨hupright.after hleft, (congrArg Context.trunk hcontext).trans hsame.1,
          (congrArg Context.cursor hcontext).trans hsame.2⟩
  · rw [hstep]
    cases progress with
    | blocked => exact absurd rfl hready
    | goes line => exact ⟨tellsNoFault_goes (.refl q), rfl, rfl⟩
    | ends by_ =>
      obtain ⟨hupright, hcontext⟩ :
          TellsNoFault q (q.afterLine id play by_) ∧
            (q.afterLine id play by_).1.context = q.context :=
        tellsNoFault_afterLine fun fault index h => hends fault index (h ▸ rfl)
      exact ⟨hupright, congrArg Context.trunk hcontext, congrArg Context.cursor hcontext⟩

/-- Without a line there is no lapse. -/
lemma lapse?_eq_none (hexec : p.execution? id phase = none) : p.lapse? id phase = none := by
  cases phase with
  | playing | stepping => cases hexec
  | playLock play => exact if_neg (by rw [hexec]; exact Bool.false_ne_true)
  | stepLock => exact if_neg (by rw [hexec]; exact Bool.false_ne_true)
  | _ => rfl

/-- The lapse was told by one event, if anybody could be told.  What the playback has to stand on is
as it was when the fault arose, and the cursor is on the next line. -/
structure Recovers (lapse : Lapse) (p q : Player) : Prop where
  told : ∃ event, event.payload = .lineFailed lapse.index lapse.fault ∧
    q.bus.failures = if p.bus.closed then p.bus.failures else p.bus.failures ++ [event]
  trunk : q.context.trunk = lapse.context.trunk
  cursor : q.context.cursor = lapse.index + 1

lemma PassesOver.failures {fault : Fault} (h : PassesOver w c fault p q) :
    ∃ event, event.payload = .lineFailed w.index fault ∧
      q.bus.failures = if p.bus.closed then p.bus.failures else p.bus.failures ++ [event] := by
  obtain ⟨before, after, at_, hrest, hbus⟩ := h.news
  refine ⟨⟨.lineFailed w.index fault, at_, w.run⟩, rfl, ?_⟩
  have hnone : ∀ news ⊆ before ++ after, news.filter (·.payload.isFailure) = [] :=
    fun news hsub => List.filter_eq_nil_iff.mpr fun e he => by simp [hrest e (hsub he)]
  rw [hbus, Bus.failures_tell, List.filter_append, hnone before (List.subset_append_left _ _),
    List.filter_cons_of_pos rfl, hnone after (List.subset_append_right _ _)]
  rfl

/-- A step of a player that is to go on after faults. -/
lemma perseveres_step (hgoes : p.tolerance.continueOnError = true) (hp : p.Unfailing)
    (hready : (p.step id phase).2 ≠ .blocked) :
    (p.step id phase).1.Unfailing ∧
      (∀ r, (p.step id phase).2 = .ends (.report r) → r.outcome = .failure →
        ∃ script start bound, phase = .playGate script start bound ∧ p.host.Refuses script) ∧
      (p.lapse? id phase = none → (p.step id phase).1.bus.failures = p.bus.failures) ∧
      ∀ lapse, p.lapse? id phase = some lapse →
        (p.execution? id phase).map Prod.snd = some (.ends .next) ∧
          Recovers lapse p (p.step id phase).1 := by
  cases hexec : p.execution? id phase with
  | none =>
    obtain ⟨hfailures, hdeferred, hreport⟩ := tellsNoFault_step hexec
    refine ⟨hdeferred hp, hreport hp, fun _ => hfailures, fun lapse hlapse => ?_⟩
    rw [lapse?_eq_none hexec] at hlapse
    cases hlapse
  | some y =>
    have hgoing : y.2 ≠ .blocked := by
      intro hblocked
      obtain ⟨q, progress⟩ := y
      cases hblocked
      rcases step_of_execution hexec with ⟨-, hstep⟩ | ⟨-, play, -, hstep⟩ <;>
        exact hready (by rw [hstep]; rfl)
    obtain ⟨w, c, o, houtlasts, hlapse⟩ := outlasts_execution hexec hgoing hgoes
    cases houtlasts with
    | fares hy hends =>
      obtain ⟨hupright, -⟩ := tellsNoFault_handOn hexec hgoing hends
      have hall := hupright.after hy
      refine ⟨hall.deferred hp, fun r hr hfailure => absurd hfailure (hall.report hp r hr),
        fun _ => hall.failures, fun lapse h => ?_⟩
      cases hlapse.symm.trans h
    | lapses hpassed =>
      obtain ⟨hupright, htrunk, hcursor⟩ := tellsNoFault_handOn hexec hgoing
        fun _ _ h => LineEnd.noConfusion (LineProgress.ends.inj h)
      have hq : Unfailing _ := fun fault index h => hp fault index (hpassed.deferred ▸ h)
      refine ⟨hupright.deferred hq, fun r hr hfailure => absurd hfailure (hupright.report hq r hr),
        fun h => ?_, fun lapse h => ?_⟩
      · cases hlapse.symm.trans h
      · obtain rfl := Option.some.inj (hlapse.symm.trans h)
        obtain ⟨event, hevent, htold⟩ := hpassed.failures
        exact ⟨rfl, ⟨event, hevent, hupright.failures.trans htold⟩, htrunk.trans hpassed.trunk,
          hcursor.trans hpassed.cursor⟩

end Player

namespace Session

variable {s s' : Session} {a : Action} {id : Nat}

/-- Whatever is done to a player that is to go on after faults, no playback is to end with one. -/
lemma Does.unfailing (hdoes : s.Does a s')
    (hgoes : s.player.host.config.tolerance.continueOnError = true) (h : s.player.Unfailing) :
    s'.player.Unfailing := by
  cases a with
  | submit | wait =>
    cases hdoes
    exact h
  | call c =>
    cases hdoes
    intro fault index
    rw [Player.spared_perform.deferred]
    exact h fault index
  | go id =>
    obtain ⟨t, x, -, hmoved⟩ := hdoes.moved
    have hready : (s.player.step t.id t.phase).2 ≠ .blocked := hmoved.step ▸ hmoved.ready
    rw [hmoved.player, ← hmoved.step]
    exact (Player.perseveres_step hgoes h hready).1

/-- Something is done, or what surrounds the player is no longer what it was: the presenter shows a
text after all, or a script that was there cannot be found any more.  Only the configuration
stays. -/
inductive Varies (s : Session) : Session → Prop
  | does {a : Action} {s' : Session} (h : s.Does a s') : Varies s s'
  | surrounds {host : Host} (hconfig : host.config = s.player.host.config) :
    Varies s { s with player := { s.player with host } }

/-- What a history of a player that is to go on after faults keeps, whatever surrounds the
player. -/
structure Perseveres (config : Config) (s : Session) : Prop where
  voiced : s.Voiced
  config : s.player.host.config = config
  unfailing : s.player.Unfailing

namespace Perseveres

variable {config : Config}

lemma created {host : Host} {bus : Bus} {store : Option Store} (hopen : bus.closed = false) :
    Perseveres host.config { player := .create host bus store } :=
  ⟨.created hopen, rfl, fun _ _ => (Option.some_ne_none _).symm⟩

lemma varies (h : s.Perseveres config) (hgoes : config.tolerance.continueOnError = true)
    (hvaries : s.Varies s') : s'.Perseveres config := by
  cases hvaries with
  | does hdoes =>
    refine ⟨h.voiced.does hdoes, ?_, hdoes.unfailing (h.config.symm ▸ hgoes) h.unfailing⟩
    rw [hdoes.lastingChanges_any.host, h.config]
  | @surrounds host hconfig =>
    obtain ⟨hdistinct, hgate, hline, hnumbered⟩ := h.voiced.attentive
    -- Neither the locks nor the bus nor the end that was left know of the host.
    have hattentive : Attentive { s with player := { s.player with host } } :=
      ⟨hdistinct, hgate.of_eq rfl, hline.of_eq rfl, hnumbered.token, hnumbered.cancelled⟩
    exact ⟨h.voiced.of_keepsBus ⟨rfl, fun h => h⟩ hattentive, hconfig.trans h.config, h.unfailing⟩

lemma reaches (h : s.Perseveres config) (hgoes : config.tolerance.continueOnError = true)
    (hs : Relation.ReflTransGen Varies s s') : s'.Perseveres config := by
  induction hs with
  | refl => exact h
  | tail _ hvaries ih => exact ih.varies hgoes hvaries

end Perseveres

/-- Without a change of what surrounds the player. -/
lemma Evolves.varies {allowed : Action → Prop} (hs : s.Evolves allowed s') :
    Relation.ReflTransGen Varies s s' := by
  induction hs with
  | refl => exact .refl
  | tail _ hmay ih =>
    obtain ⟨a, -, hdoes⟩ := hmay
    exact ih.tail (.does hdoes)

/-- A request has ended if its answer is among the last ones. -/
lemma Moved.ends_of_ended {t : Task} {x : Player × Progress} {answer : Answer} {now : Nat}
    (h : s.Moved s' t x) (hended : s'.ended = s.ended.push ⟨t.id, now, answer⟩) :
    x.2 = .ends answer := by
  have hlonger : s.ended ≠ s.ended.push ⟨t.id, now, answer⟩ := fun heq => by
    simpa using congrArg Array.size heq
  have hends := hended.symm.trans h.ended
  cases hprogress : x.2 with
  | blocked => exact absurd hprogress h.ready
  | goes phase =>
    rw [hprogress] at hends
    exact absurd hends.symm hlonger
  | ends answer' =>
    rw [hprogress] at hends
    exact congrArg Progress.ends (Ending.mk.inj (Array.push_eq_push.mp hends).1).2.2.symm

/-- Faults are passed over.  Make any requests to a new player that is to go on after faults, with
any calls, and let them go on in any order, while its presenter, its loader and all else that
surrounds it may become another at any moment.  A playback ends with a failure only in the step in
which its script is refused.  A step tells of a failed line only if it is a lapse: the line has a
fault about which nothing can be done.  A lapse ends its line, and the playback goes on with the
next one: the lapse is told by one event, the cursor is on the next line, and the script, its
labels, the return addresses, the variables and the breakpoints are as they were when the fault
arose.  During a playback there is somebody to be told.

What the commands of the host have changed at the start of an attempt (`Attempt.effects`) was there
before the fault arose, and it stays. -/
theorem faults_are_passed_over {host : Host} {bus : Bus} {store : Option Store} {s' : Session}
    (hgoes : host.config.tolerance.continueOnError = true) (hopen : bus.closed = false)
    (hs : Relation.ReflTransGen Varies { player := .create host bus store } s)
    (hdoes : s.Does (.go id) s') :
    ∃ t ∈ s.tasks, t.id = id ∧
      (∀ r, s'.ended = s.ended.push ⟨id, s'.player.now, .report r⟩ → r.outcome = .failure →
        ∃ script start bound, t.phase = .playGate script start bound ∧ host.Refuses script) ∧
      (t.phase.token?.isSome = true → s.player.bus.closed = false) ∧
      (s.player.lapse? id t.phase = none → s'.player.bus.failures = s.player.bus.failures) ∧
      ∀ lapse, s.player.lapse? id t.phase = some lapse →
        (s.player.execution? id t.phase).map Prod.snd = some (.ends .next) ∧
          Player.Recovers lapse s.player s'.player := by
  have hperseveres : s.Perseveres host.config := (Perseveres.created hopen).reaches hgoes hs
  have hconfig := hperseveres.config
  obtain ⟨t, x, rfl, hmoved⟩ := hdoes.moved
  have hready : (s.player.step t.id t.phase).2 ≠ .blocked := hmoved.step ▸ hmoved.ready
  obtain ⟨-, hreport, hquiet, hlapses⟩ := Player.perseveres_step
    (by rwa [Player.tolerance, hconfig]) hperseveres.unfailing hready
  rw [hmoved.step, ← hmoved.player] at hquiet hlapses
  refine ⟨t, hmoved.mem, rfl, fun r hended hfailure => ?_,
    hperseveres.voiced.playing t hmoved.mem, hquiet, hlapses⟩
  obtain ⟨script, start, bound, hphase, hstrict, hdefect⟩ :=
    hreport r (hmoved.step.symm ▸ hmoved.ends_of_ended hended) hfailure
  exact ⟨script, start, bound, hphase, hconfig ▸ hstrict, hdefect⟩

/-! ### An aubade -/

/-- Somebody is called who is not always there, and a line is left. -/
def aubade : Script := ⟨"aubade", [.command "@call guest" (some (.call "guest")), .text "two"]⟩

/-- What the guest would have to say. -/
def guest : Script := ⟨"guest", [.text "at last"]⟩

/-- Nothing is played yet, and faults are going to be passed over.  The guest is there. -/
def terrace : Session :=
  { player := .create
      { config := { tolerance := { continueOnError := true } }, loader := some fun _ => .ok guest }
      { capacity := 16 } none }

/-- The aubade is played, and the guest has left when he is about to be called. -/
def calling : Session :=
  let s := (((terrace.submit 0 (.play aubade .beginning false)).turn 0).turn 0).turn 0
  { s with player := { s.player with host := { s.player.host with loader := none } } }

/-- The guest is missed, once, and the aubade goes on with its second line to a good end. -/
theorem aubade_goes_on : terrace.player.host.config.tolerance.continueOnError = true ∧
    terrace.player.bus.closed = false ∧ Relation.ReflTransGen Varies terrace calling ∧
      (calling.turn 0).player.bus.failures.length = 1 ∧
      (calling.turn 0).player.context.cursor = 1 ∧
      ∃ r, (((calling.turn 0).turn 0).turn 0).answer? 0 = some (.report r) ∧
        r.outcome = .success := by
  have hsubmit : terrace.Evolves (fun _ => True)
      (terrace.submit 0 (.play aubade .beginning false)) :=
    .single ⟨.submit 0 _, trivial, .submit fun _ ht => absurd ht List.not_mem_nil⟩
  have hplayed := ((hsubmit.turn (fun _ => trivial) 0).turn (fun _ => trivial) 0).turn
    (fun _ => trivial) 0
  have hcalling : Relation.ReflTransGen Varies terrace calling :=
    hplayed.varies.tail (.surrounds rfl)
  obtain ⟨t, ht, hid, hready, lapse, hlapse, hindex⟩ : ∃ t, calling.tasks = [t] ∧ t.id = 0 ∧
      (calling.player.step t.id t.phase).2 ≠ .blocked ∧
      ∃ lapse, calling.player.lapse? 0 t.phase = some lapse ∧ lapse.index = 0 :=
    ⟨_, rfl, rfl, Progress.noConfusion, _, rfl, rfl⟩
  have hfirst : calling.tasks[0]? = some t := by rw [ht]; rfl
  have hdoes : calling.Does (.go t.id) (calling.turn 0) := does_turn hfirst hready
  rw [hid] at hdoes
  obtain ⟨u, hu, -, -, -, -, hlapses⟩ := faults_are_passed_over rfl rfl hcalling hdoes
  rw [ht, List.mem_singleton] at hu
  rw [hu] at hlapses
  obtain ⟨-, hrecovers⟩ := hlapses lapse hlapse
  obtain ⟨event, -, htold⟩ := hrecovers.told
  refine ⟨rfl, rfl, hcalling, ?_, ?_, _, rfl, rfl⟩
  · rw [htold]
    rfl
  · rw [hrecovers.cursor, hindex]

end Session

end Recital

import Recital.Proofs.Player.LineFrame
import Recital.Proofs.Player.Orderly

/-!
# How a playback ends

The end of a playback is a move to its last state, which is not made if it is not allowed, and the
outcome that is reported does not depend on it.  That both agree rests on what is known wherever a
playback comes to its end (`Player.Sane`): it is under way, or it was stopped and its token is
cancelled; and if the end that a single step has left for it is that the script was completed, then
it is under way and nothing is left to be executed.  `Fair` says what a step of the playback makes
of it, and `Decent` what a single step beside it does.
-/

namespace Recital

namespace Context

/-- A context that is spent stays where it is, past the last line. -/
lemma IsSpent.settleCursor {c : Context} (h : c.IsSpent) :
    c.settleCursor = c ∧ c.currentLine = none := by
  refine ⟨?_, ?_⟩
  · unfold Context.settleCursor
    rw [h.frames]
    rfl
  · unfold currentLine
    cases hscript : c.script with
    | none => rfl
    | some script =>
      have hcount : script.lines.length ≤ c.cursor := by
        have hle := h.cursor
        unfold lineCount at hle
        rw [hscript] at hle
        exact hle
      exact List.getElem?_eq_none hcount

end Context

/-- A phase of a request to execute a line. -/
def Phase.isStep : Phase → Bool
  | .entering .stepForward | .stepLock | .stepping _ => true
  | _ => false

namespace Player

variable {p q : Player} {id : Nat} {play : Play} {token : Token} {phase next : Phase} {f : Finish}
  {run : Run} {b : Bearing} {entered : Bool} {w : Work} {x : Player × Progress}
  {y : Player × LineProgress}

/-! ### The report and the state -/

/-- The outcome of a playback agrees with the state in which it was left. -/
structure Accords (p : Player) (r : Report) : Prop where
  success : r.outcome = .success ↔ p.state = .completed
  spent : r.outcome = .success → p.context.IsSpent
  failure : r.outcome = .failure → p.state = .stopped ∨ p.state = .failed
  stopped : r.outcome = .stopped ∨ r.outcome = .cancelled → p.state = .stopped

/-- A playback that has ended is not active. -/
lemma Accords.isActive {r : Report} (h : Accords p r) : p.state.isActive = false := by
  cases hr : r.outcome with
  | success =>
    rw [h.success.mp hr]
    rfl
  | failure =>
    rcases h.failure hr with hs | hs <;> rw [hs] <;> rfl
  | stopped =>
    rw [h.stopped (.inl hr)]
    rfl
  | cancelled =>
    rw [h.stopped (.inr hr)]
    rfl

lemma state_moveFrom_eq {a b : State} :
    (p.moveFrom run a b).2.state = if p.state = a ∧ a.allows b = true then b else p.state := by
  have hbearing := congrArg Bearing.state (p.bearing_moveFrom run (a := a) (b := b))
  rw [apply_ite Bearing.state] at hbearing
  exact hbearing

lemma state_moveIfAllowed_eq {b : State} :
    (p.moveIfAllowed run b).state = if p.state.allows b = true then b else p.state := by
  rw [moveIfAllowed_eq_ite]
  split <;> rfl

/-- The end of a playback leaves it where it stands, in the last state that it could enter. -/
lemma finish_spec (p : Player) (f : Finish) : ∃ r, (p.finish f).2 = .ends (.report r) ∧
    (p.finish f).1.state = (p.conclude f).1.state ∧ (p.finish f).1.context = p.context ∧
      r.outcome = (p.conclude f).2.1 := by
  obtain ⟨q, hq⟩ : ∃ q, q = (p.conclude f).1 := ⟨_, rfl⟩
  obtain ⟨r, hr⟩ : ∃ r, r = q.report (p.conclude f).2.1 (p.conclude f).2.2 := ⟨_, rfl⟩
  obtain ⟨e, he⟩ : ∃ e, e = (q.publishEnd r).measureMemory := ⟨_, rfl⟩
  have hgist : e.gist = q.gist := by
    rw [he, gist_measureMemory]
    unfold publishEnd
    split <;> exact gist_publish _ _ rfl
  have hfinish : p.finish f =
      ({ e with token := none, gate := e.gate.release }, .ends (.report r)) := by
    rw [he, hr, hq]
    rfl
  have hcontext : e.context = q.context := congrArg (fun g : Gist => g.core.context) hgist
  have hqcontext : q.context = p.context := by
    rw [hq]
    exact congrArg (fun g : Gist => g.core.context) (gist_conclude (p := p) (f := f))
  have hstate : e.state = q.state := congrArg Gist.state hgist
  rw [hfinish]
  refine ⟨r, rfl, ?_, hcontext.trans hqcontext, ?_⟩
  · rw [← hq]
    exact hstate
  · rw [hr]
    rfl

/-- What is in progress can be stopped. -/
lemma allows_stopped {s : State} (h : s.isActive = true) : s.allows .stopped = true := by
  cases s <;> first | rfl | cases h

/-- A playback that ends in another way than by completing its script is stopped, if it was not over
already. -/
lemma state_conclude_of_ne (hf : f ≠ .completed)
    (hstate : p.state.isActive = true ∨ p.state = .stopped) :
    (p.conclude f).1.state = .stopped := by
  have hmoved : (p.moveIfAllowed p.run .stopped).state = .stopped := by
    rw [state_moveIfAllowed_eq]
    rcases hstate with hactive | hstopped
    · exact if_pos (allows_stopped hactive)
    · rw [hstopped]
      rfl
  cases f with
  | completed => exact absurd rfl hf
  | stopped | failed | halted | cancelled => exact hmoved

lemma outcome_conclude_of_ne (hf : f ≠ .completed) : (p.conclude f).2.1 ≠ .success := by
  cases f with
  | completed => exact absurd rfl hf
  | stopped | failed | halted => exact Outcome.noConfusion
  | cancelled =>
    simp only [conclude]
    split <;> exact Outcome.noConfusion

lemma state_conclude_completed (hstate : p.state = .playing ∨ p.state = .paused) :
    (p.conclude .completed).1.state = .completed := by
  have hplaying : (p.moveFrom p.run .paused .playing).2.state = .playing := by
    rw [state_moveFrom_eq]
    rcases hstate with hs | hs
    · rw [if_neg (by rw [hs]; exact fun h => State.noConfusion h.1), hs]
    · rw [if_pos ⟨hs, rfl⟩]
  simp only [conclude]
  rw [state_moveIfAllowed_eq, hplaying]
  rfl

/-! ### Playbacks that come to a fair end -/

/-- A playback is under way or was stopped; an end that is left for it can be carried out. -/
structure Sane (token : Token) (p : Player) : Prop where
  state : p.state.isUnderway = true ∨ p.state = .stopped ∧ p.isCancelled token = true
  left : p.deferred = some .completed →
    (p.state = .playing ∨ p.state = .paused) ∧ p.context.IsSpent

/-- A step of a playback leaves it sane or ends it with a report that agrees with its state.  It is
completed by an end that was left for it, or with the line lock in hand. -/
structure Fair (id : Nat) (token : Token) (p : Player) (x : Player × Progress) : Prop where
  goes : ∀ next, x.2 = .goes next → Sane token x.1 ∧
    (x.1.deferred = some .completed → p.deferred = some .completed ∧ next.line? = none)
  ends : ∀ answer, x.2 = .ends answer → ∃ r, answer = .report r ∧ Accords x.1 r ∧
    x.1.state ≠ .failed ∧
    (r.outcome = .success → p.deferred = some .completed ∨ p.lineLock.isHeldBy id = true)
  /-- A playback that was stopped stays so. -/
  stays : p.state = .stopped → x.1.state = .stopped
  /-- A line is executed for the playback. -/
  work : ∀ next line, x.2 = .goes next → next.line? = some line → line.work.token = token

lemma isActive_of_isUnderway {s : State} (h : s.isUnderway = true) : s.isActive = true := by
  cases s <;> first | rfl | cases h

lemma Sane.active (h : Sane token p) : p.state.isActive = true ∨ p.state = .stopped :=
  h.state.imp isActive_of_isUnderway And.left

/-- Only what a playback and its end go by decides whether it is sane. -/
lemma Sane.of_eq (h : Sane token p) (hstate : q.state = p.state)
    (hcancelled : q.isCancelled token = p.isCancelled token) (hdeferred : q.deferred = p.deferred)
    (hcontext : q.context = p.context) : Sane token q := by
  refine ⟨?_, fun hq => ?_⟩
  · rw [hstate, hcancelled]
    exact h.state
  · rw [hstate, hcontext]
    exact h.left (hdeferred.symm.trans hq)

lemma Fair.of_eq (h : Fair id token q x) (hstate : p.state = q.state)
    (hdeferred : p.deferred = q.deferred)
    (hheld : q.lineLock.isHeldBy id = true → p.lineLock.isHeldBy id = true) :
    Fair id token p x := by
  refine ⟨fun next hnext => ?_, fun answer hanswer => ?_, fun hp => h.stays (hstate ▸ hp), h.work⟩
  · rw [hdeferred]
    exact h.goes next hnext
  · obtain ⟨r, heq, haccords, hfailed, hsuccess⟩ := h.ends answer hanswer
    refine ⟨r, heq, haccords, hfailed, fun hr => ?_⟩
    rw [hdeferred]
    exact (hsuccess hr).imp_right hheld

/-- A playback that goes on without a line. -/
lemma fair_goes (hq : Sane token q) (hstate : q.state = p.state)
    (hdeferred : q.deferred = p.deferred)
    (hline : next.line? = none) : Fair id token p (q, .goes next) where
  goes n hn := by
    cases hn
    exact ⟨hq, fun h => ⟨hdeferred.symm.trans h, hline⟩⟩
  ends _ h := Progress.noConfusion h
  stays h := hstate.trans h
  work n line hn hlined := by
    cases hn
    rw [hline] at hlined
    cases hlined

lemma fair_blocked : Fair id token p (p, .blocked) :=
  ⟨fun _ h => Progress.noConfusion h, fun _ h => Progress.noConfusion h, fun h => h,
    fun _ _ h => Progress.noConfusion h⟩

/-- A playback that comes to its end ends fairly if it can be completed whenever that is its end. -/
lemma fair_finish (hstate : q.state.isActive = true ∨ q.state = .stopped)
    (hstays : p.state = .stopped → q.state = .stopped)
    (hdone : f = .completed → (q.state = .playing ∨ q.state = .paused) ∧ q.context.IsSpent ∧
      (p.deferred = some .completed ∨ p.lineLock.isHeldBy id = true)) :
    Fair id token p (q.finish f) := by
  obtain ⟨r, hends, hlast, hcontext, houtcome⟩ := finish_spec q f
  have hwork : ∀ next line, (q.finish f).2 = .goes next → next.line? = some line →
      line.work.token = token := by
    intro next line h
    rw [hends] at h
    cases h
  by_cases hf : f = .completed
  · obtain ⟨hplaying, hspent, hcause⟩ := hdone hf
    have hcompleted : (q.finish f).1.state = .completed := by
      rw [hlast, hf]
      exact state_conclude_completed hplaying
    have hsuccess : r.outcome = .success := by rw [houtcome, hf]; rfl
    refine ⟨fun next h => ?_, fun answer hanswer => ⟨r, ?_, ?_, ?_, fun _ => hcause⟩, fun h => ?_,
      hwork⟩
    · rw [hends] at h
      cases h
    · rw [hends] at hanswer
      exact (Progress.ends.inj hanswer).symm
    · refine ⟨⟨fun _ => hcompleted, fun _ => hsuccess⟩, fun _ => hcontext ▸ hspent, fun h => ?_,
        fun h => ?_⟩
      · rw [hsuccess] at h
        cases h
      · rw [hsuccess] at h
        rcases h with h | h <;> cases h
    · rw [hcompleted]
      exact State.noConfusion
    · rw [hstays h] at hplaying
      rcases hplaying with h | h <;> cases h
  · have hstopped : (q.finish f).1.state = .stopped :=
      hlast.trans (state_conclude_of_ne hf hstate)
    have hnot : r.outcome ≠ .success := by
      rw [houtcome]
      exact outcome_conclude_of_ne hf
    refine ⟨fun next h => ?_, fun answer hanswer => ⟨r, ?_, ?_, ?_, fun h => absurd h hnot⟩,
      fun _ => hstopped, hwork⟩
    · rw [hends] at h
      cases h
    · rw [hends] at hanswer
      exact (Progress.ends.inj hanswer).symm
    · refine ⟨⟨fun h => absurd h hnot, fun h => ?_⟩, fun h => absurd h hnot, fun _ => .inl hstopped,
        fun _ => hstopped⟩
      rw [hstopped] at h
      cases h
    · rw [hstopped]
      exact State.noConfusion

/-! ### The loop -/

lemma fair_playOn (h : Sane play.token p) : Fair id play.token p (p.playOn id play) := by
  unfold playOn
  split
  · next f hf =>
    refine fair_finish h.active (fun h => h) fun hdone => ?_
    obtain ⟨hstate, hspent⟩ := h.left (hf.trans (congrArg some hdone))
    exact ⟨hstate, hspent, .inl (hf.trans (congrArg some hdone))⟩
  · split
    · exact fair_finish h.active (fun h => h) fun hdone => Finish.noConfusion hdone
    · split
      · exact fair_goes (h.of_eq rfl rfl rfl rfl) rfl rfl rfl
      · exact fair_goes (h.of_eq rfl rfl rfl rfl) rfl rfl rfl
      · exact fair_goes h rfl rfl rfl
      · next hstate =>
        rcases h.active with hactive | hstopped
        · rw [hstate] at hactive
          cases hactive
        · cases hstate.symm.trans hstopped
      · exact fair_finish h.active (fun h => h) fun hdone => Finish.noConfusion hdone

lemma fair_continuePlay (h : Sane play.token p) :
    Fair id play.token p (p.continuePlay id play) := by
  unfold continuePlay
  split
  · exact fair_goes h rfl rfl rfl
  · exact fair_playOn h

lemma fair_autosave (h : Sane play.token p) : Fair id play.token p (p.autosave id play) := by
  unfold autosave
  split
  · exact fair_goes (h.of_eq rfl rfl rfl rfl) rfl rfl rfl
  · exact fair_continuePlay h

/-- A playback that waits between two lines, but for the line lock. -/
lemma fair_between (h : Sane token p) (hphase : phase.isBetween = true)
    (htoken : phase.token? = some token) (hlock : ∀ play, phase ≠ .playLock play) :
    Fair id token p (p.step id phase) := by
  cases phase with
  | paused play =>
    cases htoken
    simp only [step]
    split
    · exact fair_finish h.active (fun h => h) fun hdone => Finish.noConfusion hdone
    · split
      · exact fair_blocked
      · exact fair_playOn h
  | delaying play until_ =>
    cases htoken
    simp only [step]
    split
    · exact fair_finish h.active (fun h => h) fun hdone => Finish.noConfusion hdone
    · split
      · exact fair_autosave h
      · exact fair_blocked
  | autosaving play s =>
    cases htoken
    have hmeasure : ∀ q : Player, q.bearing = p.bearing → q.context = p.context →
        Fair id play.token p (q.measureMemory.continuePlay id play) := by
      intro q hq hcontext
      have hbearing : q.measureMemory.bearing = p.bearing := (bearing_measureMemory q).trans hq
      have hsame : q.measureMemory.context = p.context :=
        (congrArg (fun g : Gist => g.core.context) (gist_measureMemory q)).trans hcontext
      have hstate : q.measureMemory.state = p.state := congrArg Bearing.state hbearing
      have hdeferred : q.measureMemory.deferred = p.deferred :=
        congrArg (fun b : Bearing => b.rest.deferred) hbearing
      have hcancelled : q.measureMemory.isCancelled play.token = p.isCancelled play.token :=
        congrArg (fun b : Bearing => b.rest.isCancelled play.token) hbearing
      have hlocks : q.measureMemory.lineLock = p.lineLock := congrArg Bearing.lock hbearing
      have hfair : Fair id play.token q.measureMemory (q.measureMemory.continuePlay id play) :=
        fair_continuePlay (h.of_eq hstate hcancelled hdeferred hsame)
      exact hfair.of_eq hstate.symm hdeferred.symm fun hheld => hlocks ▸ hheld
    simp only [step]
    split
    · exact hmeasure p rfl rfl
    · exact hmeasure _ (bearing_write p)
        (congrArg (fun g : Gist => g.core.context) (gist_write p))
  | playLock play => exact absurd rfl (hlock play)
  | _ => cases hphase

/-! ### Lines -/

/-- Where a line is taken up that a playback or a single step beside it executes. -/
structure Taken (token : Token) (p : Player) (b : Bearing) (entered : Bool) : Prop where
  rest : b.rest = p.backdrop
  /-- A stop is not undone by a line. -/
  stays : p.state = .stopped → b.state = .stopped
  state : b.state.isUnderway = true ∨ b.state = .stopped ∧ p.isCancelled token = true
  waiting : b.state = .waiting → entered = true
  /-- No end was left for the playback by a line that completed the script. -/
  deferred : p.deferred ≠ some .completed

/-- A line does not change the state of a playback that is not under way. -/
lemma Closed.state_of_idle (h : Closed b entered q) (hb : b.state.isUnderway = false) :
    q.state = b.state := by
  have hleft : (b.left entered).state = b.state := by
    unfold Bearing.left
    split
    · next hwaiting => rw [hwaiting.2] at hb; cases hb
    · rfl
  have hsettled : (b.left entered).settled.state = b.state := by
    unfold Bearing.settled
    split
    · dsimp only
      rw [hleft]
      split
      · next hplaying => rw [hplaying] at hb; cases hb
      · rfl
    · exact hleft
  rcases h with h | h
  · exact (congrArg Bearing.state h).trans hsettled
  · exact (congrArg Bearing.state h).trans hleft

lemma Closed.stopped (h : Closed b entered q) (hb : b.state = .stopped) : q.state = .stopped :=
  (h.state_of_idle (congrArg State.isUnderway hb)).trans hb

namespace Taken

variable (ht : Taken token p b entered)

include ht

/-- What other requests go by after a line. -/
lemma backdrop (hq : Closed b entered q) : q.backdrop = p.backdrop := hq.keeps.2.trans ht.rest

lemma closed_deferred (hq : Closed b entered q) : q.deferred = p.deferred :=
  (congrArg Player.deferred (ht.backdrop hq) : q.backdrop.deferred = p.backdrop.deferred)

lemma closed_state (hq : Closed b entered q) :
    q.state.isUnderway = true ∨ q.state = .stopped ∧ q.isCancelled token = true := by
  rcases ht.state with hunder | ⟨hstopped, hcancelled⟩
  · exact .inl (hq.isUnderway.trans hunder)
  · refine .inr ⟨hq.stopped hstopped, ?_⟩
    rw [← hcancelled]
    exact (congrArg (·.isCancelled token) (ht.backdrop hq) :
      q.backdrop.isCancelled token = p.backdrop.isCancelled token)

/-- A playback is sane after a line that does not end it. -/
lemma closed_sane (hq : Closed b entered q) : Sane token q :=
  ⟨ht.closed_state hq, fun h => absurd ((ht.closed_deferred hq).symm.trans h) ht.deferred⟩

/-- If it was not stopped, it is playing or paused. -/
lemma closed_playing (hq : Closed b entered q) (hb : b.state ≠ .stopped) :
    q.state = .playing ∨ q.state = .paused := by
  have hunder : q.state.isUnderway = true := by
    rcases ht.state with hunder | ⟨hstopped, -⟩
    · exact hq.isUnderway.trans hunder
    · exact absurd hstopped hb
  have hnot := hq.ne_waiting ht.waiting
  cases hs : q.state <;> rw [hs] at hunder hnot <;>
    first | exact .inl rfl | exact .inr rfl | exact absurd rfl hnot | cases hunder

/-- A line that goes on leaves the playback sane. -/
lemma sane_goes {phase : LinePhase}
    (hq : q.bearing = b ∧ phase.entered = entered ∨
      q.bearing = b.left entered ∧ phase.entered = false) :
    Sane token q ∧ q.deferred = p.deferred := by
  have hkept : q.backdrop = b.rest ∧ q.state.isUnderway = b.state.isUnderway ∧
      (b.state = .stopped → q.state = .stopped) := by
    rcases hq with ⟨hq, -⟩ | ⟨hq, -⟩
    · exact ⟨congrArg Bearing.rest hq, congrArg (fun b : Bearing => b.state.isUnderway) hq,
        fun h => (congrArg Bearing.state hq).trans h⟩
    · have hclosed : Closed b entered q := .inr hq
      exact ⟨hclosed.keeps.2, hclosed.isUnderway, hclosed.stopped⟩
  obtain ⟨hrest, hunderway, hstopped⟩ := hkept
  have hbackdrop : q.backdrop = p.backdrop := hrest.trans ht.rest
  have hdeferred : q.deferred = p.deferred :=
    (congrArg Player.deferred hbackdrop : q.backdrop.deferred = p.backdrop.deferred)
  refine ⟨⟨?_, fun h => absurd (hdeferred.symm.trans h) ht.deferred⟩, hdeferred⟩
  rcases ht.state with hunder | ⟨hs, hcancelled⟩
  · exact .inl (hunderway.trans hunder)
  · refine .inr ⟨hstopped hs, ?_⟩
    rw [← hcancelled]
    exact (congrArg (·.isCancelled token) hbackdrop :
      q.backdrop.isCancelled token = p.backdrop.isCancelled token)

end Taken

/-- A playback that was stopped stays so when its line goes on. -/
lemma Follows.stopped {line : LinePhase} (hy : Follows entered b (q, .goes line))
    (hb : b.state = .stopped) : q.state = .stopped := by
  rcases hy with ⟨hq, -⟩ | ⟨hq, -⟩
  · exact (congrArg Bearing.state hq).trans hb
  · exact Closed.stopped (.inr hq) hb

/-- What a playback makes of its line is fair. -/
lemma fair_followPlay {r : Player} (ht : Taken play.token p b entered) (hy : Follows entered b y)
    (hserves : Serves w r y) (hw : w.token = play.token) (hheld : p.lineLock.isHeldBy id = true)
    (hstopped : b.state = .stopped → y.2 ≠ .ends (.finished .completed)) :
    Fair id play.token p (followPlay id play y) := by
  obtain ⟨q, progress⟩ := y
  cases progress with
  | blocked => exact hy.elim
  | goes line =>
    obtain ⟨hsane, hdeferred⟩ := ht.sane_goes hy
    refine ⟨fun next hnext => ?_, fun _ h => Progress.noConfusion h, fun hp => ?_,
      fun next l hnext hl => ?_⟩
    · cases hnext
      exact ⟨hsane, fun h => absurd (hdeferred.symm.trans h) ht.deferred⟩
    · exact hy.stopped (ht.stays hp)
    · cases hnext
      cases hl
      rw [hserves.work line rfl]
      exact hw
  | ends by_ =>
    have hclosed : Closed b entered q := hy.imp_right And.left
    have hsane : Sane play.token { q with lineLock := q.lineLock.release } :=
      (ht.closed_sane hclosed).of_eq rfl rfl rfl rfl
    have hkept : p.state = .stopped → q.state = .stopped := fun hp => hclosed.stopped (ht.stays hp)
    cases by_ with
    | finished f =>
      refine fair_finish hsane.active hkept fun hdone => ?_
      have hb : b.state ≠ .stopped := fun h => hstopped h (by rw [hdone])
      have hplaying := ht.closed_playing hclosed hb
      have hspent : q.context.IsSpent := hserves.spent (by rw [hdone])
      exact ⟨hplaying, hspent.of_eq rfl rfl rfl, .inr hheld⟩
    | next =>
      have hfair : Fair id play.token { q with lineLock := q.lineLock.release }
          (q.afterLine id play .next) := by
        unfold afterLine
        dsimp only
        split
        · exact fair_autosave hsane
        · exact fair_goes hsane rfl rfl rfl
      refine ⟨fun next hnext => ?_, fun answer hanswer => ?_, fun hp => hfair.stays (hkept hp),
        hfair.work⟩
      · obtain ⟨hgoes, hleft⟩ := hfair.goes next hnext
        refine ⟨hgoes, fun h => ?_⟩
        rw [← ht.closed_deferred hclosed]
        exact hleft h
      · obtain ⟨r, heq, haccords, hfailed, -⟩ := hfair.ends answer hanswer
        exact ⟨r, heq, haccords, hfailed, fun _ => .inr hheld⟩

/-! ### Lines of a playback under way -/

/-- Where nothing is left to be executed, no line is begun. -/
lemma beginLine_of_isSpent (h : p.context.IsSpent) :
    p.beginLine token = (p, .ends (.finished .completed)) := by
  obtain ⟨hsettle, hnone⟩ := h.settleCursor
  unfold beginLine
  rw [hsettle]
  dsimp only
  rw [hnone]

/-- A line is begun for the token, or nothing is left to be executed. -/
lemma beginLine_cases (p : Player) (token : Token) :
    (∃ q, p.beginLine token = (q, .ends (.finished .completed)) ∧ q.bearing = p.bearing ∧
        q.context.IsSpent) ∨
      ¬ p.context.IsSpent ∧ ∃ w r index entered, w.token = token ∧
        Serves w r (p.beginLine token) ∧
          Follows entered (p.bearing.begins index entered) (p.beginLine token) := by
  by_cases hspent : p.context.IsSpent
  · exact .inl ⟨p, beginLine_of_isSpent hspent, rfl, hspent⟩
  · rcases serves_beginLine p token with ⟨heq, hdone⟩ | ⟨w, hw, -, hserves⟩
    · exact .inl ⟨_, heq, rfl, hdone⟩
    · rcases follows_beginLine p token with ⟨hbearing, hend⟩ | ⟨index, entered, -, hfollows⟩
      · exact .inl ⟨_, Prod.ext rfl hend, hbearing, hserves.spent hend⟩
      · exact .inr ⟨hspent, w, _, index, entered, hw, hserves, hfollows⟩

/-- A line is taken up where it is begun. -/
lemma taken_begins (token : Token) (index : Nat) (entered : Bool)
    (hstate : p.state = .playing ∨ p.state = .paused)
    (hdeferred : p.deferred ≠ some .completed) :
    Taken token p (p.bearing.begins index entered) entered ∧
      (p.bearing.begins index entered).state ≠ .stopped := by
  have hb : (p.bearing.begins index entered).state = if entered then .waiting else p.state := rfl
  have hunder : (p.bearing.begins index entered).state.isUnderway = true := by
    rw [hb]
    split
    · rfl
    · rcases hstate with h | h <;> rw [h] <;> rfl
  have hnot : (p.bearing.begins index entered).state ≠ .stopped := by
    intro h
    rw [h] at hunder
    cases hunder
  refine ⟨⟨rfl, fun hp => ?_, .inl hunder, fun hwaiting => ?_, hdeferred⟩, hnot⟩
  · rw [hp] at hstate
    rcases hstate with h | h <;> cases h
  · rw [hb] at hwaiting
    split at hwaiting
    · next h => exact h
    · rw [hwaiting] at hstate
      rcases hstate with h | h <;> cases h

/-- The line of a playback that was stopped does not complete it. -/
lemma Sane.line_ne_completed {line : LinePhase} (h : Sane token p) (hwork : line.work.token = token)
    (hstopped : p.state = .stopped) : (p.stepLine line).2 ≠ .ends (.finished .completed) := by
  refine stepLine_ne_completed ?_
  rcases h.state with hunder | ⟨-, hcancelled⟩
  · rw [hstopped] at hunder
    cases hunder
  · rw [hwork]
    exact hcancelled

/-- What is known about the line that a request executes. -/
structure InHand (id : Nat) (token : Token) (p : Player) (line : LinePhase) : Prop where
  work : line.work.token = token
  deferred : p.deferred ≠ some .completed
  held : p.lineLock.isHeldBy id = true
  entered : p.state = .waiting → line.entered = true

/-- A line is taken on where it stands. -/
lemma InHand.taken {line : LinePhase} (h : InHand id token p line) (hp : Sane token p) :
    Taken token p p.bearing line.entered :=
  ⟨rfl, fun hstopped => hstopped, hp.state, h.entered, h.deferred⟩

/-- A playback takes its line on. -/
lemma fair_playing {line : LinePhase} (h : Sane play.token p)
    (hline : InHand id play.token p line) :
    Fair id play.token p (followPlay id play (p.stepLine line)) := by
  rcases follows_stepLine p line with hblocked | hfollows
  · rw [hblocked]
    exact fair_blocked
  · exact fair_followPlay (hline.taken h) hfollows (serves_stepLine p line) hline.work hline.held
      (h.line_ne_completed hline.work)

/-- A playback begins a line, or completes the script. -/
lemma fair_beginLine {context : Context} (hdeferred : p.deferred = none)
    (hstate : p.state = .playing)
    (hheld : p.lineLock.isHeldBy id = true) :
    Fair id play.token p (followPlay id play ({ p with context }.beginLine play.token)) := by
  obtain ⟨e, he⟩ : ∃ e, e = { p with context } := ⟨_, rfl⟩
  have hestate : e.state = .playing := by rw [he]; exact hstate
  have hedeferred : e.deferred = none := by rw [he]; exact hdeferred
  have heheld : e.lineLock.isHeldBy id = true := by rw [he]; exact hheld
  have hfair : Fair id play.token e (followPlay id play (e.beginLine play.token)) := by
    rcases beginLine_cases e play.token with
      ⟨q, hq, hbearing, hspent⟩ | ⟨-, w, r, index, entered, hw, hserves, hfollows⟩
    · rw [hq]
      have hqstate : q.state = .playing := (congrArg Bearing.state hbearing).trans hestate
      have hreleased : { q with lineLock := q.lineLock.release }.state = .playing := hqstate
      have hx : followPlay id play (q, .ends (.finished .completed)) =
          { q with lineLock := q.lineLock.release }.finish .completed := rfl
      rw [hx]
      refine fair_finish (.inl ?_) (fun hstopped => ?_) fun _ =>
        ⟨.inl hreleased, hspent.of_eq rfl rfl rfl, .inr heheld⟩
      · rw [hreleased]
        rfl
      · cases hstopped.symm.trans hestate
    · have hne : e.deferred ≠ some .completed := by
        rw [hedeferred]
        exact (Option.some_ne_none _).symm
      obtain ⟨htaken, hnot⟩ := taken_begins play.token index entered (.inl hestate) hne
      exact fair_followPlay htaken hfollows hserves hw heheld fun h => absurd h hnot
  rw [he] at hfair
  exact hfair.of_eq rfl rfl fun h => h

/-- A playback that has the line lock. -/
lemma fair_playLine (h : Sane play.token p) (hheld : p.lineLock.isHeldBy id = true) :
    Fair id play.token p (p.playLine id play) := by
  have hengages := p.engages_playLine id play
  generalize p.playLine id play = x at hengages ⊢
  cases hengages with
  | yields =>
    have hreleased : Sane play.token { p with lineLock := p.lineLock.release } :=
      h.of_eq rfl rfl rfl rfl
    exact (fair_continuePlay hreleased).of_eq rfl rfl fun _ => hheld
  | pauses hdeferred hstate _ hq hr =>
    obtain ⟨e, he, hbearing⟩ := paused_of_hit id play hstate hq hr
    have hestate : e.state = .paused := congrArg Bearing.state hbearing
    have hedeferred : e.deferred = none :=
      (congrArg (fun b : Bearing => b.rest.deferred) hbearing).trans hdeferred
    have hnot : e.deferred ≠ some .completed := by
      rw [hedeferred]
      exact (Option.some_ne_none _).symm
    have hunder : e.state.isUnderway = true := by
      rw [hestate]
      rfl
    rw [he]
    refine ⟨fun next hnext => ?_, fun _ h => Progress.noConfusion h, fun hstopped => ?_,
      fun next line hnext hline => ?_⟩
    · cases hnext
      exact ⟨⟨.inl hunder, fun hleft => absurd hleft hnot⟩, fun hleft => absurd hleft hnot⟩
    · cases hstopped.symm.trans hstate
    · cases hnext
      cases hline
  | begins hdeferred hstate => exact fair_beginLine hdeferred hstate hheld

/-- What a playback does from its lines on is fair. -/
lemma fair_step (id : Nat) (h : Sane token p) (hplayback : phase.isPlayback = true)
    (hlate : phase.isEarly = false) (htoken : phase.token? = some token)
    (hline : ∀ line, phase.line? = some line → InHand id token p line) :
    Fair id token p (p.step id phase) := by
  cases phase with
  | paused | delaying | autosaving => exact fair_between h rfl htoken fun _ => Phase.noConfusion
  | playLock play =>
    cases htoken
    simp only [step]
    split
    · next hheld => exact fair_playLine h hheld
    · exact fair_blocked
  | playing play line =>
    cases htoken
    exact fair_playing h (hline line rfl)
  | entering r => cases htoken
  | loading | playGate | preloading => cases hlate
  | _ => cases hplayback

/-! ### Single steps beside a playback -/

/-- What a single step makes of the playback beside it: the playback is still sane and is not taken
out of a stop, and it is told that the script is completed by a step that has the line lock. -/
structure Decent (id : Nat) (token : Token) (p : Player) (x : Player × Progress) : Prop where
  sane : Sane token x.1
  stays : p.state = .stopped → x.1.state = .stopped
  left : x.1.deferred = some .completed → p.deferred = some .completed ∨
    p.lineLock.isHeldBy id = true ∧ ∃ answer, x.2 = .ends answer
  work : ∀ next line, x.2 = .goes next → next.line? = some line →
    line.work.token = token ∧ x.1.deferred ≠ some .completed

/-- A single step that changes nothing that the playback goes by. -/
lemma decent_of_eq {progress : Progress} (h : Sane token p) (hstate : q.state = p.state)
    (hcancelled : q.isCancelled token = p.isCancelled token) (hdeferred : q.deferred = p.deferred)
    (hcontext : q.context = p.context)
    (hline : ∀ next, progress = .goes next → next.line? = none) :
    Decent id token p (q, progress) where
  sane := h.of_eq hstate hcancelled hdeferred hcontext
  stays hp := hstate.trans hp
  left hleft := .inl (hdeferred.symm.trans hleft)
  work next line hnext hlined := by
    rw [hline next hnext] at hlined
    cases hlined

/-- A single step leaves an end for the playback, which can carry it out. -/
lemma decent_defers (hheld : p.lineLock.isHeldBy id = true)
    (hstays : p.state = .stopped → q.state = .stopped)
    (hstate : q.state.isUnderway = true ∨ q.state = .stopped ∧ q.isCancelled token = true)
    (hdone : f = .completed → (q.state = .playing ∨ q.state = .paused) ∧ q.context.IsSpent) :
    Decent id token p (followStep (q, .ends (.finished f))) := by
  obtain ⟨e, he⟩ : ∃ e : Player, e = { q with context := { q.context with stepMode := false } } :=
    ⟨_, rfl⟩
  have hestate : e.state = q.state := by rw [he]; rfl
  have hdefer := bearing_defer e f
  have hnow : (e.defer f).state = if q.state = .paused then .playing else q.state := by
    rw [← hestate]
    exact congrArg Bearing.state hdefer
  have hdeferred : (e.defer f).deferred = some f :=
    congrArg (fun b : Bearing => b.rest.deferred) hdefer
  have hcancelled : (e.defer f).isCancelled token = q.isCancelled token := by
    have hsame : (e.defer f).isCancelled token = e.isCancelled token :=
      congrArg (fun b : Bearing => b.rest.isCancelled token) hdefer
    rw [hsame, he]
    rfl
  have hcontext : (e.defer f).context = { q.context with stepMode := false } := by
    have hsame : (e.defer f).context = e.context :=
      congrArg (fun g : Gist => g.core.context) (gist_moveFrom _ _)
    rw [hsame, he]
  have hx : followStep (q, .ends (.finished f)) =
      ({ e.defer f with lineLock := (e.defer f).lineLock.release }, .ends .done) := by
    rw [he]
    rfl
  have hsane : Sane token (e.defer f) := by
    refine ⟨?_, fun hleft => ?_⟩
    · rw [hnow, hcancelled]
      split
      · exact .inl rfl
      · exact hstate
    · obtain ⟨hplaying, hspent⟩ := hdone (Option.some.inj (hdeferred.symm.trans hleft))
      refine ⟨.inl ?_, hcontext ▸ hspent.of_eq rfl rfl rfl⟩
      rw [hnow]
      rcases hplaying with h | h <;> rw [h] <;> rfl
  rw [hx]
  refine ⟨hsane.of_eq rfl rfl rfl rfl, fun hp => ?_, fun _ => .inr ⟨hheld, _, rfl⟩,
    fun _ _ h => Progress.noConfusion h⟩
  have hstopped := hstays hp
  rw [hstopped] at hnow
  exact hnow

/-- What a single step makes of its line. -/
lemma decent_followStep {r : Player} (ht : Taken token p b entered) (hy : Follows entered b y)
    (hserves : Serves w r y) (hw : w.token = token) (hheld : p.lineLock.isHeldBy id = true)
    (hstopped : b.state = .stopped → y.2 ≠ .ends (.finished .completed)) :
    Decent id token p (followStep y) := by
  obtain ⟨q, progress⟩ := y
  cases progress with
  | blocked => exact hy.elim
  | goes line =>
    obtain ⟨hsane, hdeferred⟩ := ht.sane_goes hy
    have hleft : q.deferred ≠ some .completed := fun h => ht.deferred (hdeferred.symm.trans h)
    refine ⟨hsane, fun hp => ?_, fun h => absurd h hleft, fun next l hnext hl => ?_⟩
    · exact hy.stopped (ht.stays hp)
    · cases hnext
      cases hl
      rw [hserves.work line rfl]
      exact ⟨hw, hleft⟩
  | ends by_ =>
    have hclosed : Closed b entered q := hy.imp_right And.left
    have hsane := ht.closed_sane hclosed
    have hkept : p.state = .stopped → q.state = .stopped := fun hp => hclosed.stopped (ht.stays hp)
    cases by_ with
    | next =>
      have hleft : q.deferred ≠ some .completed := fun h =>
        ht.deferred ((ht.closed_deferred hclosed).symm.trans h)
      have hover : Sane token
          { q with
            context := { q.context with stepMode := false }
            lineLock := q.lineLock.release } :=
        ⟨hsane.state, fun h => absurd h hleft⟩
      exact ⟨hover, hkept, fun h => absurd h hleft, fun _ _ h => Progress.noConfusion h⟩
    | finished f =>
      refine decent_defers hheld hkept hsane.state fun hdone => ?_
      have hb : b.state ≠ .stopped := fun h => hstopped h (by rw [hdone])
      exact ⟨ht.closed_playing hclosed hb, hserves.spent (by rw [hdone])⟩

/-- A single step that has the line lock. -/
lemma decent_beginStep (h : Sane token p) (htoken : p.token = some token)
    (hheld : p.lineLock.isHeldBy id = true) : Decent id token p p.beginStep := by
  have hleaves : ∀ answer, Decent id token p (p.unlock answer) := fun answer =>
    decent_of_eq h rfl rfl rfl rfl fun _ hnext => Progress.noConfusion hnext
  unfold beginStep
  split
  · exact hleaves _
  · exact hleaves _
  · next hrefusal hsome =>
    cases htoken.symm.trans hsome
    have hstate : p.state = .playing ∨ p.state = .paused := by
      unfold stepRefusal? at hrefusal
      split at hrefusal
      · next hp => exact .inl hp
      · next hp => exact .inr hp
      · cases hrefusal
    obtain ⟨e, he⟩ : ∃ e : Player, e = { p with context := { p.context with stepMode := true } } :=
      ⟨_, rfl⟩
    have hestate : e.state = p.state := by rw [he]; rfl
    have hnot : p.state ≠ .stopped := by
      rcases hstate with hp | hp <;> rw [hp] <;> exact State.noConfusion
    rw [← he]
    rcases beginLine_cases e token with
      ⟨q, hq, hbearing, hspent⟩ | ⟨hunspent, w, r, index, entered, hw, hserves, hfollows⟩
    · have hqstate : q.state = p.state := (congrArg Bearing.state hbearing).trans hestate
      rw [hq]
      refine decent_defers hheld (fun hp => absurd hp hnot) (.inl ?_) fun _ => ⟨?_, hspent⟩
      · rw [hqstate]
        rcases hstate with hp | hp <;> rw [hp] <;> rfl
      · rw [hqstate]
        exact hstate
    · have hleft : p.deferred ≠ some .completed := fun hleft =>
        hunspent (by rw [he]; exact (h.left hleft).2.of_eq rfl rfl rfl)
      have hbearing : e.bearing = p.bearing := by rw [he]; rfl
      rw [hbearing] at hfollows
      obtain ⟨htaken, hbegun⟩ := taken_begins token index entered hstate hleft
      exact decent_followStep htaken hfollows hserves hw hheld fun hb => absurd hb hbegun

/-- What a single step does beside a playback from its lines on is decent. -/
lemma decent_step (id : Nat) (h : Sane token p) (htoken : p.token = some token)
    (hphase : phase.isStep = true)
    (hline : ∀ line, phase.line? = some line → InHand id token p line) :
    Decent id token p (p.step id phase) := by
  cases phase with
  | entering r =>
    cases r with
    | stepForward =>
      simp only [step, accept]
      split
      · exact decent_of_eq h rfl rfl rfl rfl fun _ hnext => Progress.noConfusion hnext
      · refine decent_of_eq h rfl rfl rfl rfl fun _ hnext => ?_
        cases hnext
        rfl
    | _ => cases hphase
  | stepLock =>
    simp only [step]
    split
    · next hheld => exact decent_beginStep h htoken hheld
    · exact decent_of_eq h rfl rfl rfl rfl fun _ hnext => Progress.noConfusion hnext
  | stepping line =>
    have hin := hline line rfl
    simp only [step]
    rcases follows_stepLine p line with hblocked | hfollows
    · rw [hblocked]
      exact decent_of_eq h rfl rfl rfl rfl fun _ hnext => Progress.noConfusion hnext
    · exact decent_followStep (hin.taken h) hfollows (serves_stepLine p line) hin.work hin.held
        (h.line_ne_completed hin.work)
  | _ => cases hphase

/-- A single step leads to nothing but a single step. -/
lemma isStep_step (id : Nat) (hphase : phase.isStep = true)
    (hnext : (p.step id phase).2 = .goes next) :
    next.isStep = true := by
  have hfollow : ∀ y, (followStep y).2 = .goes next → next.isStep = true := by
    rintro ⟨q, progress⟩ h
    cases progress with
    | blocked => cases h
    | goes line =>
      cases h
      rfl
    | ends by_ => cases by_ <;> cases h
  cases phase with
  | entering r =>
    cases r with
    | stepForward =>
      simp only [step, accept] at hnext
      split at hnext
      · cases hnext
      · cases hnext
        rfl
    | _ => cases hphase
  | stepLock =>
    simp only [step] at hnext
    split at hnext
    · unfold beginStep at hnext
      split at hnext
      · cases hnext
      · cases hnext
      · exact hfollow _ hnext
    · cases hnext
  | stepping line => exact hfollow _ hnext
  | _ => cases hphase

/-- Where there is no playback under way, a single step that has not begun its line changes nothing
but the line lock, and it begins none. -/
lemma step_of_idle (id : Nat) (hphase : phase.isStep = true) (hline : phase.line? = none)
    (hidle : p.state.isUnderway = false) : ∃ lock progress,
      p.step id phase = ({ p with lineLock := lock }, progress) ∧
        ∀ next, progress = .goes next → next.line? = none := by
  have hrefusal : p.stepRefusal? "step forward" ≠ none := by
    unfold stepRefusal?
    split
    · next h => rw [h] at hidle; cases hidle
    · next h => rw [h] at hidle; cases hidle
    · exact Option.some_ne_none _
  cases phase with
  | entering r =>
    cases r with
    | stepForward =>
      simp only [step, accept]
      split
      · exact ⟨p.lineLock, _, rfl, fun _ h => Progress.noConfusion h⟩
      · refine ⟨_, _, rfl, fun _ h => ?_⟩
        cases h
        rfl
    | _ => cases hphase
  | stepLock =>
    simp only [step]
    split
    · unfold beginStep
      split
      · exact ⟨_, _, rfl, fun _ h => Progress.noConfusion h⟩
      · exact ⟨_, _, rfl, fun _ h => Progress.noConfusion h⟩
      · next h _ => exact absurd h hrefusal
    · exact ⟨p.lineLock, _, rfl, fun _ h => Progress.noConfusion h⟩
  | stepping line => cases hline
  | _ => cases hphase

lemma state_followStep_of_idle (hy : Follows entered b y) (hidle : b.state.isUnderway = false) :
    (followStep y).1.state = b.state := by
  obtain ⟨q, progress⟩ := y
  cases progress with
  | blocked => exact hy.elim
  | goes next =>
    rcases hy with ⟨hq, -⟩ | ⟨hq, -⟩
    · exact congrArg Bearing.state hq
    · exact Closed.state_of_idle (.inr hq) hidle
  | ends by_ =>
    have hclosed : Closed b entered q := hy.imp_right And.left
    have hq := hclosed.state_of_idle hidle
    cases by_ with
    | next => exact hq
    | finished f =>
      obtain ⟨e, he⟩ : ∃ e : Player,
          e = { q with context := { q.context with stepMode := false } } :=
        ⟨_, rfl⟩
      have hestate : e.state = b.state := by rw [he]; exact hq
      have hdefer : (e.defer f).state = if e.state = .paused then .playing else e.state :=
        congrArg Bearing.state (bearing_defer e f)
      have hnot : e.state ≠ .paused := fun h => by
        rw [← hestate, h] at hidle
        cases hidle
      rw [if_neg hnot, hestate, he] at hdefer
      exact hdefer

/-- Where there is no playback under way, a single step does not change the state. -/
lemma state_step_of_idle (id : Nat) (hphase : phase.isStep = true)
    (hidle : p.state.isUnderway = false) :
    (p.step id phase).1.state = p.state := by
  cases hline : phase.line? with
  | none =>
    obtain ⟨lock, progress, hstep, -⟩ := step_of_idle id hphase hline hidle
    rw [hstep]
    rfl
  | some line =>
    cases phase with
    | stepping line =>
      simp only [step]
      rcases follows_stepLine p line with hblocked | hfollows
      · rw [hblocked]
        rfl
      · exact state_followStep_of_idle hfollows hidle
    | playing => cases hphase
    | _ => cases hline

end Player

end Recital

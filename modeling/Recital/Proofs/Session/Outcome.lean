import Recital.Proofs.Player.BeforeLines
import Recital.Proofs.Session.Finish

/-!
# The outcome of a playback

A playback tells its outcome, and leaves the player in a state.  Both agree, whatever calls are made
beside it and whatever lines are executed by single steps, as long as the player is not stopped
between a single step that has completed the script and the playback that takes this up (`Timely`).

What is known of the end of a playback depends on how far it has come (`Stage`): before the gate it
is the script that decides whether it will be refused; then the playback is prepared, or sane from
its lines on; and after its end the state stays what it was told to be.
-/

namespace Recital

namespace Player

variable {p q : Player} {c : Call} {token : Token}

/-! ### Calls -/

/-- What is active is stopped at once, and its playback is cancelled. -/
lemma stop_of_active (hactive : p.state.isActive = true) (htoken : p.token = some token) :
    p.stop.state = .stopped ∧ p.stop.isCancelled token = true := by
  obtain ⟨q, hq⟩ : ∃ q, q = { p with stopRequested := true }.moveIfAllowed p.run .stopped :=
    ⟨_, rfl⟩
  have hmoved : q.state = .stopped := by
    rw [hq, state_moveIfAllowed_eq]
    exact if_pos (allows_stopped hactive)
  have hqtoken : q.token = some token := by
    rw [hq]
    exact (congrArg (fun b : Bearing => b.rest.token) (bearing_moveIfAllowed _ _)).trans htoken
  have hstop : p.stop = q.cancelRun := by
    unfold stop
    rw [if_pos hactive, hq]
  rw [hstop, cancelRun_eq]
  exact ⟨hmoved, by simp [isCancelled, hqtoken]⟩

lemma stop_of_inactive (h : p.state.isActive = false) : p.stop = p := by
  unfold stop
  rw [h]
  rfl

/-- A playback that was cancelled stays so. -/
lemma isCancelled_perform (h : p.isCancelled token = true) :
    (p.perform c).isCancelled token = true := by
  by_cases hstop : c = .stop
  · rw [hstop]
    by_cases hactive : p.state.isActive = true
    · obtain ⟨q, hq⟩ : ∃ q, q = { p with stopRequested := true }.moveIfAllowed p.run .stopped :=
        ⟨_, rfl⟩
      have hqcancelled : q.isCancelled token = true := by
        rw [← h, hq]
        exact congrArg (fun b : Bearing => b.rest.isCancelled token) (bearing_moveIfAllowed _ _)
      have hperform : p.perform .stop = q.cancelRun := by
        simp only [perform, stop]
        rw [if_pos hactive, hq]
      rw [hperform, cancelRun_eq]
      rw [isCancelled, Bool.or_eq_true] at hqcancelled ⊢
      refine hqcancelled.imp_left fun hmem => ?_
      rw [List.contains_iff_mem] at hmem ⊢
      exact List.mem_append_right _ hmem
    · have hidle : p.state.isActive = false := Bool.not_eq_true _ ▸ hactive
      have hperform : p.perform .stop = p := stop_of_inactive hidle
      rw [hperform]
      exact h
  · by_cases hcancel : c = .cancel
    · rw [hcancel]
      simp only [isCancelled, perform, cancelCaller] at h ⊢
      rw [Bool.or_eq_true] at h ⊢
      refine h.imp_right fun hb => ?_
      rw [(Bool.and_eq_true_iff.mp hb).1]
      rfl
    · rw [isCancelled_of_signals (signals_perform hstop hcancel)]
      exact h

/-- A call changes the state of a player only while it is active. -/
lemma state_perform_of_inactive (h : p.state.isActive = false) : (p.perform c).state = p.state := by
  have hnot : ∀ s : State, s.isActive = true → p.state ≠ s := fun s hs heq => by
    rw [heq, hs] at h
    cases h
  by_cases hstop : c = .stop
  · rw [hstop]
    exact congrArg Player.state (stop_of_inactive h)
  · have hsteers := steers_perform (p := p) (c := c)
    generalize p.perform c = q at hsteers
    cases hsteers with
    | pauses hstate => exact absurd hstate (hnot _ rfl)
    | asks hstate => exact absurd hstate (hnot _ rfl)
    | resumes hstate => exact absurd hstate (hnot _ rfl)
    | unasks hq | keeps hq => exact hq
    | stops => exact absurd rfl hstop

/-- A call does not bring back what is to be executed. -/
lemma isSpent_perform (h : p.context.IsSpent) : (p.perform c).context.IsSpent := by
  have hbare : (p.perform c).context.bare = p.context.bare :=
    congrArg Place.context (p.stays_perform c).place
  exact h.of_eq (congrArg (·.script) hbare) (congrArg (·.cursor) hbare) (congrArg (·.frames) hbare)

/-- What a call makes of a state that is under way, or was stopped with the playback. -/
lemma state_perform (hstate : p.state.isUnderway = true ∨ p.state = .stopped ∧
      p.isCancelled token = true) (htoken : p.token = some token) :
    (p.perform c).state.isUnderway = true ∨
      (p.perform c).state = .stopped ∧ (p.perform c).isCancelled token = true := by
  rcases hstate with hunder | ⟨hstopped, hcancelled⟩
  · by_cases hstop : c = .stop
    · rw [hstop]
      exact .inr (stop_of_active (isActive_of_isUnderway hunder) htoken)
    · have hsteers := steers_perform (p := p) (c := c)
      generalize p.perform c = q at hsteers
      refine .inl ?_
      cases hsteers with
      | pauses _ hq | resumes _ hq => rw [hq]; rfl
      | asks _ hq => rw [hq]; rfl
      | unasks hq | keeps hq => rw [hq]; exact hunder
      | stops => exact absurd rfl hstop
  · exact .inr ⟨(state_perform_of_inactive (by rw [hstopped]; rfl)).trans hstopped,
      isCancelled_perform hcancelled⟩

/-- A call leaves a playback sane, unless the player is stopped while the playback is told that the
script is completed. -/
lemma Sane.perform (h : Sane token p) (htoken : p.token = some token)
    (hc : c = .stop → p.deferred ≠ some .completed) : Sane token (p.perform c) := by
  have hdeferred : (p.perform c).deferred = p.deferred := spared_perform.deferred
  refine ⟨state_perform h.state htoken, fun hleft => ?_⟩
  rw [hdeferred] at hleft
  obtain ⟨hstate, hspent⟩ := h.left hleft
  refine ⟨?_, isSpent_perform hspent⟩
  have hsteers := steers_perform (p := p) (c := c)
  generalize p.perform c = q at hsteers
  cases hsteers with
  | pauses _ hq => exact .inr hq
  | resumes _ hq => exact .inl hq
  | asks hwaiting =>
    rw [hwaiting] at hstate
    rcases hstate with h | h <;> cases h
  | unasks hq | keeps hq => rw [hq]; exact hstate
  | stops => exact absurd hleft (hc rfl)

lemma Preparing.perform (h : Preparing token p) (htoken : p.token = some token) :
    Preparing token (p.perform c) := by
  refine ⟨?_, spared_perform.deferred.trans h.deferred⟩
  rcases h.state with hloading | ⟨hstopped, hcancelled⟩
  · by_cases hstop : c = .stop
    · rw [hstop]
      exact .inr (stop_of_active (by rw [hloading]; rfl) htoken)
    · have hsteers := steers_perform (p := p) (c := c)
      generalize p.perform c = q at hsteers
      refine .inl ?_
      cases hsteers with
      | pauses hstate | asks hstate | resumes hstate => cases hloading.symm.trans hstate
      | unasks hq | keeps hq => exact hq.trans hloading
      | stops => exact absurd rfl hstop
  · exact .inr ⟨(state_perform_of_inactive (by rw [hstopped]; rfl)).trans hstopped,
      isCancelled_perform hcancelled⟩

lemma Accords.of_eq {r : Report} (h : Accords p r) (hstate : q.state = p.state)
    (hspent : r.outcome = .success → p.context.IsSpent → q.context.IsSpent) : Accords q r := by
  refine ⟨?_, fun hr => hspent hr (h.spent hr), fun hr => ?_, fun hr => ?_⟩
  · rw [hstate]
    exact h.success
  · rw [hstate]
    exact h.failure hr
  · rw [hstate]
    exact h.stopped hr

end Player

namespace Session

variable {s s' s₀ s₁ s₂ : Session} {a : Action} {id : Nat} {t : Task} {x : Player × Progress}
  {host : Host} {played : Option Script}

/-! ### What may happen beside a playback -/

/-- Beside a playback lines are executed by single steps, and any calls are made. -/
def Escorts (id : Nat) : Action → Prop
  | .submit n r => n ≠ id ∧ r = .stepForward
  | _ => True

lemma Escorts.beside (h : Escorts id a) : Beside id a := by
  cases a with
  | submit n r => exact ⟨h.1, by rw [h.2]; rfl⟩
  | call | go | wait => trivial

/-- The player is not stopped between a single step that has completed the script and the playback
that takes this up. -/
def Timely (s : Session) : Action → Prop
  | .call .stop => s.player.token ≠ none → s.player.deferred ≠ some .completed
  | _ => True

/-- Something happens in time beside a playback. -/
def Passes (id : Nat) (s s' : Session) : Prop := ∃ a, Escorts id a ∧ s.Timely a ∧ s.Does a s'

/-- Any number of things happen in time beside a playback, in any order. -/
def Runs (id : Nat) : Session → Session → Prop := Relation.ReflTransGen (Passes id)

/-! ### The stages of a playback -/

/-- The report that a playback has ended with is still true. -/
structure Told (host : Host) (played : Option Script) (s : Session) (r : Report) : Prop where
  accords : Player.Accords s.player r
  failed : s.player.state = .failed ↔ ∃ script, played = some script ∧ host.Refuses script
  /-- Nothing is executed after the script is completed. -/
  quiet : r.outcome = .success → ∀ u ∈ s.tasks, u.phase.line? = none

/-- How far a playback has come, and what is known about its end. -/
inductive Stage (id : Nat) (host : Host) (played : Option Script) (s : Session) : Prop
  /-- It has not got the gate. -/
  | fresh {t : Task} (ht : t ∈ s.tasks) (hid : t.id = id) (hfresh : t.phase.isFresh = true)
    (hhost : s.player.host = host) (hscript : t.phase.script? host = played)
  /-- Its script is being prepared. -/
  | early {t : Task} {token : Token} (ht : t ∈ s.tasks) (hid : t.id = id)
    (htoken : t.phase.token? = some token) (hfresh : t.phase.isFresh = false)
    (hearly : t.phase.isEarly = true) (hpreparing : Player.Preparing token s.player)
    (hfit : ∀ script, played = some script → ¬ host.Refuses script)
  /-- It has come to its lines. -/
  | late {t : Task} {token : Token} (ht : t ∈ s.tasks) (hid : t.id = id)
    (htoken : t.phase.token? = some token) (hlate : t.phase.isEarly = false)
    (hsane : Player.Sane token s.player)
    (hlines : ∀ u ∈ s.tasks, ∀ line, u.phase.line? = some line →
      line.work.token = token ∧ s.player.deferred ≠ some .completed)
    (hfit : ∀ script, played = some script → ¬ host.Refuses script)
  | ended (hgone : ∀ t ∈ s.tasks, t.id ≠ id) (hidle : s.player.state.isUnderway = false)
    (htold : ∀ r, s.answer? id = some (.report r) → Told host played s r)

/-- A playback with single steps beside it, and how far it has come. -/
structure Staged (id : Nat) (host : Host) (played : Option Script) (s : Session) : Prop where
  solo : s.Solo id
  steps : ∀ t ∈ s.tasks, t.id ≠ id → t.phase.isStep = true
  stage : s.Stage id host played

/-- The playback has been stopped after it had got the gate. -/
structure Halted (s : Session) : Prop where
  state : s.player.state = .stopped
  unfresh : ∀ t ∈ s.tasks, t.phase.isFresh = false

/-! ### Steps of the playback -/

/-- What is in hand of a request with a line in flight. -/
lemma Solo.inHand {token : Token} {line : LinePhase} (h : s.Solo id) (ht : t ∈ s.tasks)
    (hline : t.phase.line? = some line) (hwork : line.work.token = token)
    (hdeferred : s.player.deferred ≠ some .completed) :
    Player.InHand t.id token s.player line :=
  ⟨hwork, hdeferred, h.held t ht line hline, h.entered ht hline⟩

/-- A playback that has ended is over. -/
lemma Moved.stage_of_end {answer : Answer} (hmoved : s.Moved s' t x) (hs : s.Solo id)
    (hid : t.id = id)
    (hends : x.2 = .ends answer) (hidle : x.1.state.isUnderway = false)
    (htold : ∀ r, answer = .report r → Told host played s' r) : s'.Stage id host played := by
  refine .ended (fun u hu => ?_) (by rw [hmoved.player]; exact hidle) fun r hr => htold r ?_
  · rcases hmoved.cases hs.distinct hu with ⟨-, hne⟩ | ⟨-, hgoes⟩
    · exact hid ▸ hne
    · rw [hends] at hgoes
      cases hgoes
  · have hnone : s.answer? t.id = none := hid ▸ hs.unanswered ⟨t, hmoved.mem, hid⟩
    rw [← hid, hmoved.answer?_of_ends hends hnone] at hr
    exact (Option.some.inj hr)

lemma isUnderway_of_inactive {state : State} (h : state.isActive = false) :
    state.isUnderway = false := by
  cases state <;> first | rfl | cases h

/-- What is left in progress has no line in flight when an early playback has ended. -/
lemma Moved.unlined_of_early {answer : Answer} (hmoved : s.Moved s' t x) (hs : s.Solo id)
    (hearly : t.phase.isEarly = true) (hends : x.2 = .ends answer) :
    ∀ u ∈ s'.tasks, u.phase.line? = none := by
  intro u hu
  rcases hmoved.cases hs.distinct hu with ⟨hold, -⟩ | ⟨-, hgoes⟩
  · exact hs.unlined t hmoved.mem hearly u hold
  · rw [hends] at hgoes
    cases hgoes

/-- The script of the playback is accepted. -/
lemma Moved.stage_of_opened {token : Token} (hmoved : s.Moved s' t x) (hs : s.Solo id)
    (hid : t.id = id) (hearly : t.phase.isEarly = true) (hopened : Player.Opened token x)
    (hfit : ∀ script, played = some script → ¬ host.Refuses script) : s'.Stage id host played := by
  cases hprogress : x.2 with
  | blocked => exact absurd hprogress hmoved.ready
  | goes next =>
    obtain ⟨htoken, hfresh, hline⟩ := hopened.goes next hprogress
    cases hnext : next.isEarly with
    | true =>
      refine .early (hmoved.mem_next hprogress) hid htoken hfresh hnext ?_ hfit
      rw [hmoved.player]
      exact hopened.early next hprogress hnext
    | false =>
      refine .late (hmoved.mem_next hprogress) hid htoken hnext ?_ (fun u hu line hl => ?_) hfit
      · rw [hmoved.player]
        exact hopened.late next hprogress hnext
      · rcases hmoved.cases hs.distinct hu with ⟨hold, -⟩ | ⟨-, hgoes⟩
        · rw [hs.unlined t hmoved.mem hearly u hold] at hl
          cases hl
        · cases hprogress.symm.trans hgoes
          rw [hline] at hl
          cases hl
  | ends answer =>
    obtain ⟨r, rfl, haccords, hnot⟩ := hopened.ends answer hprogress
    refine hmoved.stage_of_end hs hid hprogress (isUnderway_of_inactive haccords.isActive)
      fun r' hr => ?_
    obtain rfl : r = r' := Answer.report.inj hr
    refine ⟨hmoved.player ▸ haccords, ?_, fun _ => hmoved.unlined_of_early hs hearly hprogress⟩
    rw [hmoved.player]
    refine ⟨fun h => absurd h hnot, ?_⟩
    rintro ⟨script, hplayed, hrefuses⟩
    exact absurd hrefuses (hfit script hplayed)

/-- The playback makes a step before it has the gate. -/
lemma Moved.stage_of_fresh (hmoved : s.Moved s' t x) (hs : s.Solo id) (hid : t.id = id)
    (hfresh : t.phase.isFresh = true) (hhost : s.player.host = host)
    (hscript : t.phase.script? host = played) : s'.Stage id host played := by
  have hearly := Phase.isEarly_of_isFresh hfresh
  have hstarts : Player.Starts s.player t.phase x := by
    have hcases := Player.starts_step (p := s.player) t.id hfresh
    rw [hmoved.step] at hcases
    exact hcases.resolve_left hmoved.ready
  rw [← hhost] at hscript
  cases hstarts with
  | waits hnext hsame hq =>
    refine .fresh (hmoved.mem_next rfl) hid hnext (by rw [hmoved.player]; exact hq.trans hhost) ?_
    rw [← hhost, hsame]
    exact hscript
  | refused hstate =>
    refine hmoved.stage_of_end hs hid rfl ?_ fun r hr => Answer.noConfusion hr
    rw [hstate]
    exact (hs.early t hmoved.mem hearly).1
  | @unfit x r script hfound hrefuses hends haccords hfailed =>
    refine hmoved.stage_of_end hs hid hends (isUnderway_of_inactive haccords.isActive)
      fun r' hr => ?_
    obtain rfl : r = r' := Answer.report.inj hr
    refine ⟨hmoved.player ▸ haccords, ?_, fun _ => hmoved.unlined_of_early hs hearly hends⟩
    rw [hmoved.player, hfailed]
    exact ⟨fun _ => ⟨script, hscript.symm.trans hfound, hhost ▸ hrefuses⟩, fun _ => rfl⟩
  | @opens x token script hfound hfit hopened =>
    refine hmoved.stage_of_opened hs hid hearly hopened fun other hother => ?_
    obtain rfl : script = other :=
      Option.some.inj ((hscript.symm.trans hfound).symm.trans hother)
    exact hhost ▸ hfit

/-- The playback executes its lines. -/
lemma Moved.stage_of_late {token : Token} (hmoved : s.Moved s' t x) (hs : s.Solo id)
    (hid : t.id = id) (hfair : Player.Fair t.id token s.player x)
    (hlines : ∀ u ∈ s.tasks, ∀ line, u.phase.line? = some line →
      line.work.token = token ∧ s.player.deferred ≠ some .completed)
    (hnext : ∀ next, x.2 = .goes next → next.token? = some token ∧ next.isEarly = false)
    (hfit : ∀ script, played = some script → ¬ host.Refuses script) : s'.Stage id host played := by
  cases hprogress : x.2 with
  | blocked => exact absurd hprogress hmoved.ready
  | goes next =>
    obtain ⟨htoken, hearly⟩ := hnext next hprogress
    obtain ⟨hsane, hleft⟩ := hfair.goes next hprogress
    refine .late (hmoved.mem_next hprogress) hid htoken hearly (hmoved.player ▸ hsane)
      (fun u hu line hline => ?_) hfit
    rw [hmoved.player]
    rcases hmoved.cases hs.distinct hu with ⟨hold, -⟩ | ⟨-, hgoes⟩
    · obtain ⟨hwork, hdeferred⟩ := hlines u hold line hline
      exact ⟨hwork, fun h => hdeferred (hleft h).1⟩
    · refine ⟨hfair.work _ line hgoes hline, fun h => ?_⟩
      cases hprogress.symm.trans hgoes
      rw [(hleft h).2] at hline
      cases hline
  | ends answer =>
    obtain ⟨r, rfl, haccords, hnot, hsuccess⟩ := hfair.ends answer hprogress
    refine hmoved.stage_of_end hs hid hprogress (isUnderway_of_inactive haccords.isActive)
      fun r' hr => ?_
    obtain rfl : r = r' := Answer.report.inj hr
    refine ⟨hmoved.player ▸ haccords, ?_, fun hr u hu => ?_⟩
    · rw [hmoved.player]
      refine ⟨fun h => absurd h hnot, ?_⟩
      rintro ⟨script, hplayed, hrefuses⟩
      exact absurd hrefuses (hfit script hplayed)
    · rcases hmoved.cases hs.distinct hu with ⟨hold, hne⟩ | ⟨-, hgoes⟩
      · -- Nobody else has a line in flight when the playback is told that the script is completed,
        -- or when it finds so itself.
        cases hline : u.phase.line? with
        | none => rfl
        | some line =>
          rcases hsuccess hr with hdeferred | hheld
          · exact absurd hdeferred (hlines u hold line hline).2
          · exact absurd (congrArg Task.id (hs.eq_of_line hmoved.mem hold hheld hline)) hne
      · rw [hprogress] at hgoes
        cases hgoes

/-! ### Single steps -/

/-- A phase of a single step is one beside a playback. -/
lemma isFresh_of_isStep {phase : Phase} (h : phase.isStep = true) : phase.isFresh = false := by
  cases phase with
  | entering r => cases r <;> first | rfl | cases h
  | _ => first | rfl | cases h

/-- A single step beside a playback leaves its stage as it is. -/
lemma Moved.stage_of_step (hmoved : s.Moved s' t x) (hs : s.Solo id) (hid : t.id ≠ id)
    (hstep : t.phase.isStep = true) (hstage : s.Stage id host played) :
    s'.Stage id host played := by
  -- Where there is no playback under way, only the lock changes unless a line is in flight.
  have hunchanged : s.player.state.isUnderway = false → t.phase.line? = none →
      (∃ lock, x.1 = { s.player with lineLock := lock }) ∧
        ∀ next, x.2 = .goes next → next.line? = none := fun hidle hline => by
    obtain ⟨lock, progress, heq, hnext⟩ :=
      Player.step_of_idle t.id hstep hline hidle
    rw [hmoved.step] at heq
    rw [heq]
    exact ⟨⟨lock, rfl⟩, hnext⟩
  have hkept : ∀ u ∈ s.tasks, u.id = id → u ∈ s'.tasks := fun u hu huid =>
    hmoved.mem_of_ne hu fun h => hid (h ▸ huid)
  cases hstage with
  | @fresh u hu huid hfresh hhost hscript =>
    have hearly := Phase.isEarly_of_isFresh hfresh
    obtain ⟨⟨lock, hx⟩, -⟩ :=
      hunchanged (hs.early u hu hearly).1 (hs.unlined u hu hearly t hmoved.mem)
    refine .fresh (hkept u hu huid) huid hfresh ?_ hscript
    rw [hmoved.player, hx]
    exact hhost
  | @early u token hu huid htoken hfresh hearly hpreparing hfit =>
    obtain ⟨⟨lock, hx⟩, -⟩ :=
      hunchanged (hs.early u hu hearly).1 (hs.unlined u hu hearly t hmoved.mem)
    refine .early (hkept u hu huid) huid htoken hfresh hearly ?_ hfit
    rw [hmoved.player, hx]
    exact ⟨hpreparing.state, hpreparing.deferred⟩
  | @late u token hu huid htoken hlate hsane hlines hfit =>
    have hdecent : Player.Decent t.id token s.player x := by
      rw [← hmoved.step]
      refine Player.decent_step t.id hsane (hs.token u hu token htoken) hstep fun line hline => ?_
      obtain ⟨hwork, hdeferred⟩ := hlines t hmoved.mem line hline
      exact hs.inHand hmoved.mem hline hwork hdeferred
    refine .late (hkept u hu huid) huid htoken hlate (hmoved.player ▸ hdecent.sane)
      (fun v hv line hline => ?_) hfit
    rw [hmoved.player]
    rcases hmoved.cases hs.distinct hv with ⟨hold, hne⟩ | ⟨-, hgoes⟩
    · obtain ⟨hwork, hdeferred⟩ := hlines v hold line hline
      refine ⟨hwork, fun hleft => ?_⟩
      rcases hdecent.left hleft with h | ⟨hheld, -⟩
      · exact hdeferred h
      · exact hne (congrArg Task.id (hs.eq_of_line hmoved.mem hold hheld hline))
    · exact hdecent.work _ line hgoes hline
  | ended hgone hidle htold =>
    have hstate : x.1.state = s.player.state := by
      rw [← hmoved.step]
      exact Player.state_step_of_idle t.id hstep hidle
    refine .ended (fun u hu => ?_) (by rw [hmoved.player, hstate]; exact hidle) fun r hr => ?_
    · rcases hmoved.cases hs.distinct hu with ⟨hold, -⟩ | ⟨hut, -⟩
      · exact hgone u hold
      · exact hut ▸ hid
    · rw [hmoved.answer?_of_ne hid] at hr
      have hold := htold r hr
      have hquiet := fun hsuccess => hunchanged hidle (hold.quiet hsuccess t hmoved.mem)
      refine ⟨hmoved.player ▸ hold.accords.of_eq hstate fun hsuccess hspent => ?_, ?_,
        fun hsuccess u hu => ?_⟩
      · obtain ⟨⟨lock, hx⟩, -⟩ := hquiet hsuccess
        rw [hx]
        exact hspent
      · rw [hmoved.player, hstate]
        exact hold.failed
      · rcases hmoved.cases hs.distinct hu with ⟨hbefore, -⟩ | ⟨-, hgoes⟩
        · exact hold.quiet hsuccess u hbefore
        · exact (hquiet hsuccess).2 _ hgoes

/-! ### Runs -/

/-- What is known about the end of the playback is kept by every step. -/
lemma Staged.go {n : Nat} (h : s.Staged id host played) (hdoes : s.Does (.go n) s') :
    s'.Staged id host played := by
  obtain ⟨t, x, -, hmoved⟩ := hdoes.moved
  have hs := h.solo
  have hsteps : ∀ u ∈ s'.tasks, u.id ≠ id → u.phase.isStep = true := fun u hu hne => by
    rcases hmoved.cases hs.distinct hu with ⟨hold, -⟩ | ⟨hut, hgoes⟩
    · exact h.steps u hold hne
    · refine Player.isStep_step (p := s.player) t.id (h.steps t hmoved.mem (hut ▸ hne)) ?_
      rw [hmoved.step]
      exact hgoes
  refine ⟨hs.go hdoes, hsteps, ?_⟩
  by_cases hid : t.id = id
  · -- Only the playback itself has its number.
    have hsame : ∀ u ∈ s.tasks, u.id = id → u = t := fun u hu huid =>
      List.inj_on_of_nodup_map hs.distinct hu hmoved.mem (huid.trans hid.symm)
    cases h.stage with
    | @fresh u hu huid hfresh hhost hscript =>
      obtain rfl := hsame u hu huid
      exact hmoved.stage_of_fresh hs hid hfresh hhost hscript
    | @early u token hu huid htoken hfresh hearly hpreparing hfit =>
      obtain rfl := hsame u hu huid
      have hcases := Player.opened_step u.id hpreparing hearly hfresh htoken
      rw [hmoved.step] at hcases
      exact hmoved.stage_of_opened hs hid hearly (hcases.resolve_left hmoved.ready).1 hfit
    | @late u token hu huid htoken hlate hsane hlines hfit =>
      obtain rfl := hsame u hu huid
      have hplayback := hs.playback u hu hid
      have hfair : Player.Fair u.id token s.player x := by
        rw [← hmoved.step]
        refine Player.fair_step u.id hsane hplayback hlate htoken fun line hline => ?_
        obtain ⟨hwork, hdeferred⟩ := hlines u hu line hline
        exact hs.inHand hu hline hwork hdeferred
      have hturn : Player.Turn u.id s.player u.phase x := by
        have hready : (s.player.step u.id u.phase).2 ≠ .blocked := hmoved.step ▸ hmoved.ready
        rw [← hmoved.step]
        exact (Player.turn_playback hplayback hlate).resolve_left hready
      exact hmoved.stage_of_late hs hid hfair hlines
        (fun next hnext => ⟨(hturn.keepsToken hnext).trans htoken, hturn.late hnext⟩) hfit
    | ended hgone => exact absurd hid (hgone t hmoved.mem)
  · exact hmoved.stage_of_step hs hid (h.steps t hmoved.mem hid) h.stage

/-- A call leaves a playback at its stage. -/
lemma Stage.call {c : Call} (h : s.Stage id host played) (hs : s.Solo id)
    (htimely : s.Timely (.call c)) :
    Stage id host played { s with player := s.player.perform c } := by
  cases h with
  | @fresh u hu huid hfresh hhost hscript =>
    exact .fresh hu huid hfresh ((congrArg Player.Place.host
      (s.player.stays_perform c).place).trans hhost) hscript
  | @early u token hu huid htoken hfresh hearly hpreparing hfit =>
    exact .early hu huid htoken hfresh hearly (hpreparing.perform (hs.token u hu token htoken)) hfit
  | @late u token hu huid htoken hlate hsane hlines hfit =>
    have hown := hs.token u hu token htoken
    refine .late hu huid htoken hlate (hsane.perform hown fun hc => ?_) (fun v hv line hline => ?_)
      hfit
    · rw [hc] at htimely
      exact htimely (by rw [hown]; exact Option.some_ne_none _)
    · rw [Player.spared_perform.deferred]
      exact hlines v hv line hline
  | ended hgone hidle htold =>
    have hunder : (s.player.perform c).state.isUnderway = false := by
      by_contra hne
      have hwas := (s.player.stays_perform c).state (Bool.not_eq_false _ ▸ hne)
      rw [hidle] at hwas
      cases hwas
    refine .ended hgone hunder fun r hr => ?_
    have hold := htold r hr
    have hstate : (s.player.perform c).state = s.player.state :=
      Player.state_perform_of_inactive hold.accords.isActive
    refine ⟨hold.accords.of_eq hstate fun _ hspent => Player.isSpent_perform hspent, ?_, hold.quiet⟩
    rw [hstate]
    exact hold.failed

/-- A request that is made leaves a playback at its stage. -/
lemma Stage.submit {n : Nat} (h : s.Stage id host played) (hn : n ≠ id) :
    (s.submit n .stepForward).Stage id host played := by
  have hmem : ∀ u ∈ (s.submit n .stepForward).tasks,
      u ∈ s.tasks ∨ u = ⟨n, .entering .stepForward⟩ :=
    fun u hu => (List.mem_append.mp hu).imp_right List.mem_singleton.mp
  cases h with
  | fresh hu huid hfresh hhost hscript =>
    exact .fresh (List.mem_append_left _ hu) huid hfresh hhost hscript
  | early hu huid htoken hfresh hearly hpreparing hfit =>
    exact .early (List.mem_append_left _ hu) huid htoken hfresh hearly hpreparing hfit
  | late hu huid htoken hlate hsane hlines hfit =>
    refine .late (List.mem_append_left _ hu) huid htoken hlate hsane
      (fun v hv line hline => ?_) hfit
    rcases hmem v hv with hv | rfl
    · exact hlines v hv line hline
    · cases hline
  | ended hgone hidle htold =>
    refine .ended (fun u hu => ?_) hidle fun r hr => ?_
    · rcases hmem u hu with hu | rfl
      · exact hgone u hu
      · exact hn
    · obtain ⟨haccords, hfailed, hquiet⟩ := htold r hr
      refine ⟨haccords, hfailed, fun hsuccess u hu => ?_⟩
      rcases hmem u hu with hu | rfl
      · exact hquiet hsuccess u hu
      · rfl

/-- Time leaves a playback at its stage. -/
lemma Stage.wait (h : s.Stage id host played) (now : Nat) :
    (s.setClock now).Stage id host played := by
  cases h with
  | fresh hu huid hfresh hhost hscript => exact .fresh hu huid hfresh hhost hscript
  | early hu huid htoken hfresh hearly hpreparing hfit =>
    exact .early hu huid htoken hfresh hearly ⟨hpreparing.state, hpreparing.deferred⟩ hfit
  | late hu huid htoken hlate hsane hlines hfit =>
    exact .late hu huid htoken hlate ⟨hsane.state, hsane.left⟩ hlines hfit
  | ended hgone hidle htold =>
    refine .ended hgone hidle fun r hr => ?_
    obtain ⟨haccords, hfailed, hquiet⟩ := htold r hr
    exact ⟨haccords.of_eq rfl fun _ hspent => hspent, hfailed, hquiet⟩

/-- Whatever happens in time beside a playback, what is known about its end is kept. -/
lemma Staged.passes (h : s.Staged id host played) (hp : s.Passes id s') :
    s'.Staged id host played := by
  obtain ⟨a, ha, htimely, hdoes⟩ := hp
  have hsolo := h.solo.does ha.beside hdoes
  cases a with
  | submit n r =>
    obtain ⟨hn, rfl⟩ := ha
    cases hdoes with
    | submit =>
      refine ⟨hsolo, fun u hu hne => ?_, h.stage.submit hn⟩
      rcases List.mem_append.mp hu with hu | hu
      · exact h.steps u hu hne
      · rw [List.mem_singleton.mp hu]
        rfl
  | call c =>
    cases hdoes with
    | call => exact ⟨hsolo, h.steps, h.stage.call h.solo htimely⟩
  | go n => exact h.go hdoes
  | wait now =>
    cases hdoes with
    | wait => exact ⟨hsolo, h.steps, h.stage.wait now⟩

lemma Staged.runs (h : s.Staged id host played) (hr : s.Runs id s') : s'.Staged id host played := by
  induction hr with
  | refl => exact h
  | tail _ hp ih => exact ih.passes hp

/-- A playback is fresh when it is requested. -/
lemma Staged.of_opening {request : Request} (h : s.Opening id)
    (hrequest : s.tasks = [⟨id, .entering request⟩]) :
    s.Staged id s.player.host (request.script? s.player.host) := by
  have hmem : ∀ t ∈ s.tasks, t = ⟨id, .entering request⟩ := fun t ht => by
    rw [hrequest] at ht
    exact List.mem_singleton.mp ht
  obtain ⟨request', htasks, hearly⟩ := h.tasks
  have hfresh : (Phase.entering request).isFresh = true := by
    rw [hrequest] at htasks
    cases htasks
    cases request <;> first | rfl | cases hearly
  refine ⟨.of_opening h, fun t ht hne => absurd (congrArg Task.id (hmem t ht)) hne, ?_⟩
  exact .fresh (t := ⟨id, .entering request⟩)
    (by rw [hrequest]; exact List.mem_singleton_self _) rfl
    hfresh rfl rfl

/-! ### After a stop -/

/-- A playback that was stopped after it had got the gate stays stopped. -/
lemma Staged.halted (h : s.Staged id host played) (hhalted : s.Halted) (hp : s.Passes id s') :
    s'.Halted := by
  obtain ⟨a, ha, -, hdoes⟩ := hp
  have hinactive : s.player.state.isActive = false := by rw [hhalted.state]; rfl
  have hidle : s.player.state.isUnderway = false := by rw [hhalted.state]; rfl
  cases a with
  | submit n r =>
    obtain ⟨-, rfl⟩ := ha
    cases hdoes with
    | submit =>
      refine ⟨hhalted.state, fun u hu => ?_⟩
      rcases List.mem_append.mp hu with hu | hu
      · exact hhalted.unfresh u hu
      · rw [List.mem_singleton.mp hu]
        rfl
  | call c =>
    cases hdoes with
    | call =>
      exact ⟨(Player.state_perform_of_inactive hinactive).trans hhalted.state, hhalted.unfresh⟩
  | wait now =>
    cases hdoes with
    | wait => exact ⟨hhalted.state, hhalted.unfresh⟩
  | go n =>
    obtain ⟨t, x, -, hmoved⟩ := hdoes.moved
    have ht := hmoved.mem
    have hs := h.solo
    have hkept : x.1.state = .stopped ∧ ∀ next, x.2 = .goes next → next.isFresh = false := by
      by_cases hid : t.id = id
      · have hsame : ∀ u ∈ s.tasks, u.id = id → u = t := fun u hu huid =>
          List.inj_on_of_nodup_map hs.distinct hu ht (huid.trans hid.symm)
        cases h.stage with
        | @fresh u hu huid hfresh =>
          rw [hhalted.unfresh u hu] at hfresh
          cases hfresh
        | @early u token hu huid htoken hfresh hearly hpreparing =>
          obtain rfl := hsame u hu huid
          have hcases := Player.opened_step u.id hpreparing hearly hfresh htoken
          rw [hmoved.step] at hcases
          obtain ⟨hopened, hstays⟩ := hcases.resolve_left hmoved.ready
          exact ⟨hstays hhalted.state, fun next hnext => (hopened.goes next hnext).2.1⟩
        | @late u token hu huid htoken hlate hsane hlines =>
          obtain rfl := hsame u hu huid
          have hplayback := hs.playback u hu hid
          have hfair := Player.fair_step u.id hsane hplayback hlate htoken
            fun line hline => hs.inHand hu hline (hlines u hu line hline).1
              (hlines u hu line hline).2
          have hready : (s.player.step u.id u.phase).2 ≠ .blocked := hmoved.step ▸ hmoved.ready
          have hturn : Player.Turn u.id s.player u.phase (s.player.step u.id u.phase) :=
            (Player.turn_playback hplayback hlate).resolve_left hready
          rw [hmoved.step] at hturn hfair
          refine ⟨hfair.stays hhalted.state, fun next hnext => ?_⟩
          cases hfresh : next.isFresh with
          | false => rfl
          | true => exact (Phase.isEarly_of_isFresh hfresh).symm.trans (hturn.late hnext)
        | ended hgone => exact absurd hid (hgone t ht)
      · have hstep := h.steps t ht hid
        have hstate := Player.state_step_of_idle t.id hstep hidle
        rw [hmoved.step] at hstate
        refine ⟨hstate.trans hhalted.state, fun next hnext => isFresh_of_isStep ?_⟩
        refine Player.isStep_step (p := s.player) t.id hstep ?_
        rw [hmoved.step]
        exact hnext
    refine ⟨by rw [hmoved.player]; exact hkept.1, fun u hu => ?_⟩
    rcases hmoved.cases hs.distinct hu with ⟨hold, -⟩ | ⟨-, hgoes⟩
    · exact hhalted.unfresh u hold
    · exact hkept.2 _ hgoes

lemma Staged.halted_runs (h : s.Staged id host played) (hhalted : s.Halted) (hr : s.Runs id s') :
    s'.Halted := by
  have hboth : s'.Staged id host played ∧ s'.Halted := by
    induction hr with
    | refl => exact ⟨h, hhalted⟩
    | tail _ hp ih => exact ⟨ih.1.passes hp, ih.1.halted ih.2 hp⟩
  exact hboth.2

/-- A stop takes effect on a playback that is active. -/
lemma Staged.halted_stop (h : s.Staged id host played) (htoken : s.player.token ≠ none)
    (hactive : s.player.state.isActive = true) :
    Halted { s with player := s.player.perform .stop } := by
  obtain ⟨token, hsome⟩ := Option.ne_none_iff_exists'.mp htoken
  refine ⟨(Player.stop_of_active hactive hsome).1, fun u hu => ?_⟩
  cases hfresh : u.phase.isFresh with
  | false => rfl
  | true =>
    exact absurd ((h.solo.early u hu (Phase.isEarly_of_isFresh hfresh)).2 hfresh) htoken

/-! ### The outcome -/

/-- When a playback has ended with a report, the outcome agrees with the state: it is a success if
and only if the state is `completed`, and then nothing is left to be executed; after a failure the
state is `stopped` or `failed`, which it is if and only if the script was refused; and after a stop
or a cancellation it is `stopped`.  A stop that has taken effect on an active playback leads to no
success.  All this holds whatever calls are made and whatever lines are executed by single steps
beside the playback, if the player is not stopped between a single step that has completed the
script and the playback that takes this up: the playback then reports a success in the state
`stopped`. -/
theorem outcome_agrees_with_state {request : Request} {r : Report} (hopening : s₀.Opening id)
    (hrequest : s₀.tasks = [⟨id, .entering request⟩]) (hs : s₀.Runs id s)
    (hr : s.answer? id = some (.report r)) :
    (r.outcome = .success ↔ s.player.state = .completed) ∧
      (r.outcome = .success →
        s.player.context.frames = [] ∧ s.player.context.lineCount ≤ s.player.context.cursor) ∧
      (r.outcome = .failure → s.player.state = .stopped ∨ s.player.state = .failed) ∧
      (s.player.state = .failed ↔ ∃ script, request.script? s₀.player.host = some script ∧
        s₀.player.host.Refuses script) ∧
      (r.outcome = .stopped ∨ r.outcome = .cancelled → s.player.state = .stopped) ∧
      ∀ s₁, s₀.Runs id s₁ → s₁.player.token ≠ none → s₁.player.state.isActive = true →
        s₁.player.deferred ≠ some .completed →
          Runs id { s₁ with player := s₁.player.perform .stop } s → r.outcome ≠ .success := by
  have hstaged := (Staged.of_opening hopening hrequest).runs hs
  have htold : Told s₀.player.host (request.script? s₀.player.host) s r := by
    have hgone : (∀ t ∈ s.tasks, t.id ≠ id) → s.Stage id s₀.player.host
        (request.script? s₀.player.host) → Told _ _ s r := fun hgone hstage => by
      cases hstage with
      | fresh ht hid | early ht hid | late ht hid => exact absurd hid (hgone _ ht)
      | ended _ _ htold => exact htold r hr
    refine hgone (fun t ht hid => ?_) hstaged.stage
    have hnone := hstaged.solo.unanswered ⟨t, ht, hid⟩
    rw [hr] at hnone
    cases hnone
  obtain ⟨haccords, hfailed, -⟩ := htold
  refine ⟨haccords.success, fun h => ⟨(haccords.spent h).frames, (haccords.spent h).cursor⟩,
    haccords.failure, hfailed, haccords.stopped,
    fun s₁ hs₁ htoken hactive hdeferred hs₂ hsuccess => ?_⟩
  have hstaged₁ := (Staged.of_opening hopening hrequest).runs hs₁
  have hpass : s₁.Passes id { s₁ with player := s₁.player.perform .stop } :=
    ⟨.call .stop, trivial, fun _ => hdeferred, .call⟩
  have hhalted := (hstaged₁.passes hpass).halted_runs (hstaged₁.halted_stop htoken hactive) hs₂
  cases hhalted.state.symm.trans (haccords.success.mp hsuccess)

/-! ### A duet with single steps -/

/-- A duet is to be played without an audience. -/
def rehearsal : Session :=
  submit { player := .create {} { capacity := 16 } none } 0 (.play duet .beginning false)

/-- The first line of the duet was executed, and the playback was paused. -/
def halfway : Session :=
  let s := ((rehearsal.turn 0).turn 0).turn 0
  { s with player := s.player.perform .pause }

/-- The rest of the duet was executed by two single steps. -/
def sungThrough : Session :=
  let s := (((halfway.turn 0).submit 1 .stepForward).turn 1).turn 1
  ((s.submit 2 .stepForward).turn 1).turn 1

lemma Runs.turn (h : s.Runs id s') (n : Nat) : s.Runs id (s'.turn n) := by
  rcases s'.turn_eq_or_does n with heq | ⟨t, -, hdoes⟩
  · rw [heq]
    exact h
  · exact Relation.ReflTransGen.tail h ⟨.go t.id, trivial, trivial, hdoes⟩

lemma runs_halfway : rehearsal.Runs 0 halfway := by
  have hplayed : rehearsal.Runs 0 (((rehearsal.turn 0).turn 0).turn 0) :=
    Runs.turn (Runs.turn (Runs.turn .refl 0) 0) 0
  exact hplayed.tail ⟨.call .pause, trivial, trivial, .call⟩

/-- The duet is completed by single steps, which the playback takes up, or it is stopped halfway. -/
theorem duet_ends_as_told :
    (∃ r, (sungThrough.turn 0).answer? 0 = some (.report r) ∧ r.outcome = .success ∧
      (sungThrough.turn 0).player.state = .completed) ∧
      ∃ s' r, Runs 0 { halfway with player := halfway.player.perform .stop } s' ∧
        s'.answer? 0 = some (.report r) ∧ r.outcome ≠ .success := by
  have hopening : rehearsal.Opening 0 := ⟨⟨_, rfl, rfl⟩, rfl, rfl, rfl⟩
  have hfresh : ∀ (s : Session) (n : Nat), s.tasks.all (·.id != n) = true → n ≠ 0 →
      rehearsal.Runs 0 s → rehearsal.Runs 0 (s.submit n .stepForward) := by
    intro s n hall hn hs
    refine hs.tail ⟨.submit n .stepForward, ⟨hn, rfl⟩, trivial, .submit fun t ht => ?_⟩
    simpa using List.all_eq_true.mp hall t ht
  have hfirst : rehearsal.Runs 0 ((((halfway.turn 0).submit 1 .stepForward).turn 1).turn 1) :=
    ((hfresh _ 1 rfl Nat.one_ne_zero (runs_halfway.turn 0)).turn 1).turn 1
  have hsung : rehearsal.Runs 0 (sungThrough.turn 0) :=
    (((hfresh _ 2 rfl (Nat.succ_ne_zero 1) hfirst).turn 1).turn 1).turn 0
  refine ⟨⟨_, rfl, rfl, ?_⟩, ?_⟩
  · exact (outcome_agrees_with_state hopening rfl hsung rfl).1.mp rfl
  · obtain ⟨s', hs'⟩ : ∃ s', s' =
        ({ halfway with player := halfway.player.perform .stop } : Session).turn 0 := ⟨_, rfl⟩
    obtain ⟨r, hr⟩ : ∃ r, s'.answer? 0 = some (.report r) := by
      rw [hs']
      exact ⟨_, rfl⟩
    have hruns : Runs 0 { halfway with player := halfway.player.perform .stop } s' := by
      rw [hs']
      exact Runs.turn .refl 0
    have hstopped : rehearsal.Runs 0 s' := by
      refine Relation.ReflTransGen.trans (runs_halfway.tail ?_) hruns
      exact ⟨.call .stop, trivial, fun _ => (Option.some_ne_none _).symm, .call⟩
    have hends := outcome_agrees_with_state hopening rfl hstopped hr
    exact ⟨s', r, hruns, hr, hends.2.2.2.2.2 halfway runs_halfway (Option.some_ne_none _) rfl
      (Option.some_ne_none _).symm hruns⟩

/-- A stop comes too late to be told while the playback waits for the line lock that the second step
has. -/
example :
    let s := (((halfway.turn 0).submit 1 .stepForward).turn 1).turn 1
    let s := (s.submit 2 .stepForward).turn 1
    let s := ({ s with player := s.player.perform .resume } : Session).turn 0
    let s := s.turn 1
    let s := ({ s with player := s.player.perform .stop } : Session).turn 0
    s.player.state = .stopped ∧
      (s.answer? 0).any (fun | .report r => r.outcome = .success | _ => false) = true := by
  decide

end Session

end Recital

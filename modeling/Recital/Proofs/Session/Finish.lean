import Recital.Proofs.Session.Pause

/-!
# A playback whose last line was executed

A line that ends the playback may be one of the playback itself, which then ends at once, or one
that was executed by a single step, which leaves the end for the playback.  In the first case the
playback is over (`Over`).  In the second one it is decided (`Decided`) until the playback takes the
end up, and over from then on.

A single step does not look whether an end has been left already, and a playback that is cancelled
may not look either.  Hence what is decided stays so only while no other step is waiting or
requested and the playback is not stopped or cancelled.
-/

namespace Recital

namespace Player

variable {p q : Player} {id : Nat} {phase : Phase} {f : Finish} {x : Player × Progress}
  {y : Player × LineProgress} {c : Call}

/-- What becomes of the line that a request executes in its next step, if it executes one. -/
def execution? (p : Player) (id : Nat) : Phase → Option (Player × LineProgress)
  | .playing _ line | .stepping line => some (p.stepLine line)
  | .playLock play =>
    if p.lineLock.isHeldBy id = true ∧ p.deferred.isNone = true ∧ p.state = .playing ∧
        p.context.takeBreakpoint.1 = none then
      some ({ p with context := p.context.takeBreakpoint.2 }.beginLine play.token)
    else none
  | .stepLock =>
    if p.lineLock.isHeldBy id = true ∧ p.stepRefusal? "step forward" = none then
      p.token.map fun token =>
        { p with context := { p.context with stepMode := true } }.beginLine token
    else none
  | _ => none

/-- A playback that has the line lock and is to begin a line executes it. -/
lemma execution?_playLock {play : Play} {context : Context} (hheld : p.lineLock.isHeldBy id = true)
    (hdeferred : p.deferred = none) (hstate : p.state = .playing)
    (htaken : p.context.takeBreakpoint = (none, context)) :
    p.execution? id (.playLock play) = some ({ p with context }.beginLine play.token) := by
  have hgo : p.lineLock.isHeldBy id = true ∧ p.deferred.isNone = true ∧ p.state = .playing ∧
      p.context.takeBreakpoint.1 = none :=
    ⟨hheld, by rw [hdeferred]; rfl, hstate, by rw [htaken]⟩
  rw [execution?, if_pos hgo, htaken]

/-- A request hands on what becomes of its line. -/
lemma step_of_execution (h : p.execution? id phase = some y) :
    phase.isSide = true ∧ p.step id phase = followStep y ∨
      phase.isPlayback = true ∧ ∃ play : Play, phase.token? = some play.token ∧
        p.step id phase = followPlay id play y := by
  cases phase with
  | playing play line =>
    cases h
    exact .inr ⟨rfl, play, rfl, rfl⟩
  | stepping line =>
    cases h
    exact .inl ⟨rfl, rfl⟩
  | playLock play =>
    simp only [execution?] at h
    split at h
    · next hgo =>
      obtain ⟨hheld, hdeferred, hstate, hbreak⟩ := hgo
      cases h
      refine .inr ⟨rfl, play, rfl, ?_⟩
      have hnot : ¬ (p.deferred.isSome || decide (p.state ≠ .playing)) = true := by
        rw [Option.isNone_iff_eq_none] at hdeferred
        simp [hdeferred, hstate]
      simp only [step]
      rw [if_pos hheld]
      unfold playLine
      rw [if_neg hnot]
      generalize p.context.takeBreakpoint = taken at hbreak
      obtain ⟨hit, context⟩ := taken
      cases hbreak
      rfl
    · cases h
  | stepLock =>
    simp only [execution?] at h
    split at h
    · next hgo =>
      obtain ⟨hheld, hrefusal⟩ := hgo
      obtain ⟨token, htoken, rfl⟩ := Option.map_eq_some_iff.mp h
      refine .inl ⟨rfl, ?_⟩
      simp only [step]
      rw [if_pos hheld]
      unfold beginStep
      rw [hrefusal, htoken]
    · cases h
  | _ => cases h

/-- Who executes a line has the line lock, and no playback is early meanwhile. -/
lemma held_of_execution (h : p.execution? id phase = some y) :
    phase.isEarly = false ∧ (phase.line? = none →
      p.lineLock.isHeldBy id = true ∧ p.state.isUnderway = true) := by
  cases phase with
  | playing play line | stepping line => exact ⟨rfl, fun h => nomatch h⟩
  | playLock play =>
    simp only [execution?] at h
    split at h
    · next hgo =>
      refine ⟨rfl, fun _ => ⟨hgo.1, ?_⟩⟩
      rw [hgo.2.2.1]
      rfl
    · cases h
  | stepLock =>
    simp only [execution?] at h
    split at h
    · next hgo =>
      refine ⟨rfl, fun _ => ⟨hgo.1, ?_⟩⟩
      have hrefusal := hgo.2
      unfold stepRefusal? at hrefusal
      split at hrefusal
      · next hstate => rw [hstate]; rfl
      · next hstate => rw [hstate]; rfl
      · cases hrefusal
    · cases h
  | _ => cases h

/-- How a playback ends depends on the end and on whether it was asked to stop. -/
lemma conclude_snd_eq (h : q.stopRequested = p.stopRequested) :
    (q.conclude f).2 = (p.conclude f).2 := by
  cases f with
  | cancelled => simp only [conclude, h]
  | completed | stopped | failed | halted => rfl

lemma Determines.of_eq {r : Report} (h : p.Determines f r)
    (hstop : q.stopRequested = p.stopRequested) (haccount : q.account = p.account) :
    q.Determines f r := by
  have hconclude := conclude_snd_eq (f := f) hstop
  refine ⟨?_, ?_, ?_, ?_⟩
  · rw [hconclude]
    exact h.outcome
  · rw [hconclude]
    exact h.fault
  · rw [hconclude]
    exact h.line
  · rw [haccount]
    exact h.account

/-- What tells a playback to end: it was asked to stop, or it was cancelled. -/
def signals (p : Player) : Bool × List Nat × Bool :=
  (p.stopRequested, p.cancelled, p.callerCancelled)

lemma isCancelled_of_signals (h : q.signals = p.signals) (t : Token) :
    q.isCancelled t = p.isCancelled t := by
  have hcancelled : q.cancelled = p.cancelled := congrArg (·.2.1) h
  have hcaller : q.callerCancelled = p.callerCancelled := congrArg (·.2.2) h
  simp only [isCancelled, hcancelled, hcaller]

lemma signals_moveFrom {run : Run} {a b : State} :
    (p.moveFrom run a b).2.signals = p.signals := by
  have hbearing := p.bearing_moveFrom run (a := a) (b := b)
  split at hbearing
  · exact congrArg (fun b : Bearing => b.rest.signals) hbearing
  · exact congrArg (fun b : Bearing => b.rest.signals) hbearing

/-- Other calls than those that end a playback give it no signal. -/
lemma signals_perform (hstop : c ≠ .stop) (hcancel : c ≠ .cancel) :
    (p.perform c).signals = p.signals := by
  cases c with
  | pause =>
    simp only [perform, pause]
    split
    · rfl
    · exact signals_moveFrom
    · rfl
    · rfl
  | resume =>
    simp only [perform, resume]
    split
    · exact signals_moveFrom
    · rfl
    · rfl
    · rfl
  | stop => exact absurd rfl hstop
  | cancel => exact absurd rfl hcancel
  | setSpeed speed =>
    simp only [perform, setSpeed]
    split <;> rfl
  | assign name value =>
    have hbearing : (p.setVariable p.run name value).bearing = p.bearing := bearing_setVariable _ _
    exact congrArg (fun b : Bearing => b.rest.signals) hbearing
  | unassignAll =>
    exact congrArg (fun b : Bearing => b.rest.signals) (p.bearing_clearVariables p.run)
  | addBreakpoint | removeBreakpoint | clearBreakpoints => rfl

end Player

namespace Session

variable {s s' s₀ s₁ : Session} {a : Action} {id : Nat} {f : Finish} {q : Player} {t : Task}
  {x : Player × Progress}

/-- What may happen while an end is left for the playback: it is not stopped or cancelled, and no
step is requested. -/
def Calm (id : Nat) : Action → Prop
  | .submit n r =>
    n ≠ id ∧ (Phase.entering r).isSide = true ∧ (Phase.entering r).isPending = false
  | .call .stop | .call .cancel => False
  | _ => True

lemma Calm.beside (h : Calm id a) : Beside id a := by
  cases a with
  | submit n r => exact ⟨h.1, h.2.1⟩
  | call | go | wait => trivial

/-- The playback stands where a player stands, and no line is in flight. -/
structure Settled (id : Nat) (q : Player) (s : Session) : Prop where
  solo : s.Solo id
  unlined : ∀ t ∈ s.tasks, t.phase.line? = none
  begun : s.player.bus.begun = q.bus.begun
  account : s.player.account = q.account

/-- An end is left for the playback, and nothing else can come between. -/
structure Decided (id : Nat) (f : Finish) (q : Player) (s : Session) : Prop extends
    Settled id q s where
  late : ∀ t ∈ s.tasks, t.phase.isEarly = false
  unpending : ∀ t ∈ s.tasks, t.phase.isPending = false
  playing : ∃ t ∈ s.tasks, t.id = id
  deferred : s.player.deferred = some f
  asked : s.player.stopRequested = q.stopRequested
  going : f = .cancelled ∨
    ∀ token, s.player.token = some token → s.player.isCancelled token = false

/-- The playback has ended with the report that an end determines. -/
structure Over (id : Nat) (f : Finish) (q : Player) (s : Session) : Prop extends
    Settled id q s where
  gone : ∀ t ∈ s.tasks, t.id ≠ id
  answered : ∃ r, s.answer? id = some (.report r) ∧ q.Determines f r

/-! ### After the end -/

/-- What is in progress has no line in flight after a step that leads to none. -/
lemma Settled.unlined_of_moved (h : s.Settled id q) (hmoved : s.Moved s' t x)
    (hnext : ∀ next, x.2 = .goes next → next.line? = none) :
    ∀ u ∈ s'.tasks, u.phase.line? = none := by
  intro u hu
  rcases hmoved.cases h.solo.distinct hu with ⟨hold, -⟩ | ⟨-, hgoes⟩
  · exact h.unlined u hold
  · exact hnext _ hgoes

/-- A request that has come to no line and may begin none takes none up. -/
lemma not_takes {p : Player} {phase : Phase} {b : Player.Bearing} {entered : Bool} {n : Nat}
    (hunlined : phase.line? = none) (hnot : ¬ Player.Begins n p phase) :
    ¬ Player.Takes n p phase b entered := by
  intro htakes
  cases htakes with
  | runs hline =>
    rw [hunlined] at hline
    cases hline
  | begins hbegins | completes hbegins => exact hnot hbegins

/-- A step of another request changes nothing about a playback that has ended. -/
lemma Over.go {n : Nat} (h : s.Over id f q) (hdoes : s.Does (.go n) s') : s'.Over id f q := by
  obtain ⟨t, x, -, hmoved⟩ := hdoes.moved
  have ht := hmoved.mem
  have hside := h.solo.side t ht (h.gone t ht)
  have hplayback := Phase.isPlayback_of_isSide hside
  have hlate : ∀ u ∈ s.tasks, u.phase.isEarly = false := fun u hu => by
    cases hearly : u.phase.isEarly with
    | false => rfl
    | true =>
      have hnot := Phase.isPlayback_of_isSide (h.solo.side u hu (h.gone u hu))
      rw [Phase.isPlayback_of_isEarly hearly] at hnot
      cases hnot
  have hnot : ¬ Player.Begins t.id s.player t.phase := fun hbegins => by
    rcases hbegins.driver with hpending | hrole
    · exact hbegins.token hpending (h.solo.finished h.gone)
    · rw [hplayback] at hrole
      cases hrole
  have hturn := h.solo.turn hlate hmoved
  have hgone : ∀ u ∈ s'.tasks, u.id ≠ id := fun u hu => by
    rcases hmoved.cases h.solo.distinct hu with ⟨hold, -⟩ | ⟨hut, -⟩
    · exact h.gone u hold
    · exact hut ▸ h.gone t ht
  have hanswer : s'.answer? id = s.answer? id := hmoved.answer?_of_ne (h.gone t ht)
  have hkept : (∀ next, x.2 = .goes next → next.line? = none) ∧
      x.1.bus.begun = s.player.bus.begun ∧ x.1.account = s.player.account := by
    cases hturn with
    | goes hline hleads hbearing hlock haccount =>
      refine ⟨fun next hnext => ?_, congrArg Player.Bearing.begun hbearing, haccount⟩
      cases hnext
      exact hleads.unlined
    | leaves hline hside hbearing hlock haccount =>
      exact ⟨fun next hnext => Progress.noConfusion hnext, congrArg Player.Bearing.begun hbearing,
        haccount⟩
    | concludes hline hrole =>
      rw [hplayback] at hrole
      cases hrole
    | hit hbegins => exact absurd hbegins hnot
    | line htakes => exact absurd htakes (not_takes (h.unlined t ht) hnot)
  obtain ⟨hnext, hbegun, haccount⟩ := hkept
  exact
    { solo := h.solo.go hdoes
      unlined := h.unlined_of_moved hmoved hnext
      begun := by rw [hmoved.player, hbegun, h.begun]
      account := by rw [hmoved.player, haccount, h.account]
      gone := hgone
      answered := by rw [hanswer]; exact h.answered }

/-- Whatever happens beside a playback that has ended changes nothing about it. -/
lemma Over.does (h : s.Over id f q) (ha : Beside id a) (hdoes : s.Does a s') : s'.Over id f q := by
  have hsolo := h.solo.does ha hdoes
  cases a with
  | submit n r =>
    cases hdoes with
    | submit =>
      have hmem : ∀ u ∈ (s.submit n r).tasks, u ∈ s.tasks ∨ u = ⟨n, .entering r⟩ := fun u hu =>
        (List.mem_append.mp hu).imp_right List.mem_singleton.mp
      refine ⟨⟨hsolo, fun u hu => ?_, h.begun, h.account⟩, fun u hu => ?_, h.answered⟩
      · rcases hmem u hu with hu | rfl
        · exact h.unlined u hu
        · rfl
      · rcases hmem u hu with hu | rfl
        · exact h.gone u hu
        · exact ha.1
  | call c =>
    cases hdoes with
    | call =>
      have hspared := Player.spared_perform (p := s.player) (c := c)
      exact ⟨⟨hsolo, h.unlined, hspared.begun.trans h.begun, hspared.account.trans h.account⟩,
        h.gone, h.answered⟩
  | go n => exact h.go hdoes
  | wait now =>
    cases hdoes with
    | wait => exact ⟨⟨hsolo, h.unlined, h.begun, h.account⟩, h.gone, h.answered⟩

/-! ### Before the end is taken up -/

/-- The playback ends with what was left for it. -/
lemma Decided.concluded {p : Player} (h : s.Decided id f q) (hdoes : s.Does (.go t.id) s')
    (hmoved : s.Moved s' t x) (hid : t.id = id) (hended : Player.Ended p f x)
    (hbegun : p.bus.begun = s.player.bus.begun) (haccount : p.account = s.player.account)
    (hasked : p.stopRequested = s.player.stopRequested) : s'.Over id f q := by
  obtain ⟨r, hr, hdetermines⟩ := hended.report
  have hnone : s.answer? t.id = none := hid ▸ h.solo.unanswered ⟨t, hmoved.mem, hid⟩
  refine
    { solo := h.solo.go hdoes
      unlined := h.unlined_of_moved hmoved fun next hnext => ?_
      begun := by rw [hmoved.player, hended.begun, hbegun, h.begun]
      account := by rw [hmoved.player, hended.account, haccount, h.account]
      gone := fun u hu => ?_
      answered := ⟨r, hid ▸ hmoved.answer?_of_ends hr hnone, ?_⟩ }
  · rw [hr] at hnext
    cases hnext
  · rcases hmoved.cases h.solo.distinct hu with ⟨-, hne⟩ | ⟨-, hgoes⟩
    · exact hid ▸ hne
    · rw [hr] at hgoes
      cases hgoes
  · exact hdetermines.of_eq (hasked.trans h.asked).symm (haccount.trans h.account).symm

/-- While an end is left for the playback, a step of a request changes nothing, or the playback
takes the end up. -/
lemma Decided.go {n : Nat} (h : s.Decided id f q) (hdoes : s.Does (.go n) s') :
    s'.Decided id f q ∨ s'.Over id f q := by
  obtain ⟨t, x, rfl, hmoved⟩ := hdoes.moved
  have ht := hmoved.mem
  have hturn := h.solo.turn h.late hmoved
  have hnot : ¬ Player.Begins t.id s.player t.phase := fun hbegins => by
    have hnone := hbegins.deferred (h.unpending t ht)
    rw [h.deferred] at hnone
    cases hnone
  -- A step that changes nothing but the lock, and after which the playback is still in progress.
  have hstays : (∀ next, x.2 = .goes next → t.phase.Leads next) →
      (t.id = id → ∃ next, x.2 = .goes next) →
      x.1.bearing = { s.player.bearing with lock := x.1.lineLock } →
      x.1.account = s.player.account → s'.Decided id f q := by
    intro hleads hplays hbearing haccount
    have hsignals : x.1.signals = s.player.signals :=
      congrArg (fun b : Player.Bearing => b.rest.signals) hbearing
    have htoken : x.1.token = s.player.token :=
      congrArg (fun b : Player.Bearing => b.rest.token) hbearing
    have hdeferred : x.1.deferred = s.player.deferred :=
      congrArg (fun b : Player.Bearing => b.rest.deferred) hbearing
    have hcases := fun u hu => hmoved.cases h.solo.distinct (u := u) hu
    refine
      { solo := h.solo.go hdoes
        unlined := h.unlined_of_moved hmoved fun next hnext => (hleads next hnext).unlined
        begun := by
          rw [hmoved.player, ← h.begun]
          exact congrArg Player.Bearing.begun hbearing
        account := by rw [hmoved.player, haccount, h.account]
        late := fun u hu => ?_
        unpending := fun u hu => ?_
        playing := ?_
        deferred := ?_
        asked := ?_
        going := h.going.imp_right fun hgoing token htok => ?_ }
    · rcases hcases u hu with ⟨hold, -⟩ | ⟨-, hgoes⟩
      · exact h.late u hold
      · exact (hleads _ hgoes).late
    · rcases hcases u hu with ⟨hold, -⟩ | ⟨-, hgoes⟩
      · exact h.unpending u hold
      · cases hpending : u.phase.isPending with
        | false => rfl
        | true =>
          have hwas := (hleads _ hgoes).pending hpending
          rw [h.unpending t ht] at hwas
          cases hwas
    · obtain ⟨u, hu, hid⟩ := h.playing
      by_cases hut : u = t
      · obtain ⟨next, hnext⟩ := hplays (hut ▸ hid)
        exact ⟨⟨t.id, next⟩, hmoved.mem_next hnext, hut ▸ hid⟩
      · exact ⟨u, hmoved.mem_of_ne hu hut, hid⟩
    · rw [hmoved.player]
      exact hdeferred.trans h.deferred
    · rw [hmoved.player, ← h.asked]
      exact congrArg Prod.fst hsignals
    · rw [hmoved.player] at htok ⊢
      rw [Player.isCancelled_of_signals hsignals]
      exact hgoing token (htoken.symm.trans htok)
  cases hturn with
  | goes hline hleads hbearing hlock haccount =>
    refine .inl (hstays (fun next hnext => ?_) (fun _ => ⟨_, rfl⟩) hbearing haccount)
    cases hnext
    exact hleads
  | leaves hline hside hbearing hlock haccount =>
    refine .inl (hstays (fun next hnext => Progress.noConfusion hnext) (fun hid => ?_) hbearing
      haccount)
    have hplayback := h.solo.playback t ht hid
    rw [Phase.isPlayback_of_isSide hside] at hplayback
    cases hplayback
  | @concludes lock f' x hline hplayback hlock hended hf =>
    have hid : t.id = id := by
      by_contra hne
      have hside := h.solo.side t ht hne
      rw [Phase.isSide_of_isPlayback hplayback] at hside
      cases hside
    have heq : f' = f := by
      rw [h.deferred] at hf
      rcases hf with hf | hf | ⟨hcancelled, token, htoken, htrue⟩
      · exact (Option.some.inj hf).symm
      · cases hf
      · rcases h.going with hfinish | hgoing
        · rw [hcancelled, hfinish]
        · rw [hgoing token (h.solo.token t ht token htoken)] at htrue
          cases htrue
    rw [heq] at hended
    exact .inr (h.concluded hdoes hmoved hid hended rfl rfl rfl)
  | hit hbegins => exact absurd hbegins hnot
  | line htakes => exact absurd htakes (not_takes (h.unlined t ht) hnot)

/-- While an end is left for the playback, whatever is calm changes nothing, or the playback takes
the end up. -/
lemma Decided.does (h : s.Decided id f q) (ha : Calm id a) (hdoes : s.Does a s') :
    s'.Decided id f q ∨ s'.Over id f q := by
  have hsolo := h.solo.does ha.beside hdoes
  cases a with
  | submit n r =>
    cases hdoes with
    | submit =>
      obtain ⟨hne, hside, hpending⟩ := ha
      have hmem : ∀ u ∈ (s.submit n r).tasks, u ∈ s.tasks ∨ u = ⟨n, .entering r⟩ := fun u hu =>
        (List.mem_append.mp hu).imp_right List.mem_singleton.mp
      refine .inl ⟨⟨hsolo, fun u hu => ?_, h.begun, h.account⟩, fun u hu => ?_, fun u hu => ?_, ?_,
        h.deferred, h.asked, h.going⟩
      · rcases hmem u hu with hu | rfl
        · exact h.unlined u hu
        · rfl
      · rcases hmem u hu with hu | rfl
        · exact h.late u hu
        · cases hearly : (Phase.entering r).isEarly with
          | false => rfl
          | true =>
            have hplayback := Phase.isPlayback_of_isSide hside
            rw [Phase.isPlayback_of_isEarly hearly] at hplayback
            cases hplayback
      · rcases hmem u hu with hu | rfl
        · exact h.unpending u hu
        · exact hpending
      · obtain ⟨u, hu, hid⟩ := h.playing
        exact ⟨u, List.mem_append_left _ hu, hid⟩
  | call c =>
    have hstop : c ≠ .stop := by
      rintro rfl
      exact ha
    have hcancel : c ≠ .cancel := by
      rintro rfl
      exact ha
    cases hdoes with
    | call =>
      have hspared := Player.spared_perform (p := s.player) (c := c)
      have hsignals := Player.signals_perform (p := s.player) hstop hcancel
      refine .inl ⟨⟨hsolo, h.unlined, hspared.begun.trans h.begun, hspared.account.trans h.account⟩,
        h.late, h.unpending, h.playing, hspared.deferred.trans h.deferred,
        (congrArg Prod.fst hsignals).trans h.asked, h.going.imp_right fun hgoing token htoken => ?_⟩
      rw [Player.isCancelled_of_signals hsignals]
      exact hgoing token (hspared.token.symm.trans htoken)
  | go n => exact h.go hdoes
  | wait now =>
    cases hdoes with
    | wait =>
      exact .inl ⟨⟨hsolo, h.unlined, h.begun, h.account⟩, h.late, h.unpending,
        h.playing, h.deferred,
        h.asked, h.going⟩

/-! ### The last line -/

/-- After a line that ends the playback, the playback is over, or the end is left for it. -/
lemma Solo.decided_or_over (h : s.Solo id) (hdoes : s.Does (.go t.id) s₁) (hmoved : s.Moved s₁ t x)
    (hline : s.player.execution? t.id t.phase = some (q, .ends (.finished f)))
    (hcalm : t.id ≠ id → (∃ u ∈ s.tasks, u.id = id) ∧ s₁.pending = 0 ∧ (f = .cancelled ∨
      ∀ token, s₁.player.token = some token → s₁.player.isCancelled token = false)) :
    t.id ≠ id ∧ s₁.Decided id f q ∨ s₁.Over id f q := by
  have ht := hmoved.mem
  have hsolo := h.go hdoes
  obtain ⟨hearly, hbegins⟩ := Player.held_of_execution hline
  have hheld : s.player.lineLock.isHeldBy t.id = true := by
    cases hlined : t.phase.line? with
    | none => exact (hbegins hlined).1
    | some line => exact h.held t ht line hlined
  have hcases := fun u hu => hmoved.cases h.distinct (u := u) hu
  have hunlined : ∀ u ∈ s.tasks, u ≠ t → u.phase.line? = none := fun u hu hne => by
    cases hlined : u.phase.line? with
    | none => rfl
    | some line => exact absurd (h.eq_of_line ht hu hheld hlined) hne
  have hothers : ∀ answer, x.2 = .ends answer → ∀ u ∈ s₁.tasks, u ∈ s.tasks ∧ u.id ≠ t.id := by
    intro answer hends u hu
    rcases hcases u hu with hold | ⟨-, hgoes⟩
    · exact hold
    · rw [hends] at hgoes
      cases hgoes
  have hnone : ∀ answer, x.2 = .ends answer → ∀ u ∈ s₁.tasks, u.phase.line? = none := by
    intro answer hends u hu
    obtain ⟨hold, hne⟩ := hothers answer hends u hu
    exact hunlined u hold fun heq => hne (congrArg Task.id heq)
  rcases Player.step_of_execution hline with ⟨hside, hstep⟩ | ⟨hplayback, play, -, hstep⟩
  · -- A single step leaves the end for the playback.
    have hne : t.id ≠ id := fun hid => by
      have hplayback := h.playback t ht hid
      rw [Phase.isPlayback_of_isSide hside] at hplayback
      cases hplayback
    obtain ⟨⟨v, hv, hvid⟩, hpending, hgoing⟩ := hcalm hne
    obtain ⟨p, hp⟩ : ∃ p : Player, p = { q with context := { q.context with stepMode := false } } :=
      ⟨_, rfl⟩
    have hx : x = ({ p.defer f with lineLock := (p.defer f).lineLock.release }, .ends .done) := by
      rw [← hmoved.step, hstep, hp]
      rfl
    have hdefer := Player.bearing_defer p f
    have hdeferred : (p.defer f).deferred = some f :=
      congrArg (fun b : Player.Bearing => b.rest.deferred) hdefer
    have hcontext : (p.defer f).context = p.context :=
      congrArg (fun g : Player.Gist => g.core.context) (Player.gist_moveFrom _ _)
    have hplayer : s₁.player = { p.defer f with lineLock := (p.defer f).lineLock.release } := by
      rw [hmoved.player, hx]
    refine .inl ⟨hne, ?_⟩
    refine
      { solo := hsolo
        unlined := hnone .done (by rw [hx])
        begun := ?_
        account := ?_
        late := fun u hu => ?_
        unpending := fun u hu => ?_
        playing := ⟨v, hmoved.mem_of_ne hv fun heq => hne (heq ▸ hvid), hvid⟩
        deferred := by rw [hplayer]; exact hdeferred
        asked := ?_
        going := hgoing }
    · rw [hplayer]
      have hbegun : (p.defer f).bus.begun = p.bus.begun := congrArg Player.Bearing.begun hdefer
      exact hbegun.trans (by rw [hp])
    · have haccount : (p.defer f).account = p.account := by
        unfold Player.account
        rw [hcontext]
      rw [hplayer]
      exact haccount.trans (by rw [hp]; rfl)
    · obtain ⟨hold, -⟩ := hothers .done (by rw [hx]) u hu
      cases hue : u.phase.isEarly with
      | false => rfl
      | true =>
        have hnot := h.unlined u hold hue t ht
        rw [(h.early u hold hue).1] at hbegins
        cases (hbegins hnot).2
    · exact Bool.not_eq_true _ ▸ List.countP_eq_zero.mp hpending u hu
    · rw [hplayer]
      have hasked : (p.defer f).stopRequested = p.stopRequested :=
        congrArg (fun b : Player.Bearing => b.rest.stopRequested) hdefer
      exact hasked.trans (by rw [hp])
  · -- The playback ends with its line.
    have hid : t.id = id := by
      by_contra hne
      have hside := h.side t ht hne
      rw [Phase.isSide_of_isPlayback hplayback] at hside
      cases hside
    have hended : Player.Ended { q with lineLock := q.lineLock.release } f x := by
      rw [← hmoved.step, hstep]
      exact Player.ended_finish _ f
    obtain ⟨r, hr, hdetermines⟩ := hended.report
    have hunanswered : s.answer? t.id = none := hid ▸ h.unanswered ⟨t, ht, hid⟩
    refine .inr
      { solo := hsolo
        unlined := hnone _ hr
        begun := by rw [hmoved.player, hended.begun]
        account := by rw [hmoved.player, hended.account]; rfl
        gone := fun u hu => hid ▸ (hothers _ hr u hu).2
        answered := ⟨r, hid ▸ hmoved.answer?_of_ends hr hunanswered, ?_⟩ }
    exact hdetermines.of_eq rfl rfl

/-- Once a line of a playback has come to an end of the playback, no further line is begun, the
lines that were executed are no longer counted up, and the playback ends with the report that the
end determines.  This holds whatever is done beside the playback if the line was one of the playback
itself.  If a single step has executed it, it holds as long as no other step is waiting or requested
and the playback is not stopped or cancelled: then the end is left for the playback until it takes
it up. -/
theorem finished_playback_stays_finished (hopening : s₀.Opening id)
    (hs : s₀.Evolves (Beside id) s) (ht : t ∈ s.tasks)
    (hline : s.player.execution? t.id t.phase = some (q, .ends (.finished f)))
    (hdoes : s.Does (.go t.id) s₁)
    (hcalm : t.id ≠ id → (∃ u ∈ s.tasks, u.id = id) ∧ s₁.pending = 0 ∧ (f = .cancelled ∨
      ∀ token, s₁.player.token = some token → s₁.player.isCancelled token = false))
    (hs' : s₁.Evolves (fun a => Beside id a ∧ (t.id ≠ id → Calm id a)) s') :
    s'.player.bus.begun = q.bus.begun ∧
      s'.player.context.linesExecuted = q.context.linesExecuted ∧
      ((∃ u ∈ s'.tasks, u.id = id) ∧ s'.player.deferred = some f ∨
        ∃ r, s'.answer? id = some (.report r) ∧ q.Determines f r) := by
  have hsolo := (Solo.of_opening hopening).evolves hs
  obtain ⟨u, x, hid, hmoved⟩ := hdoes.moved
  obtain rfl : u = t := List.inj_on_of_nodup_map hsolo.distinct hmoved.mem ht hid
  have hstays : u.id ≠ id ∧ s'.Decided id f q ∨ s'.Over id f q := by
    induction hs' with
    | refl => exact hsolo.decided_or_over hdoes hmoved hline hcalm
    | tail _ hmay ih =>
      obtain ⟨a, ⟨hbeside, hcalms⟩, hdoes'⟩ := hmay
      rcases ih with ⟨hne, hdecided⟩ | hover
      · exact (hdecided.does (hcalms hne) hdoes').imp_left fun h => ⟨hne, h⟩
      · exact .inr (hover.does hbeside hdoes')
  have hlines : s'.player.account = q.account →
      s'.player.context.linesExecuted = q.context.linesExecuted :=
    fun h => congrArg (fun a : String × Nat × Nat => a.2.1) h
  rcases hstays with ⟨-, hdecided⟩ | hover
  · exact ⟨hdecided.begun, hlines hdecided.account, .inl ⟨hdecided.playing, hdecided.deferred⟩⟩
  · exact ⟨hover.begun, hlines hover.account, .inr hover.answered⟩

/-! ### A stop that is stepped through -/

/-- A text, and a stop. -/
def finale : Script := ⟨"finale", [.text "one", .command "@stop enough" (some (.stop "enough"))]⟩

/-- The finale is to be played, and its text to be shown for a while. -/
def hall : Session :=
  submit
    { player := .create { presenter := some { span := .ofMillis 10 } } { capacity := 16 } none }
    0 (.play finale .beginning false)

/-- The playback was paused while the text was shown. -/
def intermission : Session :=
  let s := ((hall.turn 0).turn 0).turn 0
  ((Session.setClock { s with player := s.player.perform .pause } 10)).turn 0

/-- The stop is being executed by a single step. -/
def closing : Session := ((intermission.submit 1 .stepForward).turn 1).turn 1

lemma evolves_closing : hall.Evolves (Beside 0) closing := by
  have hshown : hall.Evolves (Beside 0) (((hall.turn 0).turn 0).turn 0) :=
    Evolves.turn (Evolves.turn (Evolves.turn .refl (fun _ => trivial) 0) (fun _ => trivial) 0)
      (fun _ => trivial) 0
  have hpaused := hshown.tail (a := .call .pause) trivial .call
  have hwaited := hpaused.tail (a := .wait 10) trivial (.wait (Nat.zero_le _))
  have hrest : hall.Evolves (Beside 0) intermission := hwaited.turn (fun _ => trivial) 0
  have hasked : hall.Evolves (Beside 0) (intermission.submit 1 .stepForward) := by
    refine hrest.tail (a := .submit 1 .stepForward) ⟨Nat.one_ne_zero, rfl⟩ (.submit fun t ht => ?_)
    have hall : intermission.tasks.all (·.id == 0) = true := rfl
    have hid : t.id = 0 := by simpa using List.all_eq_true.mp hall t ht
    rw [hid]
    exact Nat.zero_ne_one
  exact (hasked.turn (fun _ => trivial) 1).turn (fun _ => trivial) 1

/-- The stop is left for the playback, which is paused and resumed before it takes the end up. -/
theorem finale_stays_finished :
    let s₁ := closing.turn 1
    let s₂ := { s₁ with player := s₁.player.perform .pause }
    let s₃ := { s₂ with player := s₂.player.perform .resume }
    let s' := s₃.turn 0
    s₂.player.state = .paused ∧ s'.player.bus.begun = [0, 1] ∧
      s'.player.context.linesExecuted = 2 ∧
      ∃ r, s'.answer? 0 = some (.report r) ∧ r.outcome = .stopped ∧ r.linesExecuted = 2 := by
  intro s₁ s₂ s₃ s'
  obtain ⟨t, q, ht, hid, hready, hline, hbegun, hlines⟩ : ∃ t q, closing.tasks[1]? = some t ∧
      t.id = 1 ∧ (closing.player.step t.id t.phase).2 = .ends .done ∧
      closing.player.execution? t.id t.phase = some (q, .ends (.finished (.stopped "enough"))) ∧
      q.bus.begun = [0, 1] ∧ q.context.linesExecuted = 2 :=
    ⟨_, _, rfl, rfl, rfl, rfl, rfl, rfl⟩
  have hdoes : closing.Does (.go t.id) s₁ := by
    refine does_turn ht ?_
    rw [hready]
    exact Progress.noConfusion
  have hallowed : ∀ n, Beside 0 (.go n) ∧ (t.id ≠ 0 → Calm 0 (.go n)) := fun _ =>
    ⟨trivial, fun _ => trivial⟩
  have hpaused : s₁.Evolves (fun a => Beside 0 a ∧ (t.id ≠ 0 → Calm 0 a)) s₂ :=
    Evolves.tail (a := .call .pause) .refl ⟨trivial, fun _ => trivial⟩ .call
  have hresumed := hpaused.tail (a := .call .resume) ⟨trivial, fun _ => trivial⟩ .call
  have hturn := Evolves.turn hresumed hallowed 0
  have hstays := finished_playback_stays_finished ⟨⟨_, rfl, rfl⟩, rfl, rfl, rfl⟩ evolves_closing
    (List.mem_of_getElem? ht) hline hdoes
    (fun _ => ⟨⟨_, List.mem_cons_self, rfl⟩, rfl, .inr fun token htoken => by cases htoken; rfl⟩)
    hturn
  obtain ⟨hbegun', hlines', hleft | ⟨r, hanswer, hr⟩⟩ := hstays
  · obtain ⟨⟨u, hu, -⟩, -⟩ := hleft
    have hempty : s'.tasks = [] := rfl
    rw [hempty] at hu
    exact absurd hu List.not_mem_nil
  · have haccount := congrArg (fun a : String × Nat × Nat => a.2.1) hr.account
    exact ⟨rfl, hbegun'.trans hbegun, hlines'.trans hlines, r, hanswer, hr.outcome,
      haccount.trans hlines⟩

end Session

end Recital

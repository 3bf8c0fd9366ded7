import Mathlib.Logic.Function.Iterate
import Recital.Proofs.Player.Between
import Recital.Proofs.Player.Round
import Recital.Proofs.Twin.Line

/-!
# Loops of twins

A request goes on as soon as it can, and time passes only while it waits (`Player.onward`).  A
playback that is afoot goes round in its loop in this way: it waits at the head of the loop for the
end of a pause or for the line lock, it executes a line, and it lets the delay after the line pass.
`Player.Afoot` says how things stand in each of these phases.

Twins that execute a line or wait for the end of a delay do so in lockstep, whether they are paused
or not (`Twin.onward`).  A playback that is paused then stays at the head of its loop, while one
that is not paused begins the next line.
-/

namespace Recital

namespace Phase

/-- The playback is at the head of its loop. -/
def isHead : Phase → Bool
  | .paused _ | .playLock _ => true
  | _ => false

/-- The playback holds the line lock. -/
def holds : Phase → Bool
  | .playLock _ | .playing .. => true
  | _ => false

/-- The state was changed to `waiting`. -/
def entered : Phase → Bool
  | .playing _ line => line.entered
  | _ => false

/-- The same phase of a playback, by the clocks of twins. -/
inductive Twin (stepped : Bool) (host : Host) (now k : Nat) : Phase → Phase → Prop
  | head {a b : Phase} (ha : a.isHead = true) (hb : b.isHead = true) : Twin stepped host now k a b
  | delaying {a b : Play} {until_ : Nat} :
    Twin stepped host now k (.delaying a until_) (.delaying b (until_ + k))
  | playing {a b : Play} {line line' : LinePhase} (hline : line.Twin stepped host now k line') :
    Twin stepped host now k (.playing a line) (.playing b line')

/-- The phase stays the same while time passes. -/
lemma Twin.tick {stepped : Bool} {host : Host} {now k : Nat} {a b : Phase}
    (h : Twin stepped host now k a b) : Twin stepped host (now + 1) k a b := by
  cases h with
  | head ha hb => exact .head ha hb
  | delaying => exact .delaying
  | playing hline => exact .playing hline.tick

/-- Twins are at the heads of their loops together. -/
lemma Twin.isHead_eq {stepped : Bool} {host : Host} {now k : Nat} {a b : Phase}
    (h : Twin stepped host now k a b) : a.isHead = b.isHead := by
  cases h with
  | head ha hb => rw [ha, hb]
  | delaying | playing => rfl

end Phase

namespace Player

/-- A request goes on as soon as it can; while it cannot, a millisecond passes. -/
def onward (id : Nat) (c : Player × Progress) : Player × Progress :=
  match c.2 with
  | .goes phase =>
    match c.1.step id phase with
    | (_, .blocked) => (c.1.at_ (c.1.now + 1), .goes phase)
    | d => d
  | _ => c

variable {stepped free free' : Bool} {id k : Nat} {token : Token} {p q : Player} {a b : Phase}
  {play : Play}

/-- A request that cannot go on lets time pass. -/
lemma onward_of_blocked (h : (p.step id a).2 = .blocked) :
    onward id (p, .goes a) = (p.at_ (p.now + 1), .goes a) := by
  unfold onward
  dsimp only
  split
  · rfl
  · next hne => exact absurd (Prod.ext rfl h : p.step id a = ((p.step id a).1, .blocked)) (hne _)

/-- A request that can go on does so. -/
lemma onward_of_ready (h : (p.step id a).2 ≠ .blocked) :
    onward id (p, .goes a) = p.step id a := by
  unfold onward
  dsimp only
  split
  · next hb => exact absurd (congrArg Prod.snd hb) h
  · rfl

/-! ### How a playback stands -/

/-- The playback of a token while it executes a line or is about to; one that is free to go on is
not paused and no pause was asked for. -/
structure Poised (id : Nat) (token : Token) (free entered : Bool) (b : Bearing) : Prop where
  deferred : b.rest.deferred = none
  going : b.rest.isCancelled token = false
  unsaved : b.rest.host.config.pacing.autosaveInterval = none
  lock : b.lock = { holder := some id }
  state : if entered then b.state = .waiting else b.state = .playing ∨ b.state = .paused
  free : free = true → b.state ≠ .paused ∧ b.pauseRequested = false

/-- The playback of a token in a phase of its loop. -/
structure Afoot (id : Nat) (token : Token) (free : Bool) (p : Player) (phase : Phase) : Prop where
  owner : phase.token? = some token
  poised : Poised id token free phase.entered { p.bearing with lock := { holder := some id } }
  lock : p.lineLock = if phase.holds then { holder := some id } else {}

/-- How a playback stands when its line was taken on. -/
def PoisedLine (id : Nat) (token : Token) (free : Bool) (x : Player × LineProgress) : Prop :=
  match x.2 with
  | .blocked => False
  | .goes line => Poised id token free line.entered x.1.bearing
  | .ends _ => Poised id token free false x.1.bearing

namespace Poised

variable {entered : Bool} {b : Bearing}

/-- After an attempt the state is no longer `waiting`. -/
lemma left (h : Poised id token free entered b) : Poised id token free false (b.left entered) := by
  cases entered with
  | false =>
    rw [Bearing.left_false]
    exact h
  | true =>
    have hstate : b.state = .waiting := h.state
    have hleft : b.left true = { b with state := .playing } := if_pos ⟨rfl, hstate⟩
    rw [hleft]
    exact ⟨h.deferred, h.going, h.unsaved, h.lock, .inl rfl,
      fun hfree => ⟨State.noConfusion, (h.free hfree).2⟩⟩

/-- A pause that takes effect pauses a playback that was not free to go on. -/
lemma settled (h : Poised id token free false b) : Poised id token free false b.settled := by
  unfold Bearing.settled
  split
  · next hpause =>
    refine ⟨h.deferred, h.going, h.unsaved, h.lock, ?_, fun hfree => ?_⟩
    · by_cases hstate : b.state = .playing
      · exact .inr (if_pos hstate)
      · have hpaused : b.state = .paused := h.state.resolve_left hstate
        exact .inr ((if_neg hstate).trans hpaused)
    · rw [(h.free hfree).2] at hpause
      cases hpause
  · exact h

/-- What becomes of the line of a playback that is afoot. -/
lemma follows {x : Player × LineProgress} (h : Poised id token free entered b)
    (hx : Follows entered b x) : PoisedLine id token free x := by
  obtain ⟨q, progress⟩ := x
  cases progress with
  | blocked => exact hx
  | goes line =>
    dsimp only [PoisedLine]
    rcases hx with ⟨hq, hentered⟩ | ⟨hq, hentered⟩
    · rw [hq, hentered]
      exact h
    · rw [hq, hentered]
      exact h.left
  | ends by_ =>
    dsimp only [PoisedLine]
    rcases hx with hq | ⟨hq, -⟩
    · rw [hq]
      exact h.left.settled
    · rw [hq]
      exact h.left

end Poised

namespace Afoot

/-- How a playback stands that holds the lock. -/
lemma held (h : Afoot id token free p a) (ha : a.holds = true) :
    Poised id token free a.entered p.bearing := by
  have hlock : p.bearing.lock = { holder := some id } := by
    have hlock := h.lock
    rw [ha] at hlock
    exact hlock
  have hsame : { p.bearing with lock := { holder := some id } } = p.bearing := by
    rw [← hlock]
  rw [← hsame]
  exact h.poised

lemma deferred (h : Afoot id token free p a) : p.deferred = none := h.poised.deferred

lemma going (h : Afoot id token free p a) : p.isCancelled token = false := h.poised.going

lemma state (h : Afoot id token free p a) (ha : a.entered = false) :
    p.state = .playing ∨ p.state = .paused := by
  have hstate := h.poised.state
  rw [ha] at hstate
  exact hstate

end Afoot

/-- A playback has come to a phase at the head of its loop: it waits there for the line lock if it
is free to go on, and for the end of the pause if it is paused. -/
structure Heads (id : Nat) (token : Token) (free : Bool) (p q : Player) (phase : Phase) : Prop where
  head : phase.isHead = true
  alike : Alike p q
  bearing : q.bearing = { p.bearing with lock := q.lineLock }
  afoot : Afoot id token free q phase
  going : free = true → ∃ play, phase = .playLock play
  paused : q.state = .paused → ∃ play, phase = .paused play

/-- A playback that goes on between two lines comes to the head of its loop. -/
lemma exists_continuePlay (htoken : play.token = token) (hlock : p.lineLock = {})
    (hpoised : Poised id token free false { p.bearing with lock := { holder := some id } }) :
    ∃ q phase, p.continuePlay id play = (q, .goes phase) ∧ Heads id token free p q phase := by
  have hgoing : p.isCancelled play.token = false := by
    rw [htoken]
    exact hpoised.going
  rcases hpoised.state with hstate | hstate
  · have hrequest : p.lineLock.request id = { holder := some id } := by
      rw [hlock]
      rfl
    exact ⟨_, _, continuePlay_eq hpoised.deferred hgoing hstate, rfl, ⟨rfl, rfl, rfl⟩, rfl,
      ⟨congrArg some htoken, hpoised, hrequest⟩, fun _ => ⟨play, rfl⟩,
      fun hpaused => State.noConfusion (hstate.symm.trans hpaused)⟩
  · have hpaused : p.state = .paused := hstate
    have hcontinue : p.continuePlay id play = (p, .goes (.paused play)) := if_pos hpaused
    exact ⟨_, _, hcontinue, rfl, .refl p, rfl, ⟨congrArg some htoken, hpoised, hlock⟩,
      fun hfree => absurd hstate (hpoised.free hfree).1, fun _ => ⟨play, rfl⟩⟩

/-- Twins whose playbacks are in the same phase of their loops or have come to the same end. -/
inductive Shadow (stepped free free' : Bool) (id : Nat) (token : Token) (k : Nat) :
    Player × Progress → Player × Progress → Prop
  | afoot {p q : Player} {a b : Phase} (h : Twin stepped k p q)
    (hphase : a.Twin stepped p.host p.now k b) (hp : Afoot id token free p a)
    (hq : Afoot id token free' q b) :
    Shadow stepped free free' id token k (p, .goes a) (q, .goes b)
  | ended {p q : Player} {r r' : Report} (h : Twin stepped k p q)
    (hr : r.timeless = r'.timeless) :
    Shadow stepped free free' id token k (p, .ends (.report r)) (q, .ends (.report r'))

lemma LineTwin.ready {x y : Player × LineProgress} (h : LineTwin stepped k x y) :
    x.2 ≠ .blocked ∧ y.2 ≠ .blocked := by
  cases h <;> exact ⟨LineProgress.noConfusion, LineProgress.noConfusion⟩

lemma Shadow.ready {c d : Player × Progress}
    (h : Shadow stepped free free' id token k c d) : c.2 ≠ .blocked ∧ d.2 ≠ .blocked := by
  cases h <;> exact ⟨Progress.noConfusion, Progress.noConfusion⟩

/-! ### The end -/

lemma alike_conclude (p : Player) (f : Finish) : Alike p (p.conclude f).1 := by
  cases f with
  | completed => exact alike_moveFrom.trans alike_moveIfAllowed
  | stopped | failed | halted | cancelled => exact alike_moveIfAllowed

/-- Twins come to the same end. -/
lemma Twin.finish (h : Twin stepped k p q) (f : Finish) :
    Shadow stepped free free' id token k (p.finish f) (q.finish f) := by
  have hrequested : p.stopRequested = q.stopRequested :=
    (congrArg Player.stopRequested h.essence : p.essence.stopRequested = q.essence.stopRequested)
  have hsame : (p.conclude f).2 = (q.conclude f).2 := by
    cases f with
    | cancelled => simp only [conclude, hrequested]
    | completed | stopped | failed | halted => rfl
  have hconcluded := h.of_alike (alike_conclude p f) (alike_conclude q f)
  have hreport : ((p.conclude f).1.report (p.conclude f).2.1 (p.conclude f).2.2).timeless =
      ((q.conclude f).1.report (q.conclude f).2.1 (q.conclude f).2.2).timeless := by
    have haccount : (p.conclude f).1.account = (q.conclude f).1.account :=
      (congrArg account hconcluded.essence :
        (p.conclude f).1.essence.account = (q.conclude f).1.essence.account)
    simp only [account, Prod.mk.injEq] at haccount
    simp only [report, Report.timeless, hsame, haccount]
  have hpublished : Twin stepped k
      ((p.conclude f).1.publishEnd
        ((p.conclude f).1.report (p.conclude f).2.1 (p.conclude f).2.2))
      ((q.conclude f).1.publishEnd
        ((q.conclude f).1.report (q.conclude f).2.1 (q.conclude f).2.2)) := by
    generalize (p.conclude f).1.report (p.conclude f).2.1 (p.conclude f).2.2 = r at *
    generalize (q.conclude f).1.report (q.conclude f).2.1 (q.conclude f).2.2 = r' at *
    have hfault : r.fault = r'.fault :=
      (congrArg Report.fault hreport : r.timeless.fault = r'.timeless.fault)
    have hname : r.scriptName = r'.scriptName :=
      (congrArg Report.scriptName hreport : r.timeless.scriptName = r'.timeless.scriptName)
    unfold publishEnd
    rw [hfault, hname, hconcluded.run_eq]
    split
    · exact hconcluded.publish _
    · refine hconcluded.publish_of_timeless ?_ rfl
      exact congrArg (Event.Payload.scriptCompleted r'.scriptName) hreport
  have hmeasured := hpublished.of_alike alike_measureMemory alike_measureMemory
  refine .ended ?_ hreport
  exact ⟨congrArg (fun r : Player => { r with token := none }) hmeasured.essence,
    hmeasured.story, hmeasured.setting⟩

/-! ### Between lines -/

/-- Twins come to the head of their loops. -/
lemma Twin.continuePlay {play' : Play} (h : Twin stepped k p q) (hplay : play.token = token)
    (hplay' : play'.token = token) (hp : p.lineLock = {}) (hq : q.lineLock = {})
    (hppoised : Poised id token free false { p.bearing with lock := { holder := some id } })
    (hqpoised : Poised id token free' false { q.bearing with lock := { holder := some id } }) :
    Shadow stepped free free' id token k (p.continuePlay id play) (q.continuePlay id play') := by
  obtain ⟨p', a, hpx, ha⟩ := exists_continuePlay hplay hp hppoised
  obtain ⟨q', b, hqx, hb⟩ := exists_continuePlay hplay' hq hqpoised
  rw [hpx, hqx]
  exact .afoot (h.of_alike ha.alike hb.alike) (.head ha.head hb.head) ha.afoot hb.afoot

/-- Without automatic saves, a playback goes on at once. -/
lemma autosave_eq (h : p.host.config.pacing.autosaveInterval = none) :
    p.autosave id play = p.continuePlay id play := by
  have hdue : p.autosaveDue play = none := by
    unfold autosaveDue
    rw [h]
  unfold autosave
  rw [hdue]

/-- Twins go on in the same way after a line. -/
lemma Twin.afterLine {play' : Play} (h : Twin stepped k p q) (hplay : play.token = token)
    (hplay' : play'.token = token) (hp : Poised id token free false p.bearing)
    (hq : Poised id token free' false q.bearing) (by_ : LineEnd) :
    Shadow stepped free free' id token k (p.afterLine id play by_)
      (q.afterLine id play' by_) := by
  obtain ⟨p', hp'⟩ : ∃ r, r = { p with lineLock := p.lineLock.release } := ⟨_, rfl⟩
  obtain ⟨q', hq'⟩ : ∃ r, r = { q with lineLock := q.lineLock.release } := ⟨_, rfl⟩
  have hreleased : Twin stepped k p' q' := by
    rw [hp', hq']
    exact ⟨h.essence, h.story, h.setting⟩
  have hfree : ∀ (free : Bool) (r : Player), Poised id token free false r.bearing →
      ({ r with lineLock := r.lineLock.release } : Player).lineLock = {} ∧
        Poised id token free false
          { ({ r with lineLock := r.lineLock.release } : Player).bearing with
            lock := { holder := some id } } := by
    intro free r hr
    have hlock : r.lineLock = { holder := some id } := hr.lock
    refine ⟨?_, hr.deferred, hr.going, hr.unsaved, rfl, hr.state, hr.free⟩
    rw [hlock]
    rfl
  obtain ⟨hplock, hppoised⟩ := hfree free p hp
  obtain ⟨hqlock, hqpoised⟩ := hfree free' q hq
  rw [← hp'] at hplock hppoised
  rw [← hq'] at hqlock hqpoised
  unfold Player.afterLine
  rw [← hp', ← hq']
  cases by_ with
  | finished f => exact hreleased.finish f
  | next =>
    have hdelay : p'.lineDelay = q'.lineDelay :=
      (congrArg Player.lineDelay hreleased.essence : p'.essence.lineDelay = q'.essence.lineDelay)
    dsimp only
    rw [hdelay]
    split
    · rw [autosave_eq (p := p') hppoised.unsaved, autosave_eq (p := q') hqpoised.unsaved]
      exact hreleased.continuePlay hplay hplay' hplock hqlock hppoised hqpoised
    · rw [hreleased.timer]
      exact .afoot hreleased .delaying ⟨congrArg some hplay, hppoised, hplock⟩
        ⟨congrArg some hplay', hqpoised, hqlock⟩

/-! ### Lines -/

/-- A playback that holds the line lock executes its line. -/
lemma Poised.afoot {line : LinePhase} (h : Poised id token free line.entered p.bearing)
    (hplay : play.token = token) : Afoot id token free p (.playing play line) :=
  ⟨congrArg some hplay, ⟨h.deferred, h.going, h.unsaved, rfl, h.state, h.free⟩, h.lock⟩

/-- What becomes of playbacks whose lines were taken on. -/
lemma LineTwin.followPlay {play' : Play} {x y : Player × LineProgress}
    (h : LineTwin stepped k x y) (id : Nat) (hplay : play.token = token)
    (hplay' : play'.token = token)
    (hx : PoisedLine id token free x) (hy : PoisedLine id token free' y) :
    Shadow stepped free free' id token k (Player.followPlay id play x)
      (Player.followPlay id play' y) := by
  cases h with
  | goes h hline =>
    exact .afoot h (.playing hline) (Poised.afoot hx hplay) (Poised.afoot hy hplay')
  | ends h => exact h.afterLine hplay hplay' hx hy _

/-! ### Time -/

lemma Twin.tick (h : Twin stepped k p q) :
    Twin stepped k (p.at_ (p.now + 1)) (q.at_ (q.now + 1)) where
  essence := h.essence
  story := h.story
  setting :=
    { later := by
        have hlater : q.now + 1 = p.now + 1 + k := by rw [h.later]; omega
        exact hlater
      evenly := h.setting.evenly
      blind := fun hstepped => ⟨(h.setting.blind hstepped).script, (h.setting.blind hstepped).loads⟩
      even := fun hunstepped => (h.setting.even hunstepped).of_eq rfl rfl rfl rfl rfl rfl }

/-- Time passes for one of the twins only. -/
lemma Twin.late (h : Twin stepped k p q) : Twin stepped (k + 1) p (q.at_ (q.now + 1)) where
  essence := h.essence
  story := h.story
  setting :=
    { later := congrArg (· + 1) h.later
      evenly := h.setting.evenly
      blind := h.setting.blind
      even := fun hunstepped => (h.setting.even hunstepped).of_eq rfl rfl rfl rfl rfl rfl }

lemma Afoot.at_ (h : Afoot id token free p a) (now : Nat) : Afoot id token free (p.at_ now) a where
  owner := h.owner
  poised := ⟨h.poised.deferred, h.poised.going, h.poised.unsaved, rfl, h.poised.state,
    h.poised.free⟩
  lock := h.lock

/-- A playback lets the delay after a line pass and then comes to the head of its loop. -/
lemma Afoot.delaying_cases {until_ : Nat} (h : Afoot id token free p (.delaying play until_)) :
    (p.now < until_ ∧
      onward id (p, .goes (.delaying play until_)) =
        (p.at_ (p.now + 1), .goes (.delaying play until_))) ∨
      (until_ ≤ p.now ∧ ∃ q b, onward id (p, .goes (.delaying play until_)) = (q, .goes b) ∧
        Heads id token free p q b) := by
  have hplay : play.token = token := Option.some.inj h.owner
  have hstep : p.step id (.delaying play until_) =
      if until_ ≤ p.now then p.continuePlay id play else (p, .blocked) := by
    simp only [step, hplay, h.going, Bool.false_and]
    rw [autosave_eq (p := p) h.poised.unsaved]
    rfl
  by_cases hnow : until_ ≤ p.now
  · obtain ⟨q, b, hq, hb⟩ := exists_continuePlay hplay h.lock h.poised
    rw [if_pos hnow, hq] at hstep
    refine .inr ⟨hnow, q, b, ?_, hb⟩
    rw [onward_of_ready (by rw [hstep]; exact Progress.noConfusion), hstep]
  · rw [if_neg hnow] at hstep
    exact .inl ⟨Nat.lt_of_not_le hnow, onward_of_blocked (congrArg Prod.snd hstep)⟩

/-- Twins that are past the head of their loops go on in lockstep, paused or not. -/
lemma Twin.onward (h : Twin stepped k p q) (hphase : a.Twin stepped p.host p.now k b)
    (hp : Afoot id token free p a) (hq : Afoot id token free' q b) (ha : a.isHead = false) :
    Shadow stepped free free' id token k (Player.onward id (p, .goes a))
      (Player.onward id (q, .goes b)) := by
  -- While both wait, a millisecond passes on each clock.
  have hwait : (p.step id a).2 = .blocked → (q.step id b).2 = .blocked →
      Shadow stepped free free' id token k (Player.onward id (p, .goes a))
        (Player.onward id (q, .goes b)) := by
    intro hpb hqb
    rw [onward_of_blocked hpb, onward_of_blocked hqb]
    exact .afoot h.tick hphase.tick (hp.at_ _) (hq.at_ _)
  cases hphase with
  | head ha' =>
    rw [ha'] at ha
    cases ha
  | @delaying play play' until_ =>
    rcases hp.delaying_cases with ⟨hnow, hpb⟩ | ⟨hnow, p', a, hp', ha⟩
    · rcases hq.delaying_cases with ⟨-, hqb⟩ | ⟨hnow', -⟩
      · rw [hpb, hqb]
        exact .afoot h.tick (.delaying) (hp.at_ _) (hq.at_ _)
      · rw [h.later] at hnow'
        exact absurd (Nat.le_of_add_le_add_right hnow') (Nat.not_le_of_lt hnow)
    · rcases hq.delaying_cases with ⟨hnow', -⟩ | ⟨-, q', b, hq', hb⟩
      · rw [h.later] at hnow'
        exact absurd hnow (Nat.not_le_of_lt (Nat.lt_of_add_lt_add_right hnow'))
      · rw [hp', hq']
        exact .afoot (h.of_alike ha.alike hb.alike) (.head ha.head hb.head) ha.afoot hb.afoot
  | @playing play play' line line' hline =>
    have hplay : play.token = token := Option.some.inj hp.owner
    have hplay' : play'.token = token := Option.some.inj hq.owner
    have hppoised : Poised id token free line.entered p.bearing := hp.held rfl
    have hqpoised : Poised id token free' line'.entered q.bearing := hq.held rfl
    have hpstep : p.step id (.playing play line) = followPlay id play (p.stepLine line) := rfl
    have hqstep : q.step id (.playing play' line') = followPlay id play' (q.stepLine line') := rfl
    rcases h.stepLine hline with ⟨hpb, hqb⟩ | htwin
    · refine hwait ?_ ?_
      · rw [hpstep, hpb]
        rfl
      · rw [hqstep, hqb]
        rfl
    · have hfollow : ∀ {free : Bool} {r : Player} {l : LinePhase},
          (r.stepLine l).2 ≠ .blocked → Poised id token free l.entered r.bearing →
          PoisedLine id token free (r.stepLine l) := by
        intro free r l hready hr
        rcases follows_stepLine r l with hb | hfollows
        · exact absurd (congrArg Prod.snd hb) hready
        · exact hr.follows hfollows
      have hgone := htwin.followPlay id hplay hplay' (hfollow htwin.ready.1 hppoised)
        (hfollow htwin.ready.2 hqpoised)
      rw [onward_of_ready (a := .playing play line) hgone.ready.1,
        onward_of_ready (a := .playing play' line') hgone.ready.2]
      exact hgone

/-! ### The head of the loop -/

/-- A playback at the head of its loop waits for the end of a pause, or comes to another phase
there, or has the line lock and is not paused. -/
lemma Afoot.head_cases (h : Afoot id token free p a) (ha : a.isHead = true) :
    (p.state = .paused ∧ (∃ play, a = .paused play) ∧
        onward id (p, .goes a) = (p.at_ (p.now + 1), .goes a)) ∨
      (∃ q b, onward id (p, .goes a) = (q, .goes b) ∧ Heads id token free p q b) ∨
      (p.state = .playing ∧ ∃ play, a = .playLock play) := by
  cases a with
  | paused play =>
    have hplay : play.token = token := Option.some.inj h.owner
    rcases h.state rfl with hstate | hstate
    · have hstep : p.step id (.paused play) = p.continuePlay id play := by
        simp only [step, hplay, h.going, Bool.false_and, continuePlay, hstate]
        rfl
      obtain ⟨q, b, hq, hb⟩ := exists_continuePlay hplay h.lock h.poised
      refine .inr (.inl ⟨q, b, ?_, hb⟩)
      rw [onward_of_ready (by rw [hstep, hq]; exact Progress.noConfusion), hstep, hq]
    · have hstep : (p.step id (.paused play)).2 = .blocked := by
        simp only [step, hplay, h.going, Bool.false_and, hstate]
        rfl
      exact .inl ⟨hstate, ⟨play, rfl⟩, onward_of_blocked hstep⟩
  | playLock play =>
    have hplay : play.token = token := Option.some.inj h.owner
    have hlock : p.lineLock = { holder := some id } := h.lock
    rcases h.state rfl with hstate | hstate
    · exact .inr (.inr ⟨hstate, play, rfl⟩)
    · obtain ⟨p', hp'⟩ : ∃ r, r = { p with lineLock := p.lineLock.release } := ⟨_, rfl⟩
      have hstep : p.step id (.playLock play) = p'.continuePlay id play := by
        have hheld : p.lineLock.isHeldBy id = true := by
          rw [hlock]
          simp [Lock.isHeldBy]
        have hpaused : (p.deferred.isSome || decide (p.state ≠ .playing)) = true := by
          simp [hstate]
        simp only [step, hheld, if_true, playLine]
        rw [if_pos hpaused, hp']
      have hbearing : p'.bearing = { p.bearing with lock := p'.lineLock } := by
        rw [hp']
        rfl
      have halike : Alike p p' := by
        rw [hp']
        exact ⟨rfl, rfl, rfl⟩
      have hfree : p'.lineLock = {} := by
        rw [hp', hlock]
        rfl
      have hpoised : Poised id token free false
          { p'.bearing with lock := { holder := some id } } := by
        rw [hbearing]
        exact h.poised
      obtain ⟨q, b, hq, hb⟩ := exists_continuePlay hplay hfree hpoised
      refine .inr (.inl ⟨q, b, ?_, hb.head, halike.trans hb.alike, ?_, hb.afoot, hb.going,
        hb.paused⟩)
      · rw [onward_of_ready (by rw [hstep, hq]; exact Progress.noConfusion), hstep, hq]
      · rw [hb.bearing, hbearing]
  | _ => cases ha

/-- A playback that is free to go on comes to the line lock. -/
lemma Afoot.exists_playLock (h : Afoot id token true p a) (ha : a.isHead = true) :
    ∃ n q play, (onward id)^[n] (p, .goes a) = (q, .goes (.playLock play)) ∧ Alike p q ∧
      Afoot id token true q (.playLock play) ∧ q.state = .playing := by
  have hstate : ∀ {q : Player} {play : Play}, Afoot id token true q (.playLock play) →
      q.state = .playing := fun hq => (hq.state rfl).resolve_right (hq.poised.free rfl).1
  rcases h.head_cases ha with ⟨hpaused, -⟩ | ⟨q, b, hq, hb⟩ | ⟨-, play, rfl⟩
  · exact absurd hpaused (h.poised.free rfl).1
  · obtain ⟨play, rfl⟩ := hb.going rfl
    exact ⟨1, q, play, hq, hb.alike, hb.afoot, hstate hb.afoot⟩
  · exact ⟨0, p, play, rfl, .refl p, h, hstate h⟩

/-- The step of a playback that has the line lock. -/
lemma Afoot.engages (h : Afoot id token free p (.playLock play)) :
    Engages p id play (p.step id (.playLock play)) := by
  have hlock : p.lineLock = { holder := some id } := h.lock
  have hheld : p.lineLock.isHeldBy id = true := by
    rw [hlock]
    simp [Lock.isHeldBy]
  have hstep : p.step id (.playLock play) = p.playLine id play := if_pos hheld
  rw [hstep]
  exact engages_playLine p id play

/-- A playback that is not paused begins its line unless a breakpoint stops it. -/
lemma Afoot.step_playLock (h : Afoot id token free p (.playLock play)) (hstate : p.state = .playing)
    (hnone : p.context.takeBreakpoint.1 = none) :
    p.step id (.playLock play) =
      followPlay id play ({ p with context := p.context.takeBreakpoint.2 }.beginLine
        play.token) := by
  have hengages := h.engages
  generalize p.step id (.playLock play) = c at hengages ⊢
  cases hengages with
  | yields hnot => exact absurd ⟨h.deferred, hstate⟩ hnot
  | pauses _ _ htaken =>
    rw [htaken] at hnone
    cases hnone
  | begins _ _ htaken => rw [htaken]

/-- How a playback stands that has begun a line. -/
lemma Poised.beginLine (h : Poised id token free false p.bearing) (hstate : p.state = .playing) :
    PoisedLine id token free (p.beginLine token) := by
  rcases follows_beginLine p token with ⟨hbearing, hend⟩ | ⟨index, entered, -, hfollows⟩
  · unfold PoisedLine
    rw [hend, hbearing]
    exact h
  · refine Poised.follows (b := p.bearing.begins index entered)
      ⟨h.deferred, h.going, h.unsaved, h.lock, ?_, fun hfree => ⟨?_, ?_⟩⟩ hfollows
    · cases entered with
      | true => rfl
      | false => exact .inl hstate
    · cases entered with
      | true => exact State.noConfusion
      | false => exact (h.free hfree).1
    · exact (h.free hfree).2

/-- Twins that are not paused begin their lines together. -/
lemma Twin.begins {play' : Play} (h : Twin stepped k p q)
    (hp : Afoot id token free p (.playLock play)) (hq : Afoot id token free' q (.playLock play'))
    (hpstate : p.state = .playing) (hqstate : q.state = .playing)
    (hpclear : p.context.breakpoints = []) (hqclear : q.context.breakpoints = []) :
    Shadow stepped free free' id token k (Player.onward id (p, .goes (.playLock play)))
      (Player.onward id (q, .goes (.playLock play'))) := by
  have hplay : play.token = token := Option.some.inj hp.owner
  have hplay' : play'.token = token := Option.some.inj hq.owner
  have htake : ∀ r : Player, r.context.breakpoints = [] →
      r.context.takeBreakpoint = (none, r.context) := by
    intro r hclear
    simp [Context.takeBreakpoint, hclear]
  have hpstep := hp.step_playLock hpstate (by rw [htake p hpclear])
  have hqstep := hq.step_playLock hqstate (by rw [htake q hqclear])
  rw [hplay, htake p hpclear] at hpstep
  rw [hplay', htake q hqclear] at hqstep
  have hgone := (h.beginLine token).followPlay id hplay hplay'
    ((hp.held rfl).beginLine hpstate) ((hq.held rfl).beginLine hqstate)
  rw [← hpstep, ← hqstep] at hgone
  rw [onward_of_ready hgone.ready.1, onward_of_ready hgone.ready.2]
  exact hgone

end Player

end Recital

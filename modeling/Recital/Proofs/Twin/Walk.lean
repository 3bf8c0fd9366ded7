import Recital.Proofs.Player.LineEnds
import Recital.Proofs.Player.Turn
import Recital.Proofs.Twin.Loop

/-!
# Stepping through a playback

A paused playback is stepped through by calls to step forward, each of which is made when the
playback has settled (`Walk.stride`): the playback waits at the head of its loop, the state is
`paused`, and no other call is in progress.

Such a playback stays halted (`Player.Halted`).  A call takes the line lock and executes one line
with the state left as it is.  It comes back to where it was made, or leaves the end of the playback
to the loop, which is woken and ends (`Walk.Returns`).
-/

namespace Recital

/-- The phase that a request goes on in. -/
def Progress.phase? : Progress → Option Phase
  | .goes phase => some phase
  | _ => none

/-- A playback that is stepped through. -/
structure Walk where
  /-- The player. -/
  player : Player
  /-- How far the playback has got. -/
  playback : Progress
  /-- The phase of the call in progress, if there is one. -/
  call : Option Phase := none

namespace Walk

/-- The playback waits for the end of its pause, and no call is in progress. -/
def isSettled (w : Walk) : Bool :=
  match w.playback, w.call with
  | .goes (.paused _), none => w.player.state = .paused
  | _, _ => false

/-- The next call may be made, or there is nothing left to step through. -/
def isAtRest (w : Walk) : Bool := w.isSettled || w.playback.isEnded

/-- The playback goes on, or time passes. -/
def waits (id : Nat) (w : Walk) : Walk :=
  { w with
    player := (Player.onward id (w.player, w.playback)).1
    playback := (Player.onward id (w.player, w.playback)).2 }

/-- A call goes on as soon as it can, and otherwise the playback does.  When the playback has
settled, the next call is made; the calls share a number, since each has ended when the next one is
made. -/
def stride (id other : Nat) (w : Walk) : Walk :=
  match w.call with
  | none => if w.isSettled then { w with call := some (.entering .stepForward) } else w.waits id
  | some phase =>
    match w.player.step other phase with
    | (_, .blocked) => w.waits id
    | (q, progress) => { w with player := q, call := progress.phase? }

end Walk

namespace Player

variable {p q : Player} {b : Bearing} {id other : Nat} {token : Token} {play : Play} {f : Finish}
  {phase : Phase} {line : LinePhase} {playback : Progress} {begun : List Nat}
  {x : Player × LineProgress} {w : Walk}

/-! ### Halted playbacks -/

/-- The playback of a token is paused, and nothing else stands in its way. -/
structure Halted (token : Token) (b : Bearing) : Prop where
  deferred : b.rest.deferred = none
  going : b.rest.isCancelled token = false
  token : b.rest.token = some token
  listening : b.rest.bus.closed = false
  state : b.state = .paused

/-- What a line does that is executed while the playback is halted. -/
structure Unmoved (b : Bearing) (x : Player × LineProgress) : Prop where
  ready : x.2 ≠ .blocked
  bearing : x.1.bearing = { b with pauseRequested := x.1.pauseRequested }
  line : ∀ line, x.2 = .goes line → line.entered = false

namespace Halted

/-- It goes by the state and by what lines leave alone. -/
lemma of_bearing {pauseRequested : Bool} {lock : Lock} {begun : List Nat} (h : Halted token b)
    (hq : q.bearing = ⟨b.state, pauseRequested, begun, lock, b.rest⟩) : Halted token q.bearing := by
  rw [hq]
  exact ⟨h.deferred, h.going, h.token, h.listening, h.state⟩

lemma of_unmoved (h : Halted token b) (hx : Unmoved b x) : Halted token x.1.bearing :=
  h.of_bearing hx.bearing

/-- A line does not change the state of a halted playback. -/
lemma unmoved (h : Halted token b) (hx : Follows false b x) : Unmoved b x := by
  have hsettled : b.settled = { b with pauseRequested := b.settled.pauseRequested } := by
    have hstate : b.settled.state = b.state := by
      unfold Bearing.settled
      split
      · rw [h.state]
        rfl
      · rfl
    rw [← hstate]
    exact b.settled_eq
  have hsame : ∀ {c : Bearing}, x.1.bearing = c →
      c = { b with pauseRequested := c.pauseRequested } →
      x.1.bearing = { b with pauseRequested := x.1.pauseRequested } := by
    rintro c rfl hc
    exact hc
  obtain ⟨q, progress⟩ := x
  cases progress with
  | blocked => exact hx.elim
  | goes line =>
    have hkept : q.bearing = b ∧ line.entered = false := by simpa [Follows] using hx
    refine ⟨LineProgress.noConfusion, hsame hkept.1 rfl, fun l hl => ?_⟩
    cases hl
    exact hkept.2
  | ends by_ =>
    have hkept : q.bearing = b.settled ∨ q.bearing = b ∧ by_ = .finished .cancelled := by
      simpa [Follows] using hx
    refine ⟨LineProgress.noConfusion, ?_, fun l hl => LineProgress.noConfusion hl⟩
    rcases hkept with hq | ⟨hq, -⟩
    · exact hsame hq hsettled
    · exact hsame hq rfl

/-- A line that is begun while the playback is halted leaves the state as it is. -/
lemma beginLine (h : Halted token p.bearing) :
    (Unmoved p.bearing (p.beginLine token) ∧
        (p.beginLine token).2 = .ends (.finished .completed)) ∨
      ∃ index, Unmoved { p.bearing with begun := p.bus.begun ++ [index] } (p.beginLine token) := by
  rcases follows_beginLine p token with ⟨hbearing, hend⟩ | ⟨index, entered, hentered, hfollows⟩
  · refine .inl ⟨⟨?_, ?_, fun line hline => ?_⟩, hend⟩
    · rw [hend]
      exact LineProgress.noConfusion
    · have hpause : (p.beginLine token).1.pauseRequested = p.pauseRequested :=
        congrArg Bearing.pauseRequested hbearing
      rw [hbearing, hpause]
      rfl
    · rw [hend] at hline
      cases hline
  · have hunentered : entered = false := by
      rw [← Bool.not_eq_true]
      intro htrue
      have hplaying : p.bearing.state = .playing := hentered htrue
      rw [h.state] at hplaying
      cases hplaying
    have hbegins : p.bearing.begins index false =
        { p.bearing with begun := p.bus.begun ++ [index] } := by
      unfold Bearing.begins
      rw [h.listening]
      rfl
    rw [hunentered, hbegins] at hfollows
    exact .inr ⟨index, unmoved ⟨h.deferred, h.going, h.token, h.listening, h.state⟩ hfollows⟩

end Halted

/-- The playback with the mark that it is stepped through. -/
def inStepMode (p : Player) (stepMode : Bool) : Player :=
  { p with context := { p.context with stepMode } }

/-- A call that reaches the end of the playback leaves it to the loop, which is awake. -/
structure Leaving (token : Token) (f : Finish) (p : Player) : Prop where
  deferred : p.deferred = some f
  going : p.isCancelled token = false
  state : p.state = .playing

lemma Halted.leaving (h : Halted token p.bearing) (f : Finish) (lock : Lock) :
    Leaving token f { p.defer f with lineLock := lock } := by
  have hstate : p.state = .paused := h.state
  have hbearing := bearing_defer p f
  rw [if_pos hstate] at hbearing
  have hrest : (p.defer f).backdrop = { p.backdrop with deferred := some f } :=
    congrArg Bearing.rest hbearing
  refine ⟨?_, ?_, congrArg Bearing.state hbearing⟩
  · exact (congrArg Player.deferred hrest : (p.defer f).backdrop.deferred = _)
  · exact (congrArg (·.isCancelled token) hrest :
      (p.defer f).backdrop.isCancelled token = _).trans h.going

end Player

namespace Walk

open Player

variable {p q : Player} {b : Bearing} {id other : Nat} {token : Token} {play : Play} {f : Finish}
  {phase : Phase} {line : LinePhase} {playback : Progress} {call : Option Phase}
  {begun : List Nat} {x : Player × LineProgress} {w : Walk}

/-! ### Strides -/

/-- What becomes of a call whose line was taken on. -/
def after (playback : Progress) (x : Player × LineProgress) : Walk :=
  ⟨(followStep x).1, playback, (followStep x).2.phase?⟩

lemma stride_of_blocked (h : (p.step other phase).2 = .blocked) :
    stride id other ⟨p, playback, some phase⟩ = waits id ⟨p, playback, some phase⟩ := by
  unfold stride
  dsimp only
  split
  · rfl
  · next hne heq => exact (hne ((congrArg Prod.snd heq).symm.trans h)).elim

lemma stride_of_ready (h : (p.step other phase).2 ≠ .blocked) :
    stride id other ⟨p, playback, some phase⟩ =
      ⟨(p.step other phase).1, playback, (p.step other phase).2.phase?⟩ := by
  unfold stride
  dsimp only
  split
  · next hb => exact absurd (congrArg Prod.snd hb) h
  · next heq => rw [heq]

/-- A playback that has not settled goes on. -/
lemma stride_unsettled (h : isSettled ⟨p, playback, none⟩ = false) :
    stride id other ⟨p, playback, none⟩ =
      ⟨(Player.onward id (p, playback)).1, (Player.onward id (p, playback)).2, none⟩ := by
  unfold stride
  dsimp only
  rw [h]
  rfl

/-- A halted playback lets time pass. -/
lemma waits_halted (h : Halted token p.bearing) (hplay : play.token = token) :
    waits id ⟨p, .goes (.paused play), call⟩ =
      ⟨p.at_ (p.now + 1), .goes (.paused play), call⟩ := by
  have hgoing : p.isCancelled token = false := h.going
  have hstate : p.state = .paused := h.state
  have hblocked : (p.step id (.paused play)).2 = .blocked := by
    simp only [step, hplay, hgoing, Bool.false_and, hstate]
    rfl
  unfold waits
  dsimp only
  rw [onward_of_blocked hblocked]

lemma stride_settled (h : p.state = .paused) :
    stride id other ⟨p, .goes (.paused play), none⟩ =
      ⟨p, .goes (.paused play), some (.entering .stepForward)⟩ := by
  have hsettled : isSettled ⟨p, .goes (.paused play), none⟩ = true := decide_eq_true h
  unfold stride
  dsimp only
  rw [if_pos hsettled]

lemma stride_entering (h : p.state = .paused) (hlock : p.lineLock = {}) :
    stride id other ⟨p, playback, some (.entering .stepForward)⟩ =
      ⟨{ p with lineLock := { holder := some other } }, playback, some .stepLock⟩ := by
  have hstep : p.step other (.entering .stepForward) =
      ({ p with lineLock := { holder := some other } }, .goes .stepLock) := by
    simp only [step, accept, stepRefusal?, h, requestLine, hlock]
    rfl
  rw [stride_of_ready (by rw [hstep]; exact Progress.noConfusion), hstep]
  rfl

lemma followStep_ready (h : x.2 ≠ .blocked) : (followStep x).2 ≠ .blocked := by
  obtain ⟨q, progress⟩ := x
  cases progress with
  | blocked => exact absurd rfl h
  | goes line => exact Progress.noConfusion
  | ends by_ => cases by_ <;> exact Progress.noConfusion

/-- A call that has the line lock begins its line. -/
lemma stride_stepLock (h : Halted token p.bearing)
    (hlock : p.lineLock = { holder := some other }) :
    stride id other ⟨p, playback, some .stepLock⟩ =
      after playback ((p.inStepMode true).beginLine token) := by
  have hheld : p.lineLock.isHeldBy other = true := by
    rw [hlock]
    simp [Lock.isHeldBy]
  have hstate : p.state = .paused := h.state
  have htoken : p.token = some token := h.token
  have hstep : p.step other .stepLock = followStep ((p.inStepMode true).beginLine token) := by
    have hallowed : p.stepRefusal? "step forward" = none := by simp only [stepRefusal?, hstate]
    have hbegin : p.step other .stepLock = p.beginStep := if_pos hheld
    rw [hbegin]
    unfold beginStep
    rw [hallowed]
    split
    · next hrefused => cases hrefused
    · next _ hnone =>
      rw [htoken] at hnone
      cases hnone
    · next t _ ht =>
      obtain rfl : token = t := Option.some.inj (htoken.symm.trans ht)
      rfl
  have hmarked : Halted token (p.inStepMode true).bearing := h
  have hready : ((p.inStepMode true).beginLine token).2 ≠ .blocked := by
    rcases hmarked.beginLine with ⟨hx, -⟩ | ⟨index, hx⟩ <;> exact hx.ready
  rw [stride_of_ready (by rw [hstep]; exact followStep_ready hready), hstep]
  rfl

lemma stride_stepping (h : (p.stepLine line).2 ≠ .blocked) :
    stride id other ⟨p, playback, some (.stepping line)⟩ = after playback (p.stepLine line) := by
  have hready : (p.step other (.stepping line)).2 ≠ .blocked := followStep_ready h
  exact stride_of_ready hready

/-- A call whose line waits lets time pass. -/
lemma stride_stepping_of_blocked (h : Halted token p.bearing) (hplay : play.token = token)
    (hblocked : p.stepLine line = (p, .blocked)) :
    stride id other ⟨p, .goes (.paused play), some (.stepping line)⟩ =
      ⟨p.at_ (p.now + 1), .goes (.paused play), some (.stepping line)⟩ := by
  have hstep : (p.step other (.stepping line)).2 = .blocked := by
    have hfollow : p.step other (.stepping line) = followStep (p.stepLine line) := rfl
    rw [hfollow, hblocked]
    rfl
  rw [stride_of_blocked hstep, waits_halted h hplay]

/-- The loop picks up the end that a call has left for it. -/
lemma stride_leaving (h : Leaving token f p) (hplay : play.token = token) :
    stride id other ⟨p, .goes (.paused play), none⟩ =
      ⟨({ p with deferred := none }.finish f).1,
        ({ p with deferred := none }.finish f).2, none⟩ := by
  have hunsettled : isSettled ⟨p, .goes (.paused play), none⟩ = false := by
    simp [isSettled, h.state]
  have hstep : p.step id (.paused play) = { p with deferred := none }.finish f := by
    simp only [step, hplay, h.going, Bool.false_and, h.state, playOn, h.deferred]
    rfl
  rw [stride_unsettled hunsettled, onward_of_ready (by rw [hstep]; exact Progress.noConfusion),
    hstep]

/-! ### Calls come back -/

/-- A call has executed one line and left the state as it was, or the playback has ended. -/
inductive Back (begun : List Nat) (w : Walk) : Prop
  | settled (h : w.isSettled = true) (hbegun : ∃ index, w.player.bus.begun = begun ++ [index])
  | ended (h : w.playback.isEnded = true)
    (hbegun : w.player.bus.begun = begun ∨ ∃ index, w.player.bus.begun = begun ++ [index])

/-- The call in progress comes back before another one is made. -/
def Returns (id other : Nat) (begun : List Nat) (w : Walk) : Prop :=
  ∃ l, (∀ m, m < l → ((stride id other)^[m] w).isAtRest = false) ∧
    Back begun ((stride id other)^[l] w)

lemma returns_of_back (h : Back begun w) : w.Returns id other begun :=
  ⟨0, fun m hm => absurd hm (Nat.not_lt_zero m), h⟩

lemma Returns.of_stride (hw : w.isAtRest = false) (h : Returns id other begun (w.stride id other)) :
    w.Returns id other begun := by
  obtain ⟨l, hbusy, hback⟩ := h
  refine ⟨l + 1, fun m hm => ?_, ?_⟩
  · cases m with
    | zero => exact hw
    | succ m =>
      rw [Function.iterate_succ_apply]
      exact hbusy m (Nat.lt_of_succ_lt_succ hm)
  · rw [Function.iterate_succ_apply]
    exact hback

/-- The playback ends as soon as an end is left for it. -/
lemma returns_leaving (h : Leaving token f p) (hplay : play.token = token)
    (hbegun : p.bus.begun = begun ∨ ∃ index, p.bus.begun = begun ++ [index]) :
    Returns id other begun ⟨p, .goes (.paused play), none⟩ := by
  refine .of_stride ?_ ?_
  · simp [isAtRest, isSettled, h.state, Progress.isEnded]
  · have hended := (ended_finish { p with deferred := none } f).begun
    rw [stride_leaving h hplay]
    refine returns_of_back (.ended rfl ?_)
    rw [hended]
    exact hbegun

/-- A call comes back whose line has ended. -/
lemma returns_after (h : Halted token b) (hx : Unmoved b x)
    (hplay : play.token = token)
    (hbegun : (∃ index, b.begun = begun ++ [index]) ∨
      b.begun = begun ∧ x.2 = .ends (.finished .completed))
    (hgoes : ∀ line, x.2 = .goes line →
      Returns id other begun ⟨x.1, .goes (.paused play), some (.stepping line)⟩) :
    Returns id other begun (after (.goes (.paused play)) x) := by
  obtain ⟨q, progress⟩ := x
  have hhalted : Halted token q.bearing := h.of_unmoved hx
  have hq : q.bus.begun = b.begun := congrArg Bearing.begun hx.bearing
  cases progress with
  | blocked => exact absurd rfl hx.ready
  | goes line => exact hgoes line rfl
  | ends by_ =>
    cases by_ with
    | next =>
      obtain ⟨index, hindex⟩ := hbegun.resolve_right fun h => nomatch h.2
      exact returns_of_back (.settled (decide_eq_true hhalted.state) ⟨index, hq.trans hindex⟩)
    | finished f =>
      have hmarked : Halted token (q.inStepMode false).bearing := hhalted
      have hdefer : ((q.inStepMode false).defer f).bus.begun = b.begun :=
        (congrArg Bearing.begun (bearing_defer (q.inStepMode false) f)).trans hq
      refine returns_leaving (hmarked.leaving f _) hplay ?_
      rcases hbegun with ⟨index, hbegun⟩ | ⟨hbegun, -⟩
      · exact .inr ⟨index, hdefer.trans hbegun⟩
      · exact .inl (hdefer.trans hbegun)

/-- A call that executes a line comes back: the line has less and less to do, and waits for a
bounded time each time. -/
lemma returns_stepping {index : Nat} (h : Halted token p.bearing) (hrelents : p.host.Relents)
    (hplay : play.token = token) (hentered : line.entered = false)
    (hbegun : p.bus.begun = begun ++ [index]) :
    Returns id other begun ⟨p, .goes (.paused play), some (.stepping line)⟩ := by
  obtain ⟨n, hn⟩ : ∃ n, n = line.rank p.host := ⟨_, rfl⟩
  induction n using Nat.strongRecOn generalizing p line with
  | ind n ih =>
    obtain ⟨t, ht⟩ : ∃ t, t = line.deadline - p.now := ⟨_, rfl⟩
    induction t using Nat.strongRecOn generalizing p with
    | ind t wait =>
      refine .of_stride rfl ?_
      rcases declines_stepLine hrelents line with ⟨hblocked, hnow⟩ | hdeclines
      · rw [stride_stepping_of_blocked h hplay hblocked]
        have hlater : line.deadline - (p.now + 1) < t := by omega
        have hhalted : Halted token (p.at_ (p.now + 1)).bearing :=
          ⟨h.deferred, h.going, h.token, h.listening, h.state⟩
        exact wait _ hlater hhalted hrelents hbegun hn rfl
      · rcases follows_stepLine p line with hblocked | hfollows
        · rw [hblocked] at hdeclines
          exact hdeclines.elim
        · rw [hentered] at hfollows
          have hx := h.unmoved hfollows
          have hhost : (p.stepLine line).1.host = p.host :=
            congrArg (fun b : Bearing => b.rest.host) hx.bearing
          rw [stride_stepping hx.ready]
          refine returns_after h hx hplay (.inl ⟨index, hbegun⟩) fun line' hline' => ?_
          have hrank : line'.rank p.host < n := by
            unfold Declines at hdeclines
            rw [hline'] at hdeclines
            rw [hn]
            exact hdeclines
          refine ih _ hrank (h.of_unmoved hx) ?_ (hx.line _ hline') ?_ ?_
          · rwa [hhost]
          · exact (congrArg Bearing.begun hx.bearing).trans hbegun
          · rw [hhost]

/-- A call that is made when the playback has settled comes back. -/
lemma returns_settled (h : Halted token p.bearing) (hrelents : p.host.Relents)
    (hplay : play.token = token) (hlock : p.lineLock = {}) :
    Returns id other p.bus.begun (stride id other ⟨p, .goes (.paused play), none⟩) := by
  obtain ⟨q, hq⟩ : ∃ q, q = { p with lineLock := { holder := some other } } := ⟨_, rfl⟩
  have hhalted : Halted token q.bearing := by
    rw [hq]
    exact ⟨h.deferred, h.going, h.token, h.listening, h.state⟩
  have hmarked : Halted token (q.inStepMode true).bearing := hhalted
  have hbegun : q.bus.begun = p.bus.begun := by rw [hq]
  rw [stride_settled h.state]
  refine .of_stride rfl ?_
  rw [stride_entering h.state hlock, ← hq]
  refine .of_stride rfl ?_
  rw [stride_stepLock hhalted (by rw [hq]), ← hbegun]
  rcases hmarked.beginLine with ⟨hx, hend⟩ | ⟨index, hx⟩
  · refine returns_after hmarked hx hplay (.inr ⟨rfl, hend⟩) fun line hline => ?_
    rw [hend] at hline
    cases hline
  · have hbegins : Halted token
        { (q.inStepMode true).bearing with begun := q.bus.begun ++ [index] } :=
      ⟨hhalted.deferred, hhalted.going, hhalted.token, hhalted.listening, hhalted.state⟩
    refine returns_after hbegins hx hplay (.inl ⟨index, rfl⟩) fun line hline => ?_
    have hqhost : q.host = p.host := by rw [hq]
    have hhost : ((q.inStepMode true).beginLine token).1.host = q.host :=
      congrArg (fun b : Bearing => b.rest.host) hx.bearing
    refine returns_stepping (hbegins.of_unmoved hx) ?_ hplay (hx.line _ hline)
      (congrArg Bearing.begun hx.bearing)
    rwa [hhost, hqhost]

end Walk

end Recital

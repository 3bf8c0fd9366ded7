import Recital.Proofs.Session.Solo

/-!
# A pause is honoured

A playback that was paused begins no line: it is at a standstill (`Standstill`), or the line in
flight will be followed by one (`Due`).  A request for a single step that was waiting for the line
lock when the pause came still executes its line, and does so paused.  `Resting` is what a pause
brings about and what everything keeps that happens afterwards, unless the playback is resumed or
another step is requested.
-/

namespace Recital

namespace Player

variable {p q : Player} {id : Nat} {phase : Phase} {b : Bearing} {entered : Bool}
  {x : Player × Progress} {line : LinePhase}

/-! ### Standstills -/

/-- A playback with this state, and with this end left for it, begins no line. -/
def Bearing.Standstill (b : Bearing) : Prop :=
  b.rest.deferred ≠ none ∨ b.state = .paused ∨ b.state.isTerminal = true

/-- The playback begins no line: it is paused or stopped, or an end is left for it. -/
def Standstill (p : Player) : Prop := p.bearing.Standstill

/-- The playback begins no line after the one in flight: a pause takes effect when the line ends. -/
def Due (p : Player) (line : LinePhase) : Prop :=
  p.pauseRequested = true ∧ p.state = if line.entered then .waiting else .playing

lemma Bearing.Standstill.left (h : b.Standstill) : (b.left entered).Standstill := by
  unfold Bearing.left
  split
  · next hstate =>
    rcases h with h | h | h
    · exact .inl h
    · rw [hstate.2] at h
      cases h
    · rw [hstate.2] at h
      cases h
  · exact h

lemma Bearing.Standstill.settled (h : b.Standstill) : b.settled.Standstill := by
  unfold Bearing.settled
  split
  · by_cases hstate : b.state = .playing
    · exact .inr (.inl (if_pos hstate))
    · rw [if_neg hstate]
      exact h
  · exact h

lemma Bearing.Standstill.of_bearing (h : b.Standstill) (hq : q.bearing = b) : q.Standstill := by
  unfold Player.Standstill
  rw [hq]
  exact h

lemma Bearing.Standstill.closed (h : b.Standstill) (hq : Closed b entered q) : q.Standstill := by
  rcases hq with hq | hq
  · exact h.left.settled.of_bearing hq
  · exact h.left.of_bearing hq

/-- The line lock has no part in it. -/
lemma Standstill.of_lock {lock : Lock} (h : p.Standstill)
    (hq : q.bearing = { p.bearing with lock }) : q.Standstill :=
  Bearing.Standstill.of_bearing (b := { p.bearing with lock }) h hq

/-- An end that is left for the playback holds it up. -/
lemma standstill_defer (q : Player) (f : Finish) : (q.defer f).Standstill := by
  refine .inl ?_
  rw [bearing_defer]
  exact Option.some_ne_none f

/-- Only a single step begins a line at a standstill. -/
lemma Standstill.isPending_of_begins (h : p.Standstill) (hbegins : Begins id p phase) :
    phase.isPending = true := by
  by_contra hnot
  have hpending : phase.isPending = false := Bool.not_eq_true _ ▸ hnot
  rcases h with h | h | h
  · exact h (hbegins.deferred hpending)
  · rcases hbegins.state with hstate | ⟨-, hstate⟩
    · rw [show p.bearing.state = p.state from rfl, hstate] at h
      cases h
    · exact hnot hstate
  · rcases hbegins.state with hstate | ⟨-, hstate⟩
    · rw [show p.bearing.state = p.state from rfl, hstate] at h
      cases h
    · exact hnot hstate

/-- A standstill is kept when a step takes a line on or begins one. -/
lemma Standstill.takes (h : p.Standstill) (htakes : Takes id p phase b entered) :
    b.Standstill := by
  cases htakes with
  | runs | completes => exact h
  | @begins index entered hbegins hentered =>
    rcases h with h | h | h
    · exact .inl h
    · cases entered with
      | false => exact .inr (.inl h)
      | true =>
        have hstate : p.state = .playing := hentered rfl
        rw [show p.bearing.state = p.state from rfl, hstate] at h
        cases h
    · rcases hbegins.state with hstate | ⟨hstate, -⟩
      · rw [show p.bearing.state = p.state from rfl, hstate] at h
        cases h
      · rw [show p.bearing.state = p.state from rfl, hstate] at h
        cases h

/-- What a step leaves behind that comes with no new line of the playback: the playback has ended,
or it is at a standstill, or will be after the line in flight. -/
def Rests (phase : Phase) (x : Player × Progress) : Prop :=
  (phase.isPlayback = true ∧ ∃ answer, x.2 = .ends answer) ∨ x.1.Standstill ∨
    ∃ next line, x.2 = .goes next ∧ next.line? = some line ∧ x.1.Due line

lemma rests_of_ended {f : Finish} (hphase : phase.isPlayback = true) (h : Ended q f x) :
    Rests phase x := by
  obtain ⟨r, hr, -⟩ := h.report
  exact .inl ⟨hphase, _, hr⟩

/-- A playback goes on at a standstill after its line. -/
lemma Standstill.between (h : q.Standstill) (hphase : phase.isPlayback = true)
    {token : Token}
    (hx : Between id token { q with lineLock := q.lineLock.release } x) : Rests phase x := by
  cases hx with
  | goes hnext hown hbearing => exact .inr (.inl (h.of_lock hbearing))
  | ends hended => exact rests_of_ended hphase hended

/-- A playback that is at a standstill stays there with every step. -/
lemma Standstill.turn (h : p.Standstill) (hturn : Turn id p phase x) : Rests phase x := by
  cases hturn with
  | goes hline hleads hbearing => exact .inr (.inl (h.of_lock hbearing))
  | leaves hline hside hbearing => exact .inr (.inl (h.of_lock hbearing))
  | concludes hline hplayback hlock hended => exact rests_of_ended hplayback hended
  | hit hbegins hpending =>
    rw [h.isPending_of_begins hbegins] at hpending
    cases hpending
  | line htakes hhands =>
    have hb := h.takes htakes
    cases hhands with
    | goes hline hside hplayback hown hpending hbearing =>
      refine .inr (.inl ?_)
      rcases hbearing with ⟨hq, -⟩ | ⟨hq, -⟩
      · exact hb.of_bearing hq
      · exact hb.left.of_bearing hq
    | @stepped q answer hside hbearing =>
      have hq : q.Standstill := hb.left.settled.of_bearing hbearing
      exact .inr (.inl (hq.of_lock rfl))
    | defers hside hclosed => exact .inr (.inl (standstill_defer _ _))
    | played hplayback hown hbearing hbetween =>
      exact (hb.closed (.inl hbearing)).between hplayback hbetween
    | finishes hplayback hclosed hended => exact rests_of_ended hplayback hended

/-- A pause that was asked for takes effect when the line ends. -/
lemma Due.turn (h : p.Due line) (hline : phase.line? = some line) (hturn : Turn id p phase x) :
    Rests phase x := by
  obtain ⟨hpause, hstate⟩ := h
  have hleft : (p.bearing.left line.entered).state = .playing ∧
      (p.bearing.left line.entered).pauseRequested = true := by
    cases hentered : line.entered with
    | false =>
      rw [hentered, if_neg Bool.false_ne_true] at hstate
      rw [Bearing.left_false]
      exact ⟨hstate, hpause⟩
    | true =>
      rw [hentered, if_pos rfl] at hstate
      unfold Bearing.left
      rw [if_pos ⟨rfl, hstate⟩]
      exact ⟨rfl, hpause⟩
  have hsettled : (p.bearing.left line.entered).settled.Standstill := by
    unfold Bearing.settled
    rw [if_pos hleft.2, if_pos hleft.1]
    exact .inr (.inl rfl)
  cases hturn with
  | goes hnot | leaves hnot | concludes hnot =>
    rw [hline] at hnot
    cases hnot
  | hit hbegins =>
    have hnot := hbegins.unlined
    rw [hline] at hnot
    cases hnot
  | line htakes hhands =>
    cases htakes with
    | begins hbegins | completes hbegins =>
      have hnot := hbegins.unlined
      rw [hline] at hnot
      cases hnot
    | runs hline' =>
      obtain rfl : _ = line := Option.some.inj (hline'.symm.trans hline)
      cases hhands with
      | @goes q next line' hnext hside hplayback hown hpending hbearing =>
        refine .inr (.inr ⟨next, line', rfl, hnext, ?_⟩)
        rcases hbearing with ⟨hq, hentered⟩ | ⟨hq, hentered⟩
        · refine ⟨(congrArg Bearing.pauseRequested hq).trans hpause, ?_⟩
          rw [hentered]
          exact (congrArg Bearing.state hq).trans hstate
        · refine ⟨(congrArg Bearing.pauseRequested hq).trans hleft.2, ?_⟩
          rw [hentered, if_neg Bool.false_ne_true]
          exact (congrArg Bearing.state hq).trans hleft.1
      | @stepped q answer hside hbearing =>
        have hq : q.Standstill := hsettled.of_bearing hbearing
        exact .inr (.inl (hq.of_lock rfl))
      | defers => exact .inr (.inl (standstill_defer _ _))
      | played hplayback hown hbearing hbetween =>
        exact (hsettled.of_bearing hbearing).between hplayback hbetween
      | finishes hplayback hclosed hended => exact rests_of_ended hplayback hended

/-- A pause that was asked for still takes effect after the line in flight when another request
makes a step. -/
lemma Due.turn_other {u : Nat} (h : p.Due line) (hu : p.lineLock.isHeldBy u = true) (hne : u ≠ id)
    (hheld : ∀ line, phase.line? = some line → p.lineLock.isHeldBy id = true)
    (hturn : Turn id p phase x) :
    (phase.isPlayback = true ∧ ∃ answer, x.2 = .ends answer) ∨ x.1.Due line := by
  have hsame : ∀ q : Player, q.bearing = { p.bearing with lock := q.lineLock } → q.Due line :=
    fun q hq => ⟨(congrArg Bearing.pauseRequested hq).trans h.1,
      (congrArg Bearing.state hq).trans h.2⟩
  cases hturn with
  | goes hline hleads hbearing => exact .inr (hsame _ hbearing)
  | leaves hline hside hbearing => exact .inr (hsame _ hbearing)
  | concludes hline hplayback hlock hended =>
    obtain ⟨r, hr, -⟩ := hended.report
    exact .inl ⟨hplayback, _, hr⟩
  | hit hbegins => exact absurd (Lock.isHeldBy_unique hu hbegins.held) hne
  | line htakes => exact absurd (Lock.isHeldBy_unique hu (htakes.held hheld)) hne

/-- A pause that is not refused takes effect at once, or after a command in flight. -/
lemma pause_spec (h : p.pause.1 = .ok ()) : p.state.isUnderway = true ∧
    (p.pause.2.Standstill ∨
      p.state = .waiting ∧ p.pause.2.state = .waiting ∧ p.pause.2.pauseRequested = true) := by
  unfold pause at h ⊢
  split at h
  · next hstate =>
    rw [hstate]
    exact ⟨rfl, .inl (.inr (.inl hstate))⟩
  · next hstate =>
    have hpaused : (p.moveFrom p.run .playing .paused).2.state = .paused := by
      rw [moveFrom_eq _ _ hstate rfl]
      rfl
    rw [hstate]
    exact ⟨rfl, .inl (.inr (.inl hpaused))⟩
  · next hstate =>
    rw [hstate]
    exact ⟨rfl, .inr ⟨rfl, hstate, rfl⟩⟩
  · cases h

/-! ### The lines that are begun -/

/-- A step begins no line, or it begins one and is then no longer waiting to. -/
def Begets (id : Nat) (p : Player) (phase : Phase) (x : Player × Progress) : Prop :=
  (x.1.bus.begun = p.bus.begun ∧
    ∀ next, x.2 = .goes next → next.isPending = true → phase.isPending = true) ∨
  (Begins id p phase ∧ (∃ index, x.1.bus.begun = p.bus.begun ++ [index]) ∧
    ∀ next, x.2 = .goes next → next.isPending = false)

lemma Closed.begun (h : Closed b entered q) : q.bus.begun = b.begun := by
  rcases h with h | h
  · have hq : q.bus.begun = (b.left entered).settled.begun := congrArg Bearing.begun h
    rw [hq, Bearing.settled_eq, Bearing.left_eq]
  · have hq : q.bus.begun = (b.left entered).begun := congrArg Bearing.begun h
    rw [hq, Bearing.left_eq]

/-- What becomes of a line begins no other. -/
lemma Hands.begun (h : Hands id phase b entered x) :
    x.1.bus.begun = b.begun ∧ ∀ next, x.2 = .goes next → next.isPending = false := by
  have hended : ∀ (f : Finish) (r : Player), Ended r f x → r.bus.begun = b.begun →
      x.1.bus.begun = b.begun ∧ ∀ next, x.2 = .goes next → next.isPending = false := by
    intro f r hx hr
    obtain ⟨report, hreport, -⟩ := hx.report
    refine ⟨hx.begun.trans hr, fun next hnext => ?_⟩
    rw [hreport] at hnext
    cases hnext
  cases h with
  | @goes q next line hline hside hplayback hown hpending hbearing =>
    refine ⟨?_, fun n hn => ?_⟩
    · rcases hbearing with ⟨hq, -⟩ | ⟨hq, -⟩
      · exact congrArg Bearing.begun hq
      · exact Closed.begun (.inr hq)
    · cases hn
      exact hpending
  | @stepped q answer hside hbearing =>
    have hclosed : Closed b entered q := .inl hbearing
    exact ⟨hclosed.begun, fun _ h => Progress.noConfusion h⟩
  | @defers q f answer hside hclosed =>
    have hdefer : (q.defer f).bus.begun = q.bus.begun := congrArg Bearing.begun (bearing_defer q f)
    exact ⟨hdefer.trans hclosed.begun, fun _ h => Progress.noConfusion h⟩
  | @played q x token hplayback hown hbearing hbetween =>
    have hclosed : Closed b entered q := .inl hbearing
    cases hbetween with
    | @goes r next hnext hown hgoes =>
      refine ⟨(congrArg Bearing.begun hgoes).trans hclosed.begun, fun n hn => ?_⟩
      cases hn
      cases next with
      | paused | playLock | delaying | autosaving => rfl
      | _ => cases hnext
    | @ends f x hx hf =>
      exact hended f { q with lineLock := q.lineLock.release } hx hclosed.begun
  | @finishes q f x hplayback hclosed hx =>
    exact hended f { q with lineLock := q.lineLock.release } hx hclosed.begun

/-- A step begins at most one line. -/
lemma Turn.begets (h : Turn id p phase x) : Begets id p phase x := by
  cases h with
  | goes hline hleads hbearing =>
    refine .inl ⟨congrArg Bearing.begun hbearing, fun n hn => ?_⟩
    cases hn
    exact hleads.pending
  | leaves hline hside hbearing =>
    exact .inl ⟨congrArg Bearing.begun hbearing, fun n hn => Progress.noConfusion hn⟩
  | concludes hline hplayback hlock hended =>
    obtain ⟨r, hr, -⟩ := hended.report
    refine .inl ⟨hended.begun, fun n hn => ?_⟩
    rw [hr] at hn
    cases hn
  | hit hbegins hpending hleads hbearing =>
    refine .inl ⟨congrArg Bearing.begun hbearing, fun n hn => ?_⟩
    cases hn
    exact hleads.pending
  | @line b entered x htakes hhands =>
    obtain ⟨hbegun, hnext⟩ := hhands.begun
    cases htakes with
    | runs | completes =>
      refine .inl ⟨hbegun, fun n hn hpending => ?_⟩
      rw [hnext n hn] at hpending
      cases hpending
    | @begins index _ hbegins hentered =>
      have hb : (p.bearing.begins index entered).begun =
          if p.bus.closed then p.bus.begun else p.bus.begun ++ [index] := rfl
      rw [hb] at hbegun
      split at hbegun
      · refine .inl ⟨hbegun, fun n hn hpending => ?_⟩
        rw [hnext n hn] at hpending
        cases hpending
      · exact .inr ⟨hbegins, ⟨index, hbegun⟩, hnext⟩

end Player

namespace Session

variable {s s' s'' : Session} {a : Action} {id : Nat}

/-! ### Sessions after a pause -/

/-- How many requests for a single step have not begun their line. -/
def pending (s : Session) : Nat := s.tasks.countP (·.phase.isPending)

/-- The playback begins no line: it has ended, or is at a standstill, or will be after the line in
flight. -/
inductive Resting (id : Nat) (s : Session) : Prop
  | gone (h : ∀ t ∈ s.tasks, t.id ≠ id)
  | standstill (h : s.player.Standstill)
  | due {t : Task} {line : LinePhase} (ht : t ∈ s.tasks) (hline : t.phase.line? = some line)
    (h : s.player.Due line)

/-- A session in order whose playback has come to its lines and rests. -/
structure Held (id : Nat) (s : Session) : Prop where
  solo : s.Solo id
  late : ∀ t ∈ s.tasks, t.phase.isEarly = false
  resting : s.Resting id

/-- What may happen beside a playback that is to rest: it is not resumed, and no step is
requested. -/
def Quiet (id : Nat) : Action → Prop
  | .submit n r =>
    n ≠ id ∧ (Phase.entering r).isSide = true ∧ (Phase.entering r).isPending = false
  | .call .resume => False
  | _ => True

lemma Quiet.beside (h : Quiet id a) : Beside id a := by
  cases a with
  | submit n r => exact ⟨h.1, h.2.1⟩
  | call | go | wait => trivial

/-- The lines that were begun on the way are single steps, which were pending before. -/
def Spends (s s' : Session) : Prop :=
  ∃ more, s'.player.bus.begun = s.player.bus.begun ++ more ∧ more.length + s'.pending ≤ s.pending

lemma Spends.of_eq (hbegun : s'.player.bus.begun = s.player.bus.begun)
    (hpending : s'.pending ≤ s.pending) : Spends s s' :=
  ⟨[], by rw [hbegun, List.append_nil], by simpa using hpending⟩

lemma Spends.trans (h : Spends s s') (h' : Spends s' s'') : Spends s s'' := by
  obtain ⟨more, hmore, hcount⟩ := h
  obtain ⟨rest, hrest, hcount'⟩ := h'
  refine ⟨more ++ rest, by rw [hrest, hmore, List.append_assoc], ?_⟩
  rw [List.length_append]
  omega

/-- A step changes the number of pending steps by what becomes of the request. -/
lemma Moved.pending {t : Task} {x : Player × Progress} (h : s.Moved s' t x) :
    s'.pending + [t].countP (·.phase.isPending) =
      s.pending + (x.2.tasks t.id).countP (·.phase.isPending) := by
  obtain ⟨left, right, htasks, htasks'⟩ := h.tasks
  have hsplit : s.tasks = left ++ [t] ++ right := by rw [htasks, List.append_assoc]; rfl
  unfold Session.pending
  rw [hsplit, htasks']
  simp only [List.countP_append]
  omega

/-- A pause brings the playback to rest. -/
lemma Solo.held_pause (h : s.Solo id) (hpause : s.player.pause.1 = .ok ()) :
    Held id { s with player := s.player.pause.2 } := by
  obtain ⟨hunder, hrests⟩ := Player.pause_spec hpause
  refine ⟨h.call .pause, fun t ht => ?_, ?_⟩
  · cases hearly : t.phase.isEarly with
    | false => rfl
    | true => exact absurd ((h.early t ht hearly).1.symm.trans hunder) (by decide)
  · rcases hrests with hstill | ⟨hstate, hq, hasked⟩
    · exact .standstill hstill
    · obtain ⟨t, ht, line, hline, hentered⟩ := h.waiting hstate
      refine .due ht hline ⟨hasked, ?_⟩
      rw [if_pos hentered]
      exact hq

/-- A call other than to resume keeps the playback at rest. -/
lemma Resting.call {c : Call} (h : s.Resting id) (hc : c ≠ .resume) :
    Resting id { s with player := s.player.perform c } := by
  have hspared := Player.spared_perform (p := s.player) (c := c)
  have hsteers := Player.steers_perform (p := s.player) (c := c)
  generalize s.player.perform c = q at hspared hsteers
  cases h with
  | gone h => exact .gone h
  | standstill h =>
    refine .standstill ?_
    rcases h with h | h
    · exact .inl fun hnone => h (hspared.deferred.symm.trans hnone)
    · cases hsteers with
      | pauses _ hq => exact .inr (.inl hq)
      | asks hstate =>
        rw [show s.player.bearing.state = s.player.state from rfl, hstate] at h
        rcases h with h | h <;> cases h
      | resumes | unasks => exact absurd rfl hc
      | stops hq => exact .inr (.inr (congrArg State.isTerminal hq))
      | keeps hq =>
        refine .inr ?_
        rw [show q.bearing.state = q.state from rfl, hq]
        exact h
  | @due t line ht hline h =>
    obtain ⟨hpause, hstate⟩ := h
    cases hsteers with
    | pauses _ hq => exact .standstill (.inr (.inl hq))
    | asks hwas hq hasked => exact .due ht hline ⟨hasked, hq.trans (hwas.symm.trans hstate)⟩
    | resumes | unasks => exact absurd rfl hc
    | stops hq => exact .standstill (.inr (.inr (congrArg State.isTerminal hq)))
    | keeps hq hasked => exact .due ht hline ⟨hasked.trans hpause, hq.trans hstate⟩

/-- In a session whose playback has come to its lines, a step is one of those that `Turn` lists. -/
lemma Solo.turn {t : Task} {x : Player × Progress} (h : s.Solo id)
    (hlate : ∀ t ∈ s.tasks, t.phase.isEarly = false) (hmoved : s.Moved s' t x) :
    Player.Turn t.id s.player t.phase x := by
  have hready : (s.player.step t.id t.phase).2 ≠ .blocked := hmoved.step ▸ hmoved.ready
  rw [← hmoved.step]
  rcases h.role hmoved.mem with hrole | hrole
  · exact (Player.turn_playback hrole (hlate t hmoved.mem)).resolve_left hready
  · exact (Player.turn_side hrole).resolve_left hready

/-- A playback that rests after its step brings its session to rest. -/
lemma Moved.resting {t : Task} {x : Player × Progress} (hmoved : s.Moved s' t x) (hs : s.Solo id)
    (h : Player.Rests t.phase x) : s'.Resting id := by
  rcases h with ⟨hplayback, answer, hends⟩ | hstill | ⟨next, line, hgoes, hline, hdue⟩
  · have hid : t.id = id := by
      by_contra hne
      have hside := hs.side t hmoved.mem hne
      rw [Phase.isSide_of_isPlayback hplayback] at hside
      cases hside
    refine .gone fun u hu => ?_
    rcases hmoved.cases hs.distinct hu with ⟨-, hne⟩ | ⟨-, hgoes⟩
    · exact hid ▸ hne
    · rw [hends] at hgoes
      cases hgoes
  · exact .standstill (hmoved.player ▸ hstill)
  · exact .due (hmoved.mem_next hgoes) hline (hmoved.player ▸ hdue)

/-- A step of a request keeps the playback at rest, and begins no line unless it was pending. -/
lemma Resting.moved {t : Task} {x : Player × Progress} (h : s.Resting id) (hs : s.Solo id)
    (hmoved : s.Moved s' t x) (hturn : Player.Turn t.id s.player t.phase x) :
    s'.Resting id ∧ (Player.Begins t.id s.player t.phase → t.phase.isPending = true) := by
  have ht := hmoved.mem
  cases h with
  | gone hgone =>
    have hside := hs.side t ht (hgone t ht)
    refine ⟨.gone fun u hu => ?_, fun hbegins => hbegins.driver.resolve_right fun hplayback => ?_⟩
    · rcases hmoved.cases hs.distinct hu with ⟨hold, -⟩ | ⟨hut, -⟩
      · exact hgone u hold
      · exact hut ▸ hgone t ht
    · rw [Phase.isPlayback_of_isSide hside] at hplayback
      cases hplayback
  | standstill hstill =>
    exact ⟨hmoved.resting hs (hstill.turn hturn), hstill.isPending_of_begins⟩
  | @due u line hu hline hdue =>
    by_cases hut : u = t
    · rw [hut] at hline
      refine ⟨hmoved.resting hs (hdue.turn hline hturn), fun hbegins => ?_⟩
      rw [hbegins.unlined] at hline
      cases hline
    · -- Another request has the line in flight, and with it the lock.
      have hne : u.id ≠ t.id := fun heq =>
        hut (List.inj_on_of_nodup_map hs.distinct hu ht heq)
      have hheld := hs.held u hu line hline
      refine ⟨?_, fun hbegins => absurd (Lock.isHeldBy_unique hheld hbegins.held) hne⟩
      rcases hdue.turn_other hheld hne (hs.held t ht) hturn with hends | hdue'
      · exact hmoved.resting hs (.inl hends)
      · exact .due (hmoved.mem_of_ne hu hut) hline (hmoved.player ▸ hdue')

/-- A step of a request keeps the playback at rest, and a line that it begins was pending. -/
lemma Held.go {n : Nat} (h : s.Held id) (hdoes : s.Does (.go n) s') :
    s'.Held id ∧ s.Spends s' := by
  obtain ⟨t, x, -, hmoved⟩ := hdoes.moved
  have hturn := h.solo.turn h.late hmoved
  obtain ⟨hresting, hbegins⟩ := h.resting.moved h.solo hmoved hturn
  have hlate : ∀ u ∈ s'.tasks, u.phase.isEarly = false := fun u hu => by
    rcases hmoved.cases h.solo.distinct hu with ⟨hold, -⟩ | ⟨-, hgoes⟩
    · exact h.late u hold
    · exact hturn.late hgoes
  refine ⟨⟨h.solo.go hdoes, hlate, hresting⟩, ?_⟩
  have hpending := hmoved.pending
  rcases hturn.begets with ⟨hbegun, hnext⟩ | ⟨hb, ⟨index, hbegun⟩, hnext⟩
  · have hcount : (x.2.tasks t.id).countP (·.phase.isPending) ≤
        [t].countP (·.phase.isPending) := by
      cases hprogress : x.2 with
      | goes next =>
        have hkept := hnext next hprogress
        cases hn : next.isPending with
        | true => simp [Progress.tasks, hn, hkept hn]
        | false => simp [Progress.tasks, hn]
      | blocked | ends => simp [Progress.tasks]
    exact .of_eq (hmoved.player ▸ hbegun) (by omega)
  · have hgone : (x.2.tasks t.id).countP (·.phase.isPending) = 0 := by
      cases hprogress : x.2 with
      | goes next => simp [Progress.tasks, hnext next hprogress]
      | blocked | ends => simp [Progress.tasks]
    have hone : [t].countP (·.phase.isPending) = 1 := by simp [hbegins hb]
    refine ⟨[index], hmoved.player ▸ hbegun, ?_⟩
    rw [List.length_singleton]
    omega

/-- Whatever is quiet keeps the playback at rest, and the lines that are begun were pending. -/
lemma Held.does (h : s.Held id) (ha : Quiet id a) (hdoes : s.Does a s') :
    s'.Held id ∧ s.Spends s' := by
  have hsolo := h.solo.does ha.beside hdoes
  cases a with
  | submit n r =>
    obtain ⟨hne, hside, hpending⟩ := ha
    cases hdoes with
    | submit =>
      refine ⟨⟨hsolo, fun t ht => ?_, ?_⟩, .of_eq rfl ?_⟩
      · rcases List.mem_append.mp ht with hold | hnew
        · exact h.late t hold
        · rw [List.mem_singleton.mp hnew]
          cases hearly : (Phase.entering r).isEarly with
          | false => rfl
          | true =>
            have hnot := Phase.isPlayback_of_isSide hside
            rw [Phase.isPlayback_of_isEarly hearly] at hnot
            cases hnot
      · cases h.resting with
        | gone hgone =>
          refine .gone fun t ht => ?_
          rcases List.mem_append.mp ht with hold | hnew
          · exact hgone t hold
          · rw [List.mem_singleton.mp hnew]
            exact hne
        | standstill hstill => exact .standstill hstill
        | due ht hline hdue => exact .due (List.mem_append_left _ ht) hline hdue
      · simp [pending, submit, List.countP_append, hpending]
  | call c =>
    cases hdoes with
    | call =>
      have hc : c ≠ .resume := by
        rintro rfl
        exact ha
      exact ⟨⟨hsolo, h.late, h.resting.call hc⟩, .of_eq Player.spared_perform.begun (Nat.le_refl _)⟩
  | go n => exact h.go hdoes
  | wait now =>
    cases hdoes with
    | wait =>
      refine ⟨⟨hsolo, h.late, ?_⟩, .of_eq rfl (Nat.le_refl _)⟩
      cases h.resting with
      | gone hgone => exact .gone hgone
      | standstill hstill => exact .standstill hstill
      | due ht hline hdue => exact .due ht hline hdue

/-- A playback at rest stays there as long as things are quiet. -/
lemma Held.evolves (h : s.Held id) (hs : s.Evolves (Quiet id) s') :
    s'.Held id ∧ s.Spends s' := by
  induction hs with
  | refl => exact ⟨h, .of_eq rfl (Nat.le_refl _)⟩
  | tail _ hmay ih =>
    obtain ⟨a, ha, hdoes⟩ := hmay
    obtain ⟨hheld, hspends⟩ := ih.1.does ha hdoes
    exact ⟨hheld, ih.2.trans hspends⟩

/-- Once a playback is paused, lines are begun only by single steps that had been requested before
and had not begun theirs, at most one by each, until the playback is resumed or another step is
requested.  When no line is in flight any more, the playback is paused, or it has ended or is about
to. -/
theorem pause_is_honoured {s₀ : Session} (hopening : s₀.Opening id)
    (hs : s₀.Evolves (Beside id) s) (hpause : s.player.pause.1 = .ok ())
    (hs' : Evolves (Quiet id) { s with player := s.player.pause.2 } s') :
    (∃ more, s'.player.bus.begun = s.player.bus.begun ++ more ∧
      more.length + s'.pending ≤ s.pending) ∧
    ((∀ t ∈ s'.tasks, t.phase.line? = none) →
      s'.player.state = .paused ∨ s'.player.state.isTerminal = true ∨
        s'.player.deferred ≠ none ∨ ∀ t ∈ s'.tasks, t.id ≠ id) := by
  have hsolo := (Solo.of_opening hopening).evolves hs
  obtain ⟨hheld, more, hmore, hcount⟩ := (hsolo.held_pause hpause).evolves hs'
  have hbegun : s.player.pause.2.bus.begun = s.player.bus.begun :=
    (Player.spared_perform (c := .pause)).begun
  refine ⟨⟨more, hmore.trans (by rw [hbegun]), hcount⟩, fun hnone => ?_⟩
  cases hheld.resting with
  | gone h => exact .inr (.inr (.inr h))
  | standstill h =>
    rcases h with h | h | h
    · exact .inr (.inr (.inl h))
    · exact .inl h
    · exact .inr (.inl h)
  | due ht hline =>
    rw [hnone _ ht] at hline
    cases hline

/-! ### A text that is paused while it is shown -/

/-- Two texts. -/
def duet : Script := ⟨"duet", [.text "one", .text "two"]⟩

/-- The duet is to be played, and each text to be shown for a while. -/
def stage : Session :=
  submit
    { player := .create { presenter := some { span := .ofMillis 10 } } { capacity := 16 } none }
    0 (.play duet .beginning false)

/-- The first text is being shown. -/
def onStage : Session := ((stage.turn 0).turn 0).turn 0

/-- The first text is being shown, and a single step waits for its line. -/
def prompted : Session := (onStage.submit 1 .stepForward).turn 1

lemma opening_stage : stage.Opening 0 := ⟨⟨_, rfl, rfl⟩, rfl, rfl, rfl⟩

lemma evolves_onStage : stage.Evolves (Beside 0) onStage :=
  Evolves.turn (Evolves.turn (Evolves.turn .refl (fun _ => trivial) 0) (fun _ => trivial) 0)
    (fun _ => trivial) 0

/-- The first text is paused, and nothing else is shown. -/
theorem duet_paused :
    let s := { onStage with player := onStage.player.pause.2 }
    let s' := (s.setClock 10).turn 0
    onStage.player.pause.1 = .ok () ∧ onStage.player.bus.begun = [0] ∧
      s'.player.bus.begun = [0] ∧ s'.player.state = .paused := by
  have hwait : Evolves (Quiet 0) { onStage with player := onStage.player.pause.2 }
      (Session.setClock { onStage with player := onStage.player.pause.2 } 10) :=
    Evolves.tail (a := .wait 10) .refl trivial (.wait (Nat.zero_le _))
  have hturn := Evolves.turn hwait (fun _ => trivial) 0
  have honoured := pause_is_honoured opening_stage evolves_onStage rfl hturn
  obtain ⟨⟨more, hmore, hcount⟩, hpaused⟩ := honoured
  have hnone : more = [] := by
    have hpending : onStage.pending = 0 := rfl
    rw [hpending] at hcount
    exact List.length_eq_zero_iff.mp (by omega)
  refine ⟨rfl, rfl, ?_, ?_⟩
  · rw [hnone, List.append_nil] at hmore
    exact hmore
  · rfl

/-- A single step that waited for its line when the playback was paused begins it nevertheless. -/
theorem waiting_step_outlasts_pause :
    let paused := { prompted with player := prompted.player.pause.2 }
    let s' := ((paused.setClock 10).turn 0).turn 1
    stage.Evolves (Beside 0) prompted ∧ prompted.player.pause.1 = .ok () ∧
      paused.Evolves (Quiet 0) s' ∧
      prompted.player.bus.begun = [0] ∧ s'.player.bus.begun = [0, 1] := by
  have hsubmit : stage.Evolves (Beside 0) (onStage.submit 1 .stepForward) :=
    evolves_onStage.tail (a := .submit 1 .stepForward) ⟨Nat.one_ne_zero, rfl⟩
      (.submit fun t ht => ?_)
  · have hwait : Evolves (Quiet 0) { prompted with player := prompted.player.pause.2 }
        (Session.setClock { prompted with player := prompted.player.pause.2 } 10) :=
      Evolves.tail (a := .wait 10) .refl trivial (.wait (Nat.zero_le _))
    have hturns := Evolves.turn (Evolves.turn hwait (fun _ => trivial) 0) (fun _ => trivial) 1
    exact ⟨hsubmit.turn (fun _ => trivial) 1, rfl, hturns, rfl, rfl⟩
  · have hid : t.id = 0 := by
      have hall : onStage.tasks.all (·.id == 0) = true := rfl
      simpa using List.all_eq_true.mp hall t ht
    rw [hid]
    exact Nat.zero_ne_one

end Session

end Recital

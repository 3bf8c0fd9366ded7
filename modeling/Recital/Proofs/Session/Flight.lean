import Recital.Proofs.Session.Waiting

/-!
# Waiting for a command in flight

The state of a playback becomes `waiting` when a command is dispatched, and goes back when the
command has ended.  Between the two, the playback may be stopped, reset or replaced by another one,
and a playback that finds the state `waiting` where it could take up a line does not wait for
anything: it looks again.

That this never goes on for ever rests on who has the line lock.  Only a step that begins the line
of a request makes the state `waiting`, out of `playing` (`Player.waits_of_execution`), and that
request has the line lock until the command has ended.  The whole story of a command is told by
`Session.InFlight`: the step that dispatched it, and then only steps with which the state has stayed
`waiting` and the command in flight.  If the state is `waiting`, there is such a story for the
request that has the line lock (`Session.exists_inFlight`).
-/

namespace Recital

/-! ### Commands -/

/-- The attempt that a line waits for, or between two of which it rests. -/
def LinePhase.job? : LinePhase → Option Job
  | .flying j _ | .resting j _ => some j
  | _ => none

lemma LinePhase.entered_of_job? {line : LinePhase} {j : Job} (h : line.job? = some j) :
    line.entered = j.entered := by
  cases line with
  | flying i _ | resting i _ =>
    cases h
    rfl
  | presenting | switching => cases h

lemma LinePhase.exists_job? {line : LinePhase} (h : line.entered = true) :
    ∃ j, line.job? = some j ∧ j.entered = true := by
  cases line with
  | flying j _ | resting j _ => exact ⟨j, rfl, h⟩
  | presenting | switching => cases h

namespace Player

variable {p : Player} {id : Nat} {phase next : Phase} {line : LinePhase} {j : Job} {b : Bearing}
  {entered : Bool} {y : Player × LineProgress}

/-- A call does not make the state `waiting`. -/
lemma waiting_of_perform {call : Call} (h : (p.perform call).state = .waiting) :
    p.state = .waiting := by
  have hsteers := steers_perform (p := p) (c := call)
  generalize p.perform call = q at h hsteers
  cases hsteers with
  | pauses _ hq | resumes _ hq | stops hq => cases hq.symm.trans h
  | asks hstate => exact hstate
  | unasks hq | keeps hq => exact hq.symm.trans h

/-- What follows without a change of the state has not changed it. -/
lemma Follows.unentered (h : Follows false b y) (hgoes : y.2 = .goes line) :
    line.entered = false := by
  obtain ⟨q, progress⟩ := y
  cases hgoes
  exact h.elim And.right And.right

/-- A line leaves no state `waiting` that was not so. -/
lemma Follows.waiting_before (h : Follows entered b y) (hwaiting : y.1.state = .waiting) :
    b.state = .waiting := by
  obtain ⟨q, progress⟩ := y
  have hbearing : ∀ {c : Bearing}, q.bearing = c → c.state = .waiting := fun hq =>
    (congrArg Bearing.state hq).symm.trans hwaiting
  cases progress with
  | blocked => exact h.elim
  | goes next =>
    rcases h with ⟨hq, -⟩ | ⟨hq, -⟩
    · exact hbearing hq
    · exact (Bearing.waiting_of_left (hbearing hq)).1
  | ends by_ =>
    rcases h with hq | ⟨hq, -⟩
    · exact (Bearing.waiting_of_left (Bearing.waiting_of_settled (hbearing hq))).1
    · exact (Bearing.waiting_of_left (hbearing hq)).1

/-- What is launched is the attempt. -/
lemma job_launch (hgoes : (p.launch j).2 = .goes line) : line.job? = some j := by
  unfold launch at hgoes
  dsimp only at hgoes
  split at hgoes
  · cases hgoes
    rfl
  · cases hgoes
    rfl

/-- After an attempt that failed, another one may follow for which the state stays changed. -/
lemma job_attemptFailed {failure : Failure} (hgoes : (p.attemptFailed j failure).2 = .goes line)
    (hentered : line.entered = true) : line.job? = some j := by
  unfold attemptFailed at hgoes
  dsimp only at hgoes
  split at hgoes
  · cases hgoes
    rfl
  · cases (follows_handleFault.unentered hgoes).symm.trans hentered

lemma job_land {f : Flight} {verdict : Except Failure CommandResult}
    (hgoes : (p.land j f verdict).2 = .goes line) (hentered : line.entered = true) :
    line.job? = some j := by
  unfold land at hgoes
  dsimp only at hgoes
  split at hgoes
  · cases (follows_finishLine.unentered hgoes).symm.trans hentered
  · split at hgoes
    · cases hgoes
    · exact job_attemptFailed hgoes hentered

/-- The attempts of one command. -/
structure Repeats (i j : Job) : Prop where
  work : j.work = i.work
  command : j.command = i.command

/-- While the state stays changed for a line, the line is about the same command. -/
lemma job_stepLine {next : LinePhase} (hgoes : (p.stepLine line).2 = .goes next)
    (hentered : next.entered = true) :
    ∃ i j, line.job? = some i ∧ next.job? = some j ∧ Repeats i j := by
  cases line with
  | flying j f =>
    simp only [stepLine] at hgoes
    split at hgoes
    · exact ⟨j, j, rfl, job_land hgoes hentered, rfl, rfl⟩
    · cases hgoes
  | resting j until_ =>
    simp only [stepLine] at hgoes
    split at hgoes
    · cases hgoes
    · split at hgoes
      · exact ⟨j, _, rfl, job_launch hgoes, rfl, rfl⟩
      · cases hgoes
  | presenting w until_ verdict =>
    simp only [stepLine] at hgoes
    split at hgoes
    · cases hgoes
    · split at hgoes
      · cases (follows_presented.unentered hgoes).symm.trans hentered
      · cases hgoes
  | switching w caller script recovered =>
    cases (follows_switchScript.unentered hgoes).symm.trans hentered

/-! ### Requests -/

/-- A request executes its line in the next step. -/
lemma execution?_of_line (h : phase.line? = some line) :
    p.execution? id phase = some (p.stepLine line) := by
  cases phase with
  | playing play l | stepping l =>
    cases h
    rfl
  | _ => cases h

/-- What becomes of a request by what has become of its line. -/
inductive Relays : Player × LineProgress → Player × Progress → Prop
  | blocked {q : Player} : Relays (q, .blocked) (q, .blocked)
  | goes {q : Player} {line : LinePhase} {next : Phase} (hline : next.line? = some line) :
    Relays (q, .goes line) (q, .goes next)
  /-- After its line a request is not held up at once, and has no other line yet. -/
  | ends {q : Player} {by_ : LineEnd} {x : Player × Progress} (hready : x.2 ≠ .blocked)
    (hline : ∀ next, x.2 = .goes next → next.line? = none) : Relays (q, .ends by_) x

lemma relays_step (h : p.execution? id phase = some y) : Relays y (p.step id phase) := by
  obtain ⟨q, progress⟩ := y
  rcases step_of_execution h with ⟨-, hstep⟩ | ⟨-, play, -, hstep⟩
  · rw [hstep]
    cases progress with
    | blocked => exact .blocked
    | goes line => exact .goes rfl
    | ends by_ =>
      cases by_ with
      | next => exact .ends (fun h => nomatch h) fun _ h => nomatch h
      | finished f => exact .ends (fun h => nomatch h) fun _ h => nomatch h
  · rw [hstep]
    cases progress with
    | blocked => exact .blocked
    | goes line => exact .goes rfl
    | ends by_ =>
      have htarries : PlaysNoLine play.token q (q.afterLine id play by_) := playsNoLine_afterLine
      refine .ends (fun hblocked => ?_) fun next hnext => (htarries.next hnext).2
      have hended : (q.afterLine id play by_).2 = .blocked := hblocked
      generalize q.afterLine id play by_ = x at htarries hended
      cases htarries with
      | goes => cases hended
      | ends hx => cases hx.ends.symm.trans hended

/-- A request that goes on with a line hands on what has become of it. -/
lemma goes_of_execution (h : p.execution? id phase = some y)
    (hnext : (p.step id phase).2 = .goes next) (hline : next.line? = some line) :
    y = ((p.step id phase).1, .goes line) := by
  have hrelays := relays_step h
  generalize p.step id phase = x at hrelays hnext
  cases hrelays with
  | blocked => cases hnext
  | goes hgoes =>
    cases hnext
    obtain rfl := Option.some.inj (hgoes.symm.trans hline)
    rfl
  | ends _ hnone => cases (hnone next hnext).symm.trans hline

/-- A request with a line is held up by the line only. -/
lemma blocked_of_line (hline : phase.line? = some line) (h : (p.step id phase).2 = .blocked) :
    (p.stepLine line).2 = .blocked := by
  have hrelays : Relays (p.stepLine line) (p.step id phase) :=
    relays_step (execution?_of_line hline)
  generalize p.stepLine line = y, p.step id phase = x at hrelays h
  cases hrelays with
  | blocked => rfl
  | goes => cases h
  | ends hready => exact (hready h).elim

/-- Who comes to take up a line without the line lock has to wait for it. -/
lemma blocked_of_not_held (hphase : (∃ play, phase = .playLock play) ∨ phase = .stepLock)
    (h : p.lineLock.isHeldBy id = false) : (p.step id phase).2 = .blocked := by
  rcases hphase with ⟨play, rfl⟩ | rfl
  · simp only [step]
    rw [h, if_neg Bool.false_ne_true]
  · simp only [step]
    rw [h, if_neg Bool.false_ne_true]

/-- Only the step that begins the line of a request makes the state `waiting`, from `playing`. -/
lemma waits_of_execution (h : p.execution? id phase = some y) (hbefore : p.state ≠ .waiting)
    (hwaiting : y.1.state = .waiting) : p.state = .playing ∧ phase.line? = none := by
  have hstill : ∀ line, y = p.stepLine line → False := by
    rintro line rfl
    rcases follows_stepLine p line with hblocked | hfollows
    · rw [hblocked] at hwaiting
      exact hbefore hwaiting
    · exact hbefore (hfollows.waiting_before hwaiting)
  cases phase with
  | playing play line | stepping line => exact (hstill line (Option.some.inj h).symm).elim
  | playLock play =>
    simp only [execution?] at h
    split at h
    · next hgo => exact ⟨hgo.2.2.1, rfl⟩
    · cases h
  | stepLock =>
    simp only [execution?] at h
    split at h
    · obtain ⟨token, -, rfl⟩ := Option.map_eq_some_iff.mp h
      obtain ⟨r, hr⟩ : ∃ r : Player,
          r = { p with context := { p.context with stepMode := true } } := ⟨_, rfl⟩
      have hstate : r.state = p.state := by rw [hr]; rfl
      rw [← hr] at hwaiting
      rcases follows_beginLine r token with ⟨hbearing, -⟩ | ⟨index, entered, hplaying, hfollows⟩
      · have hsame : (r.beginLine token).1.state = r.state := congrArg Bearing.state hbearing
        exact absurd (hstate.symm.trans (hsame.symm.trans hwaiting)) hbefore
      · have hbegins := hfollows.waiting_before hwaiting
        cases entered with
        | true => exact ⟨hstate.symm.trans (hplaying rfl), rfl⟩
        | false => exact absurd (hstate.symm.trans hbegins) hbefore
    · cases h
  | _ => cases h

/-- A command in flight ends at the latest at one of its timers, and a rest between two attempts
does so, too. -/
lemma exists_timer_of_job? (hjob : line.job? = some j) :
    ∃ instant ∈ line.timers, ∀ q : Player, instant ≤ q.now → (q.stepLine line).2 ≠ .blocked := by
  cases line with
  | flying i f =>
    refine ⟨f.limit, by simp [LinePhase.timers], fun q hnow hblocked => ?_⟩
    obtain ⟨verdict, hverdict⟩ : ∃ verdict, q.landing i f = some verdict := by
      unfold landing
      rw [if_pos hnow]
      split
      · exact ⟨_, rfl⟩
      · split <;> exact ⟨_, rfl⟩
    have hstep : q.stepLine (.flying i f) = q.land i f verdict := by
      simp only [stepLine, hverdict]
    rw [hstep] at hblocked
    exact (follows_land (p := q) (j := i) (f := f)).ready hblocked
  | resting i until_ =>
    refine ⟨until_, List.mem_singleton_self _, fun q hnow hblocked => ?_⟩
    simp only [stepLine] at hblocked
    rw [if_pos hnow] at hblocked
    split at hblocked
    · cases hblocked
    · exact (follows_launch (p := q)).ready hblocked
  | presenting | switching => cases hjob

/-- Then the request that has the line goes on, too. -/
lemma exists_timer (id : Nat) (hline : phase.line? = some line) (hjob : line.job? = some j) :
    ∃ instant ∈ phase.timers, ∀ q : Player, instant ≤ q.now → (q.step id phase).2 ≠ .blocked := by
  obtain ⟨instant, hinstant, hready⟩ := exists_timer_of_job? hjob
  have hmem : instant ∈ phase.timers := by
    cases phase with
    | playing play l | stepping l =>
      cases hline
      exact hinstant
    | _ => cases hline
  exact ⟨instant, hmem, fun q hnow hblocked => hready q hnow (blocked_of_line hline hblocked)⟩

end Player

namespace Session

variable {start s s' : Session} {a : Action} {t : Task} {id : Nat} {w : Work} {c : Command}

/-! ### The story of a command -/

/-- The request with a number has a command in flight, or is to attempt it again, and has changed
the state for it. -/
def Flies (s : Session) (id : Nat) (w : Work) (c : Command) : Prop :=
  ∃ t ∈ s.tasks, t.id = id ∧ ∃ line j, t.phase.line? = some line ∧ line.job? = some j ∧
    j.entered = true ∧ j.work = w ∧ j.command = c

/-- A command is between its dispatch, which has changed the state from `playing` to `waiting`, and
the change back; the state has been `waiting` ever since. -/
inductive InFlight (start : Session) (id : Nat) (w : Work) (c : Command) : Session → Prop
  /-- A request without a line has dispatched the command. -/
  | dispatched {s s' : Session} (hs : start.Evolves (fun _ => True) s) (hdoes : s.Does (.go id) s')
    (hunlined : ∀ t ∈ s.tasks, t.id = id → t.phase.line? = none)
    (hplaying : s.player.state = .playing) (hwaiting : s'.player.state = .waiting)
    (hflies : s'.Flies id w c) : InFlight start id w c s'
  /-- Something has happened, and the command is in flight. -/
  | stays {s s' : Session} {a : Action} (h : InFlight start id w c s) (hdoes : s.Does a s')
    (hwaiting : s'.player.state = .waiting) (hflies : s'.Flies id w c) : InFlight start id w c s'

lemma InFlight.flies (h : start.InFlight id w c s) : s.Flies id w c := by
  cases h with
  | dispatched _ _ _ _ _ hflies => exact hflies
  | stays _ _ _ hflies => exact hflies

/-- Who has a command in flight has the line lock. -/
lemma Flies.isHeldBy (h : s.Flies id w c) (hs : s.Attentive) :
    s.player.lineLock.isHeldBy id = true := by
  obtain ⟨t, ht, rfl, line, -, hline, -⟩ := h
  exact isHeldBy_of_line hs ht hline

/-- Who executes a line in the next step has the line lock. -/
lemma isHeldBy_of_execution {y : Player × LineProgress} (hs : s.Attentive) (ht : t ∈ s.tasks)
    (h : s.player.execution? t.id t.phase = some y) : s.player.lineLock.isHeldBy t.id = true := by
  cases hline : t.phase.line? with
  | none => exact ((Player.held_of_execution h).2 hline).1
  | some line => exact isHeldBy_of_line hs ht hline

/-- A request that has a command in flight, and still has one after its step, has the same. -/
lemma Flies.same {y : Player × LineProgress} {line : LinePhase} {j : Job} (h : s.Flies t.id w c)
    (hs : s.Attentive) (ht : t ∈ s.tasks) (hexec : s.player.execution? t.id t.phase = some y)
    (hgoes : y.2 = .goes line) (hentered : line.entered = true) (hjob : line.job? = some j) :
    j.work = w ∧ j.command = c := by
  obtain ⟨u, hu, hid, old, i, hold, hi, -, rfl, rfl⟩ := h
  obtain rfl : u = t := List.inj_on_of_nodup_map hs.distinct hu ht hid
  obtain rfl : s.player.stepLine old = y :=
    Option.some.inj ((Player.execution?_of_line hold).symm.trans hexec)
  obtain ⟨i', j', hi', hj', hrepeats⟩ := Player.job_stepLine hgoes hentered
  obtain rfl : i = i' := Option.some.inj (hi.symm.trans hi')
  obtain rfl : j = j' := Option.some.inj (hjob.symm.trans hj')
  exact ⟨hrepeats.work, hrepeats.command⟩

/-- The step of a request after which the state is `waiting` belongs to the story of a command. -/
lemma inFlight_go {x : Player × Progress} (hstart : start.Evolves (fun _ => True) s)
    (hcomposed : s.Composed) (hdoes : s.Does (.go t.id) s') (hmoved : s.Moved s' t x)
    (hbefore : s.player.state = .waiting → ∃ id w c, start.InFlight id w c s)
    (hwaiting : s'.player.state = .waiting) : ∃ id w c, start.InFlight id w c s' := by
  have hready : (s.player.step t.id t.phase).2 ≠ .blocked := hmoved.step ▸ hmoved.ready
  have honly : ∀ u ∈ s.tasks, u.id = t.id → u = t := fun u hu hid =>
    List.inj_on_of_nodup_map hcomposed.attentive.distinct hu hmoved.mem hid
  have hstate : (s.player.step t.id t.phase).1.state = .waiting := by
    rw [hmoved.step, ← hmoved.player]
    exact hwaiting
  rcases (Player.stateFollows_step t.id t.phase s.player hready).waiting hstate with
    ⟨next, line, hgoes, hline, hentered⟩ | ⟨hwaits, hown⟩
  · -- The request itself has a command in flight: it has dispatched it now, or had it already.
    obtain ⟨j, hjob, hjentered⟩ := LinePhase.exists_job? hentered
    have hflies : s'.Flies t.id j.work j.command :=
      ⟨{ t with phase := next }, hmoved.mem_next (hmoved.step ▸ hgoes), rfl, line, j, hline, hjob,
        hjentered, rfl, rfl⟩
    obtain ⟨y, hexec⟩ := Option.isSome_iff_exists.mp
      ((Player.next_step t.id hready hgoes).1 (by rw [hline]; rfl))
    have hy : y = ((s.player.step t.id t.phase).1, .goes line) :=
      Player.goes_of_execution hexec hgoes hline
    by_cases hwaits : s.player.state = .waiting
    · obtain ⟨id, w, c, hflight⟩ := hbefore hwaits
      obtain rfl : id = t.id := Lock.isHeldBy_unique (hflight.flies.isHeldBy hcomposed.attentive)
        (isHeldBy_of_execution hcomposed.attentive hmoved.mem hexec)
      obtain ⟨rfl, rfl⟩ := hflight.flies.same hcomposed.attentive hmoved.mem hexec (by rw [hy])
        hentered hjob
      exact ⟨t.id, _, _, hflight.stays hdoes hwaiting hflies⟩
    · obtain ⟨hplaying, hunlined⟩ :=
        Player.waits_of_execution hexec hwaits (by rw [hy]; exact hstate)
      exact ⟨t.id, _, _, .dispatched hstart hdoes (fun u hu hid => honly u hu hid ▸ hunlined)
        hplaying hwaiting hflies⟩
  · -- Another request has one, and goes on having it.
    obtain ⟨id, w, c, hflight⟩ := hbefore hwaits
    obtain ⟨u, hu, rfl, line, j, hline, hjob, hentered, hwork⟩ := hflight.flies
    have hne : u ≠ t := by
      rintro rfl
      have hunentered := hown line hline
      rw [LinePhase.entered_of_job? hjob, hentered] at hunentered
      cases hunentered
    exact ⟨u.id, w, c, hflight.stays hdoes hwaiting
      ⟨u, hmoved.mem_of_ne hu hne, rfl, line, j, hline, hjob, hentered, hwork⟩⟩

/-- Whatever happens, a state that is `waiting` afterwards belongs to the story of a command. -/
lemma inFlight_does (hstart : start.Evolves (fun _ => True) s) (hcomposed : s.Composed)
    (hdoes : s.Does a s') (hbefore : s.player.state = .waiting → ∃ id w c, start.InFlight id w c s)
    (hwaiting : s'.player.state = .waiting) : ∃ id w c, start.InFlight id w c s' := by
  cases a with
  | go n =>
    obtain ⟨t, x, rfl, hmoved⟩ := hdoes.moved
    exact inFlight_go hstart hcomposed hdoes hmoved hbefore hwaiting
  | submit n r =>
    have hwaits := hwaiting
    cases hdoes
    obtain ⟨id, w, c, hflight⟩ := hbefore hwaits
    obtain ⟨t, ht, hline⟩ := hflight.flies
    exact ⟨id, w, c, hflight.stays (.submit ‹_›) hwaiting ⟨t, List.mem_append_left _ ht, hline⟩⟩
  | call call =>
    cases hdoes
    obtain ⟨id, w, c, hflight⟩ := hbefore (Player.waiting_of_perform hwaiting)
    exact ⟨id, w, c, hflight.stays .call hwaiting hflight.flies⟩
  | wait now =>
    cases hdoes
    obtain ⟨id, w, c, hflight⟩ := hbefore hwaiting
    exact ⟨id, w, c, hflight.stays (.wait ‹_›) hwaiting hflight.flies⟩

/-- In every session that a player gets into, a state that is `waiting` is so for a command in
flight. -/
lemma exists_inFlight {host : Host} {bus : Bus} {store : Option Store}
    (hs : Evolves (fun _ => True) { player := .create host bus store } s)
    (hwaiting : s.player.state = .waiting) :
    ∃ id w c, InFlight { player := .create host bus store } id w c s := by
  induction hs with
  | refl => cases hwaiting
  | tail hs hmay ih =>
    obtain ⟨a, -, hdoes⟩ := hmay
    exact inFlight_does hs (Composed.created.evolves hs) hdoes ih hwaiting

/-! ### Nobody waits for nothing -/

/-- The state is `waiting` only for a command in flight.  Whatever requests and calls are made to a
player, and in whatever order they go on: if the line lock is free, the state is not `waiting`; if
the state is `waiting`, the request that has the line lock has dispatched a command, by which the
state went from `playing` to `waiting`, and it has been so ever since with the command in flight,
which goes on by itself after some time.  Hence no request that gets the line lock finds the state
`waiting`: one that comes to take up a line then, a playback or a single step, has to wait for the
lock. -/
theorem waiting_is_for_a_command {host : Host} {bus : Bus} {store : Option Store}
    (hs : Evolves (fun _ => True) { player := .create host bus store } s) :
    (s.player.lineLock.holder = none → s.player.state ≠ .waiting) ∧
    (s.player.state = .waiting → ∃ t ∈ s.tasks, ∃ w c, s.player.lineLock.isHeldBy t.id = true ∧
      InFlight { player := .create host bus store } t.id w c s ∧
      ∃ instant ∈ t.phase.timers, ∀ p : Player, instant ≤ p.now →
        (p.step t.id t.phase).2 ≠ .blocked) ∧
    (∀ t ∈ s.tasks, t.phase.line? = none → s.player.lineLock.isHeldBy t.id = true →
      s.player.state ≠ .waiting) ∧
    (s.player.state = .waiting → ∀ t ∈ s.tasks, (∃ play, t.phase = .playLock play) ∨
      t.phase = .stepLock → (s.player.step t.id t.phase).2 = .blocked) := by
  have hcomposed : s.Composed := Composed.created.evolves hs
  have hflight : s.player.state = .waiting → ∃ t ∈ s.tasks, ∃ w c,
      s.player.lineLock.isHeldBy t.id = true ∧
      InFlight { player := .create host bus store } t.id w c s ∧
      ∃ instant ∈ t.phase.timers, ∀ p : Player, instant ≤ p.now →
        (p.step t.id t.phase).2 ≠ .blocked := fun hwaiting => by
    obtain ⟨id, w, c, hflight⟩ := exists_inFlight hs hwaiting
    have hheld := hflight.flies.isHeldBy hcomposed.attentive
    obtain ⟨t, ht, rfl, line, j, hline, hjob, -⟩ := hflight.flies
    exact ⟨t, ht, w, c, hheld, hflight, Player.exists_timer t.id hline hjob⟩
  refine ⟨fun hfree hwaiting => ?_, hflight, fun t ht hline hheld => ?_,
    fun hwaiting t ht hphase => ?_⟩
  · obtain ⟨t, -, -, -, hheld, -⟩ := hflight hwaiting
    unfold Lock.isHeldBy at hheld
    rw [hfree] at hheld
    cases hheld
  · exact hcomposed.ne_waiting ht hline hheld
  · have hline : t.phase.line? = none := by
      rcases hphase with ⟨play, hphase⟩ | hphase
      · rw [hphase]
        rfl
      · rw [hphase]
        rfl
    exact Player.blocked_of_not_held hphase (Bool.eq_false_iff.mpr fun hheld =>
      hcomposed.ne_waiting ht hline hheld hwaiting)

/-! ### A fermata -/

/-- A command between two texts. -/
def fermata : Script :=
  ⟨"fermata", [.text "one", .command "@wait 100" (some (.wait 100)), .text "two"]⟩

/-- The first text of the fermata is being shown, and a single step is asked for. -/
def poised : Session :=
  ((((foyer.submit 0 (.play fermata .beginning false)).turn 0).turn 0).turn 0).submit 1 .stepForward

/-- The first text has been shown, and the single step has dispatched the command before the
playback could. -/
def sustained : Session := (((poised.turn 1).setClock 10).turn 0).turn 1

/-- While the single step has the command in flight, the playback waits for the line lock. -/
theorem fermata_is_held :
    Evolves (fun _ => True) foyer sustained ∧ sustained.player.state = .waiting ∧
      sustained.player.lineLock.holder ≠ none ∧
      (∃ t ∈ sustained.tasks, ∃ w c, sustained.player.lineLock.isHeldBy t.id = true ∧
        InFlight foyer t.id w c sustained ∧
        ∃ instant ∈ t.phase.timers, ∀ p : Player, instant ≤ p.now →
          (p.step t.id t.phase).2 ≠ .blocked) ∧
      ∃ t ∈ sustained.tasks, t.id = 0 ∧ (sustained.player.step t.id t.phase).2 = .blocked := by
  have hasked : Evolves (fun _ => True) foyer (foyer.submit 0 (.play fermata .beginning false)) :=
    evolves_submit .refl rfl
  have hshown := ((hasked.turn (fun _ => trivial) 0).turn (fun _ => trivial) 0).turn
    (fun _ => trivial) 0
  have hpoised : Evolves (fun _ => True) foyer poised := evolves_submit hshown rfl
  have hclock := (hpoised.turn (fun _ => trivial) 1).tail (a := .wait 10) trivial
    (.wait (Nat.zero_le _))
  have hheld : Evolves (fun _ => True) foyer sustained :=
    (hclock.turn (fun _ => trivial) 0).turn (fun _ => trivial) 1
  have hwaiting : sustained.player.state = .waiting := rfl
  obtain ⟨hfree, hflight, -, hblocked⟩ := waiting_is_for_a_command hheld
  obtain ⟨t, ht, hid, play, hphase⟩ :
      ∃ t ∈ sustained.tasks, t.id = 0 ∧ ∃ play, t.phase = .playLock play :=
    ⟨_, List.mem_of_getElem? (i := 0) rfl, rfl, _, rfl⟩
  exact ⟨hheld, hwaiting, fun hnone => hfree hnone hwaiting, hflight hwaiting, t, ht, hid,
    hblocked hwaiting t ht (.inl ⟨play, hphase⟩)⟩

end Session

end Recital

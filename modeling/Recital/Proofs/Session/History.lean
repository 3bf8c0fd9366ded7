import Recital.Proofs.Session.Isolation
import Recital.Proofs.Session.Locks
import Recital.Proofs.Twin.Past

/-!
# Playing again

A player that has nothing in progress may have played any number of scripts, and each of those
playbacks may have ended in any way.  When it starts another playback, it forgets them: it does then
what a new player would do (`Player.renewed`) that is given the same host, bus and store, the same
breakpoints and the same speed, at the same time and with the same supply of identifiers and random
numbers.

What the old player keeps is a past (`Twin.Past`).  Getting ready for a playback, `Player.prepare`
leaves a player that was played and one that is new the same but for the past of the first
(`Player.prepare_after`).  From then on each step of the playback, each call and each moment that
passes leads the two sessions to the same but for that past (`Session.Echoes`).

A player that was shut down is not forgiven: it refuses to play, and a new one does not.
-/

namespace Recital

namespace Player

variable {p q : Player} {id : Nat} {script : Script} {start : Start} {bound : Bool} {run : Run}

/-- A new player that is given what a player has and stands where it stands in time, with the same
breakpoints and the same speed. -/
def renewed (p : Player) : Player :=
  { create p.host { p.bus with log := #[] } p.store with
    context := { breakpoints := p.context.breakpoints }
    serial := p.serial
    callerCancelled := p.callerCancelled
    speed := p.speed
    now := p.now
    prompt := p.prompt
    readings := p.readings
    draws := p.draws }

/-- What a player has behind it. -/
def past (p : Player) : Past :=
  { log := p.bus.log
    trace := p.trace
    samples := p.samples
    notes := p.notes
    cancelled := p.cancelled
    ledger := p.ledger
    recovery := p.recovery }

/-- What remains of a player when all is left out that belongs to a playback or to its past. -/
def bare (p : Player) : Player :=
  { p with
    bus := { p.bus with log := #[] }
    cell := {}
    context := { breakpoints := p.context.breakpoints }
    recovery := {}
    ledger := {}
    token := none
    run := .numbered 0
    cancelled := []
    pauseRequested := false
    stopRequested := false
    deferred := none
    spent := {}
    attempts := {}
    trace := #[]
    samples := #[]
    notes := #[] }

/-- What remains of a player that has nothing in progress is a new one. -/
lemma bare_eq (hup : p.isShutDown = false) (hgate : p.gate = {}) (hline : p.lineLock = {}) :
    p.bare = p.renewed := by
  simp only [bare]
  rw [hup, hgate, hline]
  rfl

/-! ### Changes of state -/

/-- Nothing but the state and what belongs to the playback has changed, and only changes of state
were published. -/
structure Shifts (p q : Player) : Prop where
  bare : q.bare = p.bare
  events : ∃ changes : Array Event, (∀ e ∈ changes, e.kind = .stateChanged) ∧
    q.bus.log = p.bus.log ++ changes
  trace : q.trace = p.trace
  samples : q.samples = p.samples
  notes : q.notes = p.notes

lemma Shifts.of_log (hbare : q.bare = p.bare) (hlog : q.bus.log = p.bus.log)
    (htrace : q.trace = p.trace) (hsamples : q.samples = p.samples) (hnotes : q.notes = p.notes) :
    Shifts p q :=
  ⟨hbare, ⟨#[], by simp, by simp [hlog]⟩, htrace, hsamples, hnotes⟩

lemma Shifts.trans {r : Player} (hpq : Shifts p q) (hqr : Shifts q r) : Shifts p r := by
  obtain ⟨a, ha, hpa⟩ := hpq.events
  obtain ⟨b, hb, hqb⟩ := hqr.events
  refine ⟨hqr.bare.trans hpq.bare, ⟨a ++ b, fun e he => ?_, ?_⟩, hqr.trace.trans hpq.trace,
    hqr.samples.trans hpq.samples, hqr.notes.trans hpq.notes⟩
  · rcases Array.mem_append.mp he with he | he
    · exact ha e he
    · exact hb e he
  · rw [hqb, hpa, Array.append_assoc]

lemma shifts_commit {change : Cell × State.Change} : Shifts p (p.commit run change) := by
  unfold commit publish Bus.publish
  split
  · exact .of_log rfl rfl rfl rfl rfl
  · refine ⟨rfl, ⟨#[_], fun e he => ?_, Array.push_eq_append⟩, rfl, rfl, rfl⟩
    rw [Array.mem_singleton.mp he]
    rfl

lemma shifts_moveIfAllowed {b : State} : Shifts p (p.moveIfAllowed run b) := by
  unfold moveIfAllowed
  split
  · exact shifts_commit
  · exact .of_log rfl rfl rfl rfl rfl

lemma shifts_resetState (p : Player) (run : Run) : Shifts p (p.resetState run) := by
  unfold resetState
  split
  · exact shifts_commit
  · exact .of_log rfl rfl rfl rfl rfl

lemma shifts_stop : Shifts p p.stop := by
  unfold stop
  split
  · have hasked : Shifts p { p with stopRequested := true } := .of_log rfl rfl rfl rfl rfl
    rw [cancelRun_eq]
    exact (hasked.trans shifts_moveIfAllowed).trans (.of_log rfl rfl rfl rfl rfl)
  · exact .of_log rfl rfl rfl rfl rfl

/-! ### The start of a playback -/

/-- A player that is ready for a playback, going by the events that were published until then. -/
def ready (p : Player) (script : Script) (bound : Bool) (bus : Bus) : Player :=
  { p with
    bus
    token := some ⟨p.serial, bound⟩
    run := .numbered p.serial
    serial := p.serial + 1
    pauseRequested := false
    stopRequested := false
    deferred := none
    spent := {}
    attempts := {}
    cell := { current := .loading, watched := .loading }
    context := p.context.resetFor script p.stopwatch }

/-- Getting ready for a playback, a player goes back to `idle` first and then to `loading`. -/
lemma prepare_eq (p : Player) (script : Script) (bound : Bool) :
    p.prepare script bound = (⟨p.serial, bound⟩,
      (p.ready script bound (p.resetState (.numbered p.serial)).bus).publish (.numbered p.serial)
        (.stateChanged .idle .loading)) := by
  obtain ⟨c, hc⟩ : ∃ c, c = Player.clearLeftovers
    { p with
      token := some ⟨p.serial, bound⟩
      run := .numbered p.serial
      serial := p.serial + 1 } := ⟨_, rfl⟩
  obtain ⟨e, he⟩ : ∃ e, e = c.resetState (.numbered p.serial) := ⟨_, rfl⟩
  have hidle : e.state = .idle := by
    rw [he]
    exact congrArg Gist.state (gist_resetState c _)
  have hreset : e = { c with
      cell := e.cell, bus := (p.resetState (.numbered p.serial)).bus } := by
    have hcell : p.cell.reset = c.cell.reset := by rw [hc]; rfl
    rw [he]
    unfold resetState
    rw [hcell]
    cases c.cell.reset with
    | none =>
      rw [hc]
      rfl
    | some change =>
      rw [hc]
      rfl
  have hprepare : p.prepare script bound = (⟨p.serial, bound⟩,
      { (e.moveFrom (.numbered p.serial) .idle .loading).2 with
        context := (e.moveFrom (.numbered p.serial) .idle .loading).2.context.resetFor script
          (e.moveFrom (.numbered p.serial) .idle .loading).2.stopwatch
        attempts := {} }) := by
    rw [he, hc]
    rfl
  have hmoved := moveFrom_eq e (.numbered p.serial) hidle (b := .loading) rfl
  have hstate : e.cell.current = .idle := hidle
  rw [hprepare, hmoved, hreset, hc]
  simp only [commit, Cell.commit, hstate]
  rfl

/-- The past of a player that gets ready for a playback. -/
def behind (p : Player) : Past :=
  { p.past with log := (p.resetState (.numbered p.serial)).bus.log }

/-- Getting ready for a playback leaves nothing but the past of what was played. -/
lemma prepare_after (p : Player) (script : Script) (bound : Bool) :
    p.prepare script bound = ((p.bare.prepare script bound).1,
      (p.bare.prepare script bound).2.after p.behind) := by
  have hbus : (p.resetState (.numbered p.serial)).bus =
      { p.bus with log := (p.resetState (.numbered p.serial)).bus.log } := by
    unfold resetState commit publish Bus.publish
    split
    · split <;> rfl
    · rfl
  have hready : p.ready script bound (p.resetState (.numbered p.serial)).bus =
      (p.bare.ready script bound { p.bus with log := #[] }).after p.behind := by
    rw [hbus]
    simp only [ready, after, bare, behind, past, Array.append_empty]
    rfl
  rw [prepare_eq p, prepare_eq p.bare, hready, publish_after]
  rfl

/-- Having the gate, a player starts a playback as if nothing had been played. -/
lemma beginPlay_after (id : Nat) (script : Script) (start : Start) (bound : Bool)
    (hup : p.isShutDown = false) (hnew : p.serial ∉ p.cancelled) :
    ∃ g : Past, g.records = p.behind.records ∧
      p.beginPlay id script start bound = g.before (p.bare.beginPlay id script start bound) ∧
        ∀ next, (p.bare.beginPlay id script start bound).2 = .goes next → next.isEarly = false →
          g.recovery.checkpoint = none := by
  have hprepare := prepare_after p script bound
  obtain ⟨h, hh⟩ : ∃ h, h = p.behind := ⟨_, rfl⟩
  obtain ⟨q, hq⟩ : ∃ q, q = (p.bare.prepare script bound).2 := ⟨_, rfl⟩
  have hscript : q.context.script = some script := by
    rw [hq, prepare_eq]
    rfl
  have ht : (⟨p.serial, bound⟩ : Token).id ∉ h.cancelled := by
    rw [hh]
    exact hnew
  have hprepared : p.prepare script bound = (⟨p.serial, bound⟩, q.after h) := by
    rw [hprepare, hq, hh]
    rfl
  have hprepared' : p.bare.prepare script bound = (⟨p.serial, bound⟩, q) := by
    rw [hq]
    rfl
  have hup' : p.bare.isShutDown = false := hup
  obtain ⟨c, hc⟩ : ∃ c, c = startAt { q.context with labels := script.survey.labels } start :=
    ⟨_, rfl⟩
  have hloaded : c.script.isSome = true := by
    have hkept : c.script = q.context.script := by
      rw [hc]
      cases start <;> rfl
    rw [hkept, hscript]
    rfl
  rw [← hh]
  unfold beginPlay
  rw [hup, hup', hprepared, hprepared']
  have hhost : (q.after h).host = q.host := rfl
  have hended : ∀ (x : Player) (f : Finish) (next : Phase), (x.finish f).2 ≠ .goes next := by
    intro x f next hnext
    obtain ⟨r, hends, -⟩ := finish_spec x f
    rw [hends] at hnext
    cases hnext
  have htolerance : (q.after h).tolerance = q.tolerance := rfl
  have hcontext : startAt { (q.after h).context with labels := script.survey.labels } start = c :=
    hc.symm
  have hrun : (q.after h).run = q.run := rfl
  dsimp only
  rw [htolerance, hhost, hcontext, ← hc, hrun]
  simp only [Bool.false_eq_true, if_false]
  cases (if q.tolerance.refuseDefects = true then script.survey.fault? script.name else none) with
  | some fault =>
    dsimp only
    refine ⟨h, rfl, ?_, fun next hnext => absurd hnext (hended _ _ next)⟩
    rw [moveFrom_after, finish_after]
  | none =>
    cases q.host.preloader with
    | some preloader =>
      have hcancelled : (q.after h).isCancelled ⟨p.serial, bound⟩ =
          q.isCancelled ⟨p.serial, bound⟩ := isCancelled_after ht
      refine ⟨h, rfl, ?_, fun next hnext hlate => ?_⟩
      · dsimp only
        rw [Past.before_ite]
        refine if_congr ?_ (finish_after { q with context := c } _) ?_
        · have hasked : (q.prompt && (q.after h).isCancelled ⟨p.serial, bound⟩) =
              (q.prompt && q.isCancelled ⟨p.serial, bound⟩) := by
            rw [hcancelled]
          exact iff_of_eq (congrArg (· = true) hasked)
        · simp only [Past.before, after, Array.push_append]
          rfl
      · dsimp only at hnext
        split at hnext
        · exact absurd hnext (hended _ _ next)
        · cases hnext
          cases hlate
    | none =>
      rcases startLines_after (h := h) (p := { q with context := c }) ht hloaded id q.run
        script.name with hstarts | ⟨⟨answer, hends⟩, hstarts⟩
      · exact ⟨h.unmarked, rfl, hstarts, fun _ _ _ => rfl⟩
      · refine ⟨h, rfl, hstarts, fun next hnext => ?_⟩
        cases hends.symm.trans hnext

end Player

namespace Session

variable {s r : Session} {t : Task} {h : Past} {token : Token} {ended : Array Ending} {id : Nat}
  {script : Script} {start : Start} {bound : Bool}

/-! ### Sessions with one request in progress -/

/-- What becomes of a session whose only request has made a step. -/
def took (s : Session) (t : Task) : Player × Progress → Session
  | (_, .blocked) => s
  | (q, .goes phase) => { s with player := q, tasks := [{ t with phase }] }
  | (q, .ends answer) =>
    { player := q, tasks := [], ended := s.ended.push ⟨t.id, q.now, answer⟩ }

lemma turn_of_single (htasks : s.tasks = [t]) :
    s.turn 0 = s.took t (s.player.step t.id t.phase) := by
  unfold turn
  rw [htasks]
  rfl

lemma turn_of_nil (htasks : s.tasks = []) : s.turn 0 = s := by
  unfold turn
  rw [htasks]
  rfl

/-- A request to play is made, is taken up and passes the gate. -/
def commence (s : Session) (id : Nat) (script : Script) (start : Start) (bound : Bool) : Session :=
  ((s.submit id (.play script start bound)).turn 0).turn 0

/-- A player with nothing in progress lets a request to play pass the gate at once. -/
lemma commence_eq (bound : Bool) {q : Player} (hnone : s.tasks = []) (hgate : s.player.gate = {})
    (hup : s.player.isShutDown = false) (hstart : Player.startRefusal? script start = none)
    (hq : q = { s.player.stop with gate := { holder := some id } }) :
    s.commence id script start bound =
      Session.took { s with player := q, tasks := [⟨id, .playGate script start bound⟩] }
        ⟨id, .playGate script start bound⟩ (q.beginPlay id script start bound) := by
  have hrequest : s.player.step id (.entering (.play script start bound)) =
      (q, .goes (.playGate script start bound)) := by
    have hstopped : s.player.stop.gate = {} :=
      (congrArg Player.gate (Player.shifts_stop (p := s.player)).bare).trans hgate
    simp only [Player.step, Player.accept, Player.requestPlay]
    rw [hstart, hup, hstopped, hq]
    rfl
  have hfirst : (s.submit id (.play script start bound)).turn 0 =
      { s with player := q, tasks := [⟨id, .playGate script start bound⟩] } := by
    have htasks : (s.submit id (.play script start bound)).tasks =
        [⟨id, .entering (.play script start bound)⟩] := by
      unfold submit
      rw [hnone]
      rfl
    have hstep : (s.submit id (.play script start bound)).player.step id
        (.entering (.play script start bound)) = (q, .goes (.playGate script start bound)) :=
      hrequest
    rw [turn_of_single htasks, hstep]
    rfl
  have hheld : q.gate.isHeldBy id = true := by
    rw [hq]
    simp [Lock.isHeldBy]
  have hsecond : q.step id (.playGate script start bound) = q.beginPlay id script start bound := by
    simp only [Player.step]
    rw [if_pos hheld]
  unfold commence
  rw [hfirst, turn_of_single rfl, hsecond]

/-- What may happen while nothing but a playback is in progress. -/
inductive Cue
  /-- The playback has its turn. -/
  | go
  | call (c : Call)
  | wait (ms : Nat)

/-- The session after a cue. -/
def heed (s : Session) : Cue → Session
  | .go => s.turn 0
  | .call c => { s with player := s.player.perform c }
  | .wait ms => s.setClock (s.player.now + ms)

/-! ### Two sessions -/

/-- Two sessions are the same but for the past of the player of the first, which has played before,
and for the requests that have ended then. -/
structure Echoes (h : Past) (ended : Array Ending) (token : Token) (s r : Session) : Prop where
  guarded : r.Guarded
  alone : r.tasks = [] ∨ ∃ t, r.tasks = [t]
  /-- An old checkpoint does not count any more when the playback has come to its lines. -/
  player : ∃ g : Past, g.records = h.records ∧ s.player = r.player.after g ∧
    ∀ t ∈ r.tasks, t.phase.isEarly = false → g.recovery.checkpoint = none
  tasks : s.tasks = r.tasks
  ended : s.ended = ended ++ r.ended
  owned : ∀ t ∈ r.tasks, t.phase.token? = some token
  loaded : ∀ t ∈ r.tasks, r.player.context.script.isSome = true

namespace Echoes

lemma go (hs : Echoes h ended token s r) (ht : token.id ∉ h.cancelled) :
    Echoes h ended token (s.turn 0) (r.turn 0) := by
  obtain ⟨g, hg, hplayer, hold⟩ := hs.player
  rcases hs.alone with hnone | ⟨t, htasks⟩
  · rw [turn_of_nil hnone, turn_of_nil (hs.tasks.trans hnone)]
    exact hs
  · have hmem : t ∈ r.tasks := by
      rw [htasks]
      exact List.mem_singleton_self t
    have hphase := hs.owned t hmem
    have hkept : g.records.cancelled = h.records.cancelled := congrArg Past.cancelled hg
    have hcancelled : token.id ∉ g.cancelled := fun hin => ht (hkept ▸ hin)
    have hlines : ∀ line, t.phase.line? = some line → line.work.token = token := fun line hline =>
      (hs.guarded.lines t hmem line hline).2 token (hs.guarded.own t hmem token hphase).2
    obtain ⟨g', hg', hstep, hnext⟩ := Player.step_after t.id hphase hlines hcancelled
      (fun _ => hs.loaded t hmem) (hold t hmem)
    have hentersnot : ¬ Player.Enters t.id r.player t.phase := fun henters => by
      rw [henters.unlined.2] at hphase
      cases hphase
    have hclear : r.Clear (.go t.id) := by
      intro u hu _ henters
      rw [htasks] at hu
      rw [List.mem_singleton.mp hu] at henters
      exact absurd henters hentersnot
    have hguarded : (r.player.step t.id t.phase).2 ≠ .blocked → (r.turn 0).Guarded := fun hready =>
      hs.guarded.go hclear (does_turn (by rw [htasks]; rfl) hready)
    have hkeeps : (r.player.step t.id t.phase).2 ≠ .blocked →
        Player.Keeps t.id r.player t.phase (r.player.step t.id t.phase) :=
      Player.keeps_step t.id (hs.guarded.regular t hmem) (hs.guarded.own t hmem)
        (hs.guarded.lines t hmem) hentersnot
    have hrturn := turn_of_single htasks
    have hsturn := turn_of_single (hs.tasks.trans htasks)
    rw [hplayer, hstep] at hsturn
    rw [hrturn] at hguarded
    rw [hrturn, hsturn]
    generalize r.player.step t.id t.phase = x at *
    obtain ⟨q, progress⟩ := x
    cases progress with
    | blocked => exact hs
    | goes next =>
      have hready : (q, Progress.goes next).2 ≠ .blocked := Progress.noConfusion
      obtain ⟨-, -, -, hloaded, -, -, howner, -⟩ := hkeeps hready
      exact
        { guarded := hguarded hready
          alone := .inr ⟨_, rfl⟩
          player := ⟨g', hg'.trans hg, rfl, fun _ _ _ => hnext next rfl⟩
          tasks := rfl
          ended := hs.ended
          owned := fun u hu => by
            rw [List.mem_singleton.mp hu]
            exact (howner token hphase).1 next rfl
          loaded := fun _ _ => hloaded (hs.loaded t hmem) }
    | ends answer =>
      exact
        { guarded := hguarded Progress.noConfusion
          alone := .inl rfl
          player := ⟨g', hg'.trans hg, rfl, fun _ hu => absurd hu List.not_mem_nil⟩
          tasks := rfl
          ended := by
            simp only [took, Past.before, hs.ended, Array.push_append]
            rfl
          owned := fun _ hu => absurd hu List.not_mem_nil
          loaded := fun _ hu => absurd hu List.not_mem_nil }

lemma call (hs : Echoes h ended token s r) (c : Call) :
    Echoes h ended token { s with player := s.player.perform c }
      { r with player := r.player.perform c } := by
  obtain ⟨g, hg, hplayer, hold⟩ := hs.player
  have hscript : (r.player.perform c).context.script = r.player.context.script :=
    Context.script_of_bare (congrArg Player.Estate.place Player.estate_perform)
  exact
    { guarded := hs.guarded.does (a := .call c) trivial .call
      alone := hs.alone
      player := ⟨g, hg, by rw [hplayer, Player.perform_after], hold⟩
      tasks := hs.tasks
      ended := hs.ended
      owned := hs.owned
      loaded := fun t ht => (congrArg Option.isSome hscript).trans (hs.loaded t ht) }

lemma wait (hs : Echoes h ended token s r) (ms : Nat) :
    Echoes h ended token (s.setClock (s.player.now + ms)) (r.setClock (r.player.now + ms)) := by
  obtain ⟨g, hg, hplayer, hold⟩ := hs.player
  exact
    { guarded := hs.guarded.does (a := .wait (r.player.now + ms)) trivial
        (.wait (Nat.le_add_right _ _))
      alone := hs.alone
      player := ⟨g, hg, congrArg (fun p : Player => { p with now := p.now + ms }) hplayer, hold⟩
      tasks := hs.tasks
      ended := hs.ended
      owned := hs.owned
      loaded := hs.loaded }

/-- Whatever happens to both of them, they remain the same but for the past. -/
lemma heeds (hs : Echoes h ended token s r) (ht : token.id ∉ h.cancelled) (cues : List Cue) :
    Echoes h ended token (cues.foldl heed s) (cues.foldl heed r) := by
  induction cues generalizing s r with
  | nil => exact hs
  | cons cue cues ih =>
    refine ih ?_
    cases cue with
    | go => exact hs.go ht
    | call c => exact hs.call c
    | wait ms => exact hs.wait ms

end Echoes

/-- A session in which a playback has just started is guarded. -/
lemma guarded_of_inherits {p q : Player} {next : Phase} (hgate : p.gate = { holder := some id })
    (hinherits : p.Inherits script start bound (q, .goes next)) :
    Guarded { player := q, tasks := [⟨id, next⟩] } ∧ next.token? = some ⟨p.serial, bound⟩ ∧
      q.context.script.isSome = true := by
  cases hinherits with
  | goes htoken hline hestate =>
    have hheld : q.gate.isHeldBy id = true := by
      have hsame : q.gate = { holder := some id } :=
        (congrArg Player.Estate.gate hestate).trans hgate
      simp [Lock.isHeldBy, hsame]
    have hsome : q.token = some ⟨p.serial, bound⟩ := congrArg Player.Estate.token hestate
    have hserial : q.serial = p.serial + 1 := congrArg Player.Estate.serial hestate
    have hscript : q.context.script = some script := by
      have hkept : (start.opening script).script = some script := by cases start <;> rfl
      exact (Context.script_of_bare (congrArg Player.Estate.place hestate)).trans hkept
    refine ⟨?_, htoken, by rw [hscript]; rfl⟩
    exact
      { distinct := List.nodup_singleton id
        regular := fun t ht => by
          rw [List.mem_singleton.mp ht]
          exact Phase.isRegular_of_isPlayback (Phase.isPlayback_of_token? htoken)
        own := fun t ht T hT => by
          rw [List.mem_singleton.mp ht] at hT ⊢
          cases htoken.symm.trans hT
          exact ⟨hheld, hsome⟩
        owner := fun T hT => ⟨_, List.mem_singleton_self _, htoken.trans (hsome.symm.trans hT)⟩
        lines := fun t ht line hnot => by
          rw [List.mem_singleton.mp ht, hline] at hnot
          cases hnot
        serial := fun T hT => by
          cases hsome.symm.trans hT
          exact Nat.lt_of_lt_of_eq (Nat.lt_succ_self _) hserial.symm }

/-- A request to play leads a player that has played before and one that is new to the same. -/
lemma echoes_commence (id : Nat) (bound : Bool) (hs : s.Attentive) (hnone : s.tasks = [])
    (hup : s.player.isShutDown = false) (hstart : Player.startRefusal? script start = none) :
    ∃ h token, token.id ∉ Past.cancelled h ∧ h.trace = s.player.trace ∧
      h.samples = s.player.samples ∧ h.notes = s.player.notes ∧
        (∃ changes : Array Event, (∀ e ∈ changes, e.kind = .stateChanged) ∧
          h.log = s.player.bus.log ++ changes) ∧
        Echoes h s.ended token (s.commence id script start bound)
          (commence { player := s.player.renewed } id script start bound) := by
  have hgate : s.player.gate = {} := hs.gate.free hnone
  have hline : s.player.lineLock = {} := hs.line.free hnone
  obtain ⟨p, hp⟩ : ∃ p : Player, p = { s.player.stop with gate := { holder := some id } } :=
    ⟨_, rfl⟩
  obtain ⟨q, hq⟩ : ∃ q : Player, q = { s.player.renewed.stop with gate := { holder := some id } } :=
    ⟨_, rfl⟩
  have hbare : q = p.bare := by
    have hidle : s.player.renewed.stop = s.player.renewed := rfl
    have hstopped : p.bare = { s.player.bare with gate := { holder := some id } } := by
      rw [hp, ← (Player.shifts_stop (p := s.player)).bare]
      rfl
    rw [hq, hidle, hstopped, Player.bare_eq hup hgate hline]
  have hpup : p.isShutDown = false := by
    rw [hp]
    exact (congrArg Player.isShutDown (Player.shifts_stop (p := s.player)).bare).trans hup
  have hnew : p.serial ∉ p.cancelled := by
    have hnumbered := hs.numbered.stop
    rw [hp]
    exact fun hin => Nat.lt_irrefl _ (hnumbered.cancelled _ hin)
  obtain ⟨g, hg, hbegin, hold⟩ := Player.beginPlay_after id script start bound hpup hnew
  rw [← hbare] at hbegin hold
  have hinherits : q.Inherits script start bound (q.beginPlay id script start bound) :=
    Player.inherits_beginPlay
  have hqgate : q.gate = { holder := some id } := by rw [hq]
  have hserial : q.serial = p.serial := by rw [hbare]; rfl
  obtain ⟨a, ha, hstopped⟩ := (Player.shifts_stop (p := s.player)).events
  obtain ⟨b, hb, hreset⟩ := (p.shifts_resetState (.numbered p.serial)).events
  have hlog : p.behind.log = s.player.bus.log ++ (a ++ b) := by
    have hkept : p.bus.log = s.player.stop.bus.log := by rw [hp]
    rw [← Array.append_assoc, ← hstopped, ← hkept]
    exact hreset
  have hchanges : ∀ e ∈ a ++ b, e.kind = .stateChanged := fun e he =>
    (Array.mem_append.mp he).elim (ha e) (hb e)
  have htrace : p.behind.trace = s.player.trace ∧ p.behind.samples = s.player.samples ∧
      p.behind.notes = s.player.notes := by
    obtain ⟨-, -, htrace, hsamples, hnotes⟩ := Player.shifts_stop (p := s.player)
    rw [hp]
    exact ⟨htrace, hsamples, hnotes⟩
  refine ⟨p.behind, ⟨q.serial, bound⟩, ?_, htrace.1, htrace.2.1, htrace.2.2,
    ⟨a ++ b, hchanges, hlog⟩, ?_⟩
  · rw [hserial]
    exact hnew
  · rw [commence_eq bound hnone hgate hup hstart hp, commence_eq bound rfl rfl rfl hstart hq,
      hbegin]
    generalize q.beginPlay id script start bound = x at hinherits hold
    obtain ⟨e, progress⟩ := x
    cases progress with
    | blocked => cases hinherits
    | goes next =>
      obtain ⟨hguarded, htoken, hloaded⟩ := guarded_of_inherits hqgate hinherits
      exact
        { guarded := hguarded
          alone := .inr ⟨_, rfl⟩
          player := ⟨g, hg, rfl, fun t ht => by
            rw [List.mem_singleton.mp ht]
            exact hold next rfl⟩
          tasks := rfl
          ended := by simp [took, Past.before]
          owned := fun t ht => by
            rw [List.mem_singleton.mp ht]
            exact htoken
          loaded := fun _ _ => hloaded }
    | ends answer =>
      have huntokened : e.token = none := by
        cases hinherits with
        | ends _ _ htoken =>
          refine htoken.elim (fun h => h) fun hsame => hsame.trans ?_
          rw [hq]
          rfl
      exact
        { guarded :=
            ⟨List.nodup_nil, fun _ hu => absurd hu List.not_mem_nil,
              fun _ hu => absurd hu List.not_mem_nil,
              fun T hT => absurd (hT.symm.trans huntokened) (Option.some_ne_none T),
              fun _ hu => absurd hu List.not_mem_nil,
              fun T hT => absurd (hT.symm.trans huntokened) (Option.some_ne_none T)⟩
          alone := .inl rfl
          player := ⟨g, hg, rfl, fun _ hu => absurd hu List.not_mem_nil⟩
          tasks := rfl
          ended := by
            simp [took, Past.before]
            rfl
          owned := fun _ hu => absurd hu List.not_mem_nil
          loaded := fun _ hu => absurd hu List.not_mem_nil }

/-! ### Playing again -/

/-- A session has come to the same as a fresh one: nothing of what had been played shows in it but
what had been published and recorded before. -/
structure Repeats (before played fresh : Session) : Prop where
  tasks : played.tasks = fresh.tasks
  /-- The answers are the same. -/
  ended : played.ended = before.ended ++ fresh.ended
  context : played.player.context = fresh.player.context
  state : played.player.state = fresh.player.state
  token : played.player.token = fresh.player.token
  run : played.player.run = fresh.player.run
  flags : played.player.pauseRequested = fresh.player.pauseRequested ∧
    played.player.stopRequested = fresh.player.stopRequested
  deferred : played.player.deferred = fresh.player.deferred
  spent : played.player.spent = fresh.player.spent
  attempts : played.player.attempts = fresh.player.attempts
  store : played.player.store = fresh.player.store
  /-- The events are the same, after those that close what had been played. -/
  events : ∃ changes : Array Event, (∀ e ∈ changes, e.kind = .stateChanged) ∧
    played.player.bus.log = before.player.bus.log ++ changes ++ fresh.player.bus.log
  /-- The host is asked for the same. -/
  trace : played.player.trace = before.player.trace ++ fresh.player.trace
  samples : played.player.samples = before.player.samples ++ fresh.player.samples
  notes : played.player.notes = before.player.notes ++ fresh.player.notes

/-- What is the same but for a past repeats what is fresh. -/
lemma Echoes.repeats {before : Session} {changes : Array Event}
    (hs : Echoes h before.ended token s r) (hchanges : ∀ e ∈ changes, e.kind = .stateChanged)
    (hlog : h.log = before.player.bus.log ++ changes) (htrace : h.trace = before.player.trace)
    (hsamples : h.samples = before.player.samples) (hnotes : h.notes = before.player.notes) :
    before.Repeats s r := by
  obtain ⟨g, hg, hplayer, -⟩ := hs.player
  have hglog : g.records.log = h.records.log := congrArg Past.log hg
  have hgtrace : g.records.trace = h.records.trace := congrArg Past.trace hg
  have hgsamples : g.records.samples = h.records.samples := congrArg Past.samples hg
  have hgnotes : g.records.notes = h.records.notes := congrArg Past.notes hg
  have hsame : ∀ {β : Type} (f : Player → β), f (r.player.after g) = f r.player →
      f s.player = f r.player := fun f hf => (congrArg f hplayer).trans hf
  exact
    { tasks := hs.tasks
      ended := hs.ended
      context := hsame Player.context rfl
      state := hsame Player.state rfl
      token := hsame Player.token rfl
      run := hsame Player.run rfl
      flags := ⟨hsame Player.pauseRequested rfl, hsame Player.stopRequested rfl⟩
      deferred := hsame Player.deferred rfl
      spent := hsame Player.spent rfl
      attempts := hsame Player.attempts rfl
      store := hsame Player.store rfl
      events := by
        refine ⟨changes, hchanges, ?_⟩
        rw [hplayer, ← hlog]
        exact congrArg (· ++ r.player.bus.log) hglog
      trace := by
        rw [hplayer, ← htrace]
        exact congrArg (· ++ r.player.trace) hgtrace
      samples := by
        rw [hplayer, ← hsamples]
        exact congrArg (· ++ r.player.samples) hgsamples
      notes := by
        rw [hplayer, ← hnotes]
        exact congrArg (· ++ r.player.notes) hgnotes }

/-- A playback does not depend on what was played before.  Whatever requests and calls have been
made to a player, in whatever order they went on, and however its playbacks have ended: if nothing
is in progress and the player was not shut down, it plays a script as a new player would, with the
same host, bus, store, breakpoints and speed.  This holds at any moment of the playback, whenever it
goes on, whatever calls are made meanwhile and however much time passes. -/
theorem playing_again_is_playing_anew {host : Host} {bus : Bus} {store : Option Store}
    (hs : Evolves (fun _ => True) { player := .create host bus store } s) (hnone : s.tasks = [])
    (hup : s.player.isShutDown = false) (id : Nat) (script : Script) (start : Start) (bound : Bool)
    (hstart : Player.startRefusal? script start = none) (cues : List Cue) :
    s.Repeats (cues.foldl heed (s.commence id script start bound))
      (cues.foldl heed (commence { player := s.player.renewed } id script start bound)) := by
  have hattentive : s.Attentive := Attentive.created.evolves hs
  obtain ⟨h, token, ht, htrace, hsamples, hnotes, ⟨changes, hchanges, hlog⟩, hechoes⟩ :=
    echoes_commence id bound hattentive hnone hup hstart
  exact (hechoes.heeds ht cues).repeats hchanges hlog htrace hsamples hnotes

/-! ### An encore -/

/-- A line. -/
def solo : Script := ⟨"solo", [.text "one"]⟩

/-- The solo is played to its end. -/
def applause : Session :=
  [.go, .go].foldl heed
    (commence { player := .create {} { capacity := 16 } none } 0 solo .beginning false)

/-- A nocturne is played after it, and stopped while it waits. -/
def interruption : Session :=
  [.go, .go, .call .stop, .go].foldl heed (applause.commence 1 nocturne .beginning false)

lemma Evolves.submit {s' : Session} {request : Request} {n : Nat}
    (hs : s.Evolves (fun _ => True) s') (hnone : s'.tasks = []) :
    s.Evolves (fun _ => True) (s'.submit n request) := by
  refine hs.tail (a := .submit n request) trivial (.submit ?_)
  rw [hnone]
  exact fun _ ht => absurd ht List.not_mem_nil

lemma Evolves.commence {s' : Session} (hs : s.Evolves (fun _ => True) s') (hnone : s'.tasks = []) :
    s.Evolves (fun _ => True) (s'.commence id script start bound) :=
  ((hs.submit hnone).turn (fun _ => trivial) 0).turn (fun _ => trivial) 0

/-- Cues are some of what may happen. -/
lemma Evolves.heeds {s' : Session} (hs : s.Evolves (fun _ => True) s') (cues : List Cue) :
    s.Evolves (fun _ => True) (cues.foldl heed s') := by
  induction cues generalizing s' with
  | nil => exact hs
  | cons cue cues ih =>
    refine ih ?_
    cases cue with
    | go => exact hs.turn (fun _ => trivial) 0
    | call c => exact hs.tail (a := .call c) trivial .call
    | wait ms => exact hs.tail (a := .wait _) trivial (.wait (Nat.le_add_right _ _))

lemma evolves_applause :
    Evolves (fun _ => True) { player := .create {} { capacity := 16 } none } applause :=
  (Evolves.commence .refl rfl).heeds _

/-- After a playback that was stopped, the solo is played to its end as on a new player. -/
theorem solo_after_interruption :
    interruption.tasks = [] ∧ interruption.player.isShutDown = false ∧
      Player.startRefusal? solo .beginning = none ∧
      interruption.Repeats ([.go, .go].foldl heed (interruption.commence 2 solo .beginning false))
        ([.go, .go].foldl heed
          (commence { player := interruption.player.renewed } 2 solo .beginning false)) ∧
      ([.go, .go].foldl heed (interruption.commence 2 solo .beginning false)).ended.size = 3 := by
  have hinterruption :
      Evolves (fun _ => True) { player := .create {} { capacity := 16 } none } interruption :=
    (evolves_applause.commence rfl).heeds _
  exact ⟨rfl, rfl, rfl,
    playing_again_is_playing_anew hinterruption rfl rfl 2 solo .beginning false rfl [.go, .go], rfl⟩

/-- The solo was played, and the player was shut down. -/
def curfew : Session := ((applause.submit 1 .shutDown).turn 0).turn 0

/-- A player that was shut down plays nothing, while a new one does. -/
theorem curfew_is_not_forgotten :
    Evolves (fun _ => True) { player := .create {} { capacity := 16 } none } curfew ∧
      curfew.tasks = [] ∧ Player.startRefusal? solo .beginning = none ∧
        ¬ curfew.Repeats (curfew.commence 2 solo .beginning false)
          (commence { player := curfew.player.renewed } 2 solo .beginning false) := by
  have hcurfew : Evolves (fun _ => True) { player := .create {} { capacity := 16 } none } curfew :=
    ((evolves_applause.submit rfl).turn (fun _ => trivial) 0).turn (fun _ => trivial) 0
  refine ⟨hcurfew, rfl, rfl, fun hrepeats => ?_⟩
  have hplayed : (curfew.commence 2 solo .beginning false).tasks.length = 0 := rfl
  have hfresh :
      (commence { player := curfew.player.renewed } 2 solo .beginning false).tasks.length = 1 := rfl
  rw [hrepeats.tasks, hfresh] at hplayed
  cases hplayed

end Session

end Recital

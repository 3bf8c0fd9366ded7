import Recital.Proofs.Word
import Recital.Proofs.Player.FollowsCourse
import Mathlib.Order.Bounds.Basic

/-!
# How often a command is attempted

The attempts of a command end with the first one after which the policy allows no other: it has
succeeded, its fault is not one that is retried, or it was the last that the policy grants
(`Policy.Settles`).  Up to then each attempt is followed by an announcement of the next one and by
the delay that the policy asks for (`Recounts`).

Between an attempt and what follows, and while the playback rests, much else may happen to the
player: time passes, requests are made, variables change.  All that is asked is that nobody cancels
the playback or meddles with the count and the announcements of attempts (`Player.Meanwhile`), and
the way from the first attempt to the end of the last one is taken under this condition alone
(`Effort.Goes`).

Attempts are numbered in 32-bit words.  A policy that grants as many retries as a word can hold may
therefore never grant the last of them: after the attempt with the greatest number the next one has
the number zero.  That many failures are the only other way in which the attempts can go.
-/

namespace Recital

/-! ### Attempts in the log -/

/-- The event tells of an attempt of a command. -/
def Event.Payload.isAttempt : Event.Payload → Bool
  | commandExecuting .. | commandExecuted .. | commandRetrying .. => true
  | _ => false

namespace Bus

variable {b : Bus} {news : List Event}

/-- What was told of attempts. -/
def attempts (b : Bus) : List Event.Payload :=
  (b.log.toList.map Event.payload).filter Event.Payload.isAttempt

lemma attempts_tell (h : b.closed = false) : (b.tell news).attempts =
    b.attempts ++ (news.map Event.payload).filter Event.Payload.isAttempt := by
  rw [attempts, log_tell h, List.map_append, List.filter_append]
  rfl

/-- What does not tell of attempts changes nothing of what was told of them. -/
lemma attempts_tell_of_not (h : b.closed = false)
    (hnews : ∀ e ∈ news, e.payload.isAttempt = false) :
    (b.tell news).attempts = b.attempts := by
  rw [attempts_tell h, List.filter_eq_nil_iff.mpr, List.append_nil]
  rintro payload hmem
  obtain ⟨e, he, rfl⟩ := List.mem_map.mp hmem
  simp [hnews e he]

end Bus

/-- The `n`-th attempt of a command of the type is the last one if this is its result. -/
def Policy.Settles (policy : Policy) (type : String) (n : Nat) : Except Failure Flow → Prop
  | .ok _ => True
  | .error failure =>
    (failure.classify type policy).severity = .fatal ∨
      ((failure.classify type policy).severity = .critical ∧
        (failure.classify type policy).category ∉ policy.retryOn) ∨
      n = policy.maxRetries + 1

/-- An attempt that has failed is the last one unless its fault is retried and another attempt is
left. -/
lemma Policy.settles_error_iff {policy : Policy} {type : String} {failure : Failure} {n : Nat}
    (hn : n ≤ policy.maxRetries + 1) : policy.Settles type n (.error failure) ↔
      ¬ ((failure.classify type policy).retryable && decide (n ≤ policy.maxRetries)) = true := by
  have hretryable : (failure.classify type policy).retryable =
      policy.isRetryable (failure.classify type policy).severity
        (failure.classify type policy).category := rfl
  simp only [Settles, hretryable]
  cases (failure.classify type policy).severity with
  | fatal => simp [Policy.isRetryable]
  | recoverable =>
    simp [Policy.isRetryable]
    omega
  | critical =>
    by_cases hmem : (failure.classify type policy).category ∈ policy.retryOn
    · simp [Policy.isRetryable, hmem]
      omega
    · simp [Policy.isRetryable, hmem]

/-- What is told of attempts with these results, each of which is followed by another one: after the
`n`-th, that the next attempt is made when the `n`-th delay of the policy is over. -/
inductive Recounts (policy : Policy) (index : Nat) (type : String) :
    List (Except Failure Flow) → List Event.Payload → Prop
  | nil : Recounts policy index type [] []
  | snoc {results : List (Except Failure Flow)} {events : List Event.Payload}
    (h : Recounts policy index type results events) (result : Except Failure Flow) (draw : Nat) :
    Recounts policy index type (results ++ [result])
      (events ++ [.commandExecuting index type, .commandExecuted index type result.toOption.isSome,
        .commandRetrying index type (results.length + 1)
          (policy.backoff.delay (results.length + 1) draw)])

namespace Player

variable {p q r : Player} {w : Work} {j : Job} {f : Flight} {command : Command} {token : Token}
  {run : Run} {k : Nat} {results : List (Except Failure Flow)} {events : List Event.Payload}

/-! ### What tells of no attempt -/

/-- The player does nothing that attempts or recovery are counted by, and tells of no attempt. -/
structure TellsNoAttempt (p q : Player) : Prop where
  host : q.host = p.host
  going : ∀ token, q.isCancelled token = p.isCancelled token
  commands : q.context.commandsExecuted = p.context.commandsExecuted
  spent : q.spent = p.spent
  news : ∃ news, (∀ e ∈ news, e.payload.isAttempt = false) ∧ q.bus = p.bus.tell news

namespace TellsNoAttempt

lemma of_eq (hhost : q.host = p.host) (hgoing : ∀ token, q.isCancelled token = p.isCancelled token)
    (hcommands : q.context.commandsExecuted = p.context.commandsExecuted)
    (hspent : q.spent = p.spent)
    (hbus : q.bus = p.bus) : TellsNoAttempt p q :=
  ⟨hhost, hgoing, hcommands, hspent, [], by simp, hbus⟩

lemma refl (p : Player) : TellsNoAttempt p p := .of_eq rfl (fun _ => rfl) rfl rfl rfl

lemma trans (hpq : TellsNoAttempt p q) (hqr : TellsNoAttempt q r) : TellsNoAttempt p r := by
  obtain ⟨news, hnews, hbus⟩ := hpq.news
  obtain ⟨more, hmore, hbus'⟩ := hqr.news
  refine ⟨hqr.host.trans hpq.host, fun token => (hqr.going token).trans (hpq.going token),
    hqr.commands.trans hpq.commands, hqr.spent.trans hpq.spent, news ++ more, fun e he => ?_, ?_⟩
  · exact (List.mem_append.mp he).elim (hnews e) (hmore e)
  · rw [hbus', hbus, Bus.tell_append]

end TellsNoAttempt

lemma tellsNoAttempt_publish {e : Event.Payload} (h : e.isAttempt = false) :
    TellsNoAttempt p (p.publish run e) :=
  ⟨rfl, fun _ => rfl, rfl, rfl, [⟨e, Instant.ofMillis p.now, run⟩], by simpa using h, rfl⟩

lemma tellsNoAttempt_moveFrom {a b : State} : TellsNoAttempt p (p.moveFrom run a b).2 := by
  unfold moveFrom
  split
  · next change _ =>
    have hmoved : TellsNoAttempt p { p with cell := change.1 } :=
      .of_eq rfl (fun _ => rfl) rfl rfl rfl
    exact hmoved.trans (tellsNoAttempt_publish rfl)
  · exact .refl p

lemma tellsNoAttempt_leaveWaiting : TellsNoAttempt p (p.leaveWaiting j) := by
  unfold leaveWaiting
  split
  · exact tellsNoAttempt_moveFrom
  · exact .refl p

lemma tellsNoAttempt_countAttempt : TellsNoAttempt p (p.countAttempt j) := by
  unfold countAttempt
  split
  · exact .of_eq rfl (fun _ => rfl) rfl rfl rfl
  · exact .refl p

lemma tellsNoAttempt_forget (names : List String) :
    TellsNoAttempt p (names.foldl (fun p name =>
      p.publish run (.variableChanged name none)) p) := by
  induction names generalizing p with
  | nil => exact .refl p
  | cons name names ih => exact (tellsNoAttempt_publish rfl).trans ih

lemma tellsNoAttempt_setVariable {name : String} {value : Json} :
    TellsNoAttempt p (p.setVariable run name value) := by
  have hset : TellsNoAttempt p { p with context := p.context.assign name value } :=
    .of_eq rfl (fun _ => rfl) rfl rfl rfl
  exact hset.trans (tellsNoAttempt_publish rfl)

lemma tellsNoAttempt_applyEffect (e : Effect) : TellsNoAttempt p (p.applyEffect w e) := by
  cases e with
  | assign | observe => exact tellsNoAttempt_setVariable
  | clear =>
    have hcleared : TellsNoAttempt p { p with context := p.context.clearVariables } :=
      .of_eq rfl (fun _ => rfl) rfl rfl rfl
    exact hcleared.trans (tellsNoAttempt_forget _)
  | push | note => exact .of_eq rfl (fun _ => rfl) rfl rfl rfl

lemma tellsNoAttempt_effects (effects : List Effect) :
    TellsNoAttempt p (effects.foldl (fun p e => p.applyEffect w e) p) := by
  induction effects generalizing p with
  | nil => exact .refl p
  | cons e effects ih => exact (tellsNoAttempt_applyEffect e).trans ih

/-- The delay is the one of the policy, for some random number. -/
lemma exists_backoff (p : Player) (policy : Policy) (n : Nat) :
    ∃ draw q, p.backoff policy n = (policy.backoff.delay n draw, q) ∧ TellsNoAttempt p q := by
  unfold backoff
  split
  · exact ⟨_, _, rfl, .of_eq rfl (fun _ => rfl) rfl rfl rfl⟩
  · exact ⟨_, _, rfl, .refl p⟩

/-! ### What may happen meanwhile -/

/-- Whatever has happened, the playback is as much cancelled as before, and neither the count of the
commands nor what was told of attempts has changed. -/
structure Meanwhile (token : Token) (p q : Player) : Prop where
  host : q.host = p.host
  going : q.isCancelled token = p.isCancelled token
  commands : q.context.commandsExecuted = p.context.commandsExecuted
  news : ∃ news, (∀ e ∈ news, e.payload.isAttempt = false) ∧ q.bus = p.bus.tell news

lemma TellsNoAttempt.meanwhile (h : TellsNoAttempt p q) (token : Token) : Meanwhile token p q :=
  ⟨h.host, h.going token, h.commands, h.news⟩

/-! ### Attempts that are made -/

/-- Since `p`, so many attempts have come to an end, and these events have told of attempts; the
playback goes on, and somebody is told. -/
structure Counts (p : Player) (token : Token) (count : Nat) (events : List Event.Payload)
    (q : Player) :
    Prop where
  host : q.host = p.host
  going : q.isCancelled token = false
  isOpen : q.bus.closed = false
  commands : Word.Grows 64 count p.context.commandsExecuted q.context.commandsExecuted
  attempts : q.bus.attempts = p.bus.attempts ++ events

namespace Counts

/-- What happens meanwhile makes no difference. -/
lemma meanwhile (h : p.Counts token k events q) (hqr : Meanwhile token q r) :
    p.Counts token k events r := by
  obtain ⟨news, hnews, hbus⟩ := hqr.news
  exact
    { host := hqr.host.trans h.host
      going := hqr.going.trans h.going
      isOpen := by rw [hbus, Bus.closed_tell, h.isOpen]
      commands := hqr.commands ▸ h.commands
      attempts := by rw [hbus, Bus.attempts_tell_of_not h.isOpen hnews, h.attempts] }

/-- Another event tells of attempts. -/
lemma tell {e : Event} (h : p.Counts token k events q) (hbus : r.bus = q.bus.tell [e])
    (he : e.payload.isAttempt = true) (hhost : r.host = q.host)
    (hgoing : r.isCancelled token = q.isCancelled token)
    (hcommands : r.context.commandsExecuted = q.context.commandsExecuted) :
    p.Counts token k (events ++ [e.payload]) r where
  host := hhost.trans h.host
  going := hgoing.trans h.going
  isOpen := by rw [hbus, Bus.closed_tell, h.isOpen]
  commands := hcommands ▸ h.commands
  attempts := by
    rw [hbus, Bus.attempts_tell h.isOpen, h.attempts]
    simp [he]

/-- An attempt is announced and made. -/
lemma launch (h : p.Counts j.work.token k events q) :
    ∃ f, (q.launch j).2 = .goes (.flying j f) ∧
      p.Counts j.work.token k (events ++ [.commandExecuting j.work.index j.command.type])
        (q.launch j).1 := by
  have hannounced : p.Counts j.work.token k
      (events ++ [.commandExecuting j.work.index j.command.type])
      (q.publish j.work.run (.commandExecuting j.work.index j.command.type)) :=
    h.tell (e := ⟨.commandExecuting j.work.index j.command.type, Instant.ofMillis q.now,
      j.work.run⟩)
      rfl rfl rfl rfl rfl
  unfold Player.launch
  simp only [hannounced.going, Bool.false_eq_true, if_false]
  exact ⟨_, rfl, hannounced.meanwhile
    ((tellsNoAttempt_countAttempt.trans (tellsNoAttempt_effects _)).meanwhile _)⟩

/-- An attempt that has ended is told and counted. -/
lemma recordAttempt {result : Except Failure Flow} (h : p.Counts token k events q)
    (hr : r = q.recordAttempt j f result) :
    p.Counts token (k + 1)
      (events ++ [.commandExecuted j.work.index j.command.type result.toOption.isSome])
      { r with context := r.context.recordCommand } := by
  obtain ⟨-, -, hbus⟩ := q.recordAttempt_spec j f result
  have hgist : r.gist = q.gist := by rw [hr, gist_recordAttempt]
  have hcore : r.core = q.core := congrArg Gist.core hgist
  have hhost : r.core.host = q.core.host := congrArg Player.host hcore
  have hgoing : r.core.isCancelled token = q.core.isCancelled token :=
    congrArg (·.isCancelled token) hcore
  have hcommands : r.core.context.commandsExecuted = q.core.context.commandsExecuted :=
    congrArg (·.context.commandsExecuted) hcore
  rw [← hr] at hbus
  have htold := h.tell hbus rfl hhost hgoing hcommands
  exact
    { host := htold.host
      going := htold.going
      isOpen := htold.isOpen
      commands := htold.commands.trans (.next 64 _)
      attempts := htold.attempts }

end Counts

/-! ### Attempts that have ended -/

lemma land_of_ok {verdict : Except Failure CommandResult} {flow : Flow}
    (h : j.command.conclude verdict = .ok flow) (hr : r = q.recordAttempt j f (.ok flow)) :
    q.land j f verdict =
      ({ r with context := r.context.recordCommand }.leaveWaiting j).finishLine j.work
      flow false := by
  simp only [land, h, hr]

lemma land_of_error {verdict : Except Failure CommandResult} {failure : Failure}
    (h : j.command.conclude verdict = .error failure)
    (hr : r = q.recordAttempt j f (.error failure))
    (hgoing : r.isCancelled j.work.token = false) :
    q.land j f verdict = { r with context := r.context.recordCommand }.attemptFailed j failure := by
  simp only [land, h, ← hr, hgoing, Bool.false_eq_true, if_false]

/-- The player goes on from the last attempt as its result says: the line is executed, or its fault
is recovered from. -/
def GoesOn (q : Player) (j : Job) (policy : Policy) (x : Player × LineProgress) :
    Except Failure Flow → Prop
  | .ok flow => x = q.finishLine j.work flow false
  | .error failure => x = q.handleFault j.work (j.fault failure policy) policy

/-- Once the last attempt has ended, the line is executed or its fault is recovered from. -/
lemma Counts.land_of_settles {verdict : Except Failure CommandResult} {policy : Policy}
    (h : p.Counts j.work.token k events q) (hpolicy : policy = p.host.policy j.command.type)
    (hattempt : j.attempt = k + 1) (hlast : k ≤ policy.maxRetries)
    (hsettles : policy.Settles j.command.type (k + 1) (j.command.conclude verdict)) :
    ∃ r, p.Counts j.work.token (k + 1) (events ++ [.commandExecuted j.work.index j.command.type
        (j.command.conclude verdict).toOption.isSome]) r ∧
      r.GoesOn j policy (q.land j f verdict) (j.command.conclude verdict) := by
  obtain ⟨r, hr⟩ : ∃ r, r = q.recordAttempt j f (j.command.conclude verdict) := ⟨_, rfl⟩
  have hcounts := h.recordAttempt hr
  refine ⟨_, hcounts.meanwhile ((tellsNoAttempt_leaveWaiting (j := j)).meanwhile _), ?_⟩
  cases hresult : j.command.conclude verdict with
  | ok flow => exact land_of_ok hresult (by rw [hr, hresult])
  | error failure =>
    rw [hresult] at hsettles
    have hhost : r.host = p.host := hcounts.host
    have hupset : { r with context := r.context.recordCommand }.upset? j failure =
        some (j.fault failure policy, policy) := by
      unfold upset?
      rw [hhost, ← hpolicy, hattempt, if_neg]
      exact (Policy.settles_error_iff (by omega)).mp hsettles
    have hr' : r = q.recordAttempt j f (.error failure) := by rw [hr, hresult]
    show q.land j f verdict = _
    rw [land_of_error hresult hr' hcounts.going, attemptFailed_eq, hupset]

/-- An attempt that is not the last one is followed by a rest. -/
lemma Counts.land_of_not_settles {verdict : Except Failure CommandResult} {policy : Policy}
    (h : p.Counts j.work.token k events q) (hpolicy : policy = p.host.policy j.command.type)
    (hattempt : j.attempt = k + 1) (hlast : k ≤ policy.maxRetries)
    (hsettles : ¬ policy.Settles j.command.type (k + 1) (j.command.conclude verdict)) :
    k + 1 ≤ policy.maxRetries ∧ ∃ until_ draw, (q.land j f verdict).2 = .goes (.resting j until_) ∧
      p.Counts j.work.token (k + 1)
        (events ++ [.commandExecuted j.work.index j.command.type
          (j.command.conclude verdict).toOption.isSome] ++
          [.commandRetrying j.work.index j.command.type (k + 1)
            (policy.backoff.delay (k + 1) draw)])
        (q.land j f verdict).1 := by
  obtain ⟨r, hr⟩ : ∃ r, r = q.recordAttempt j f (j.command.conclude verdict) := ⟨_, rfl⟩
  have hcounts := h.recordAttempt hr
  cases hresult : j.command.conclude verdict with
  | ok flow => exact absurd (hresult ▸ trivial) hsettles
  | error failure =>
    rw [hresult, Policy.settles_error_iff (by omega), not_not, Bool.and_eq_true,
      decide_eq_true_eq] at hsettles
    obtain ⟨c, hc⟩ : ∃ c, c = { r with context := r.context.recordCommand } := ⟨_, rfl⟩
    have hland : q.land j f verdict = c.attemptFailed j failure :=
      hc ▸ land_of_error hresult (by rw [hr, hresult]) hcounts.going
    rw [hresult, ← hc] at hcounts
    have hupset : c.upset? j failure = none := by
      unfold upset?
      rw [hcounts.host, ← hpolicy, hattempt, if_pos]
      exact Bool.and_eq_true_iff.mpr ⟨hsettles.1, decide_eq_true hsettles.2⟩
    obtain ⟨draw, s, hbackoff, hdrawn⟩ := exists_backoff c policy (k + 1)
    rw [hland, attemptFailed_eq, hupset]
    simp only [hcounts.host, ← hpolicy, hattempt, hbackoff]
    exact ⟨hsettles.2, _, draw, rfl,
      (hcounts.meanwhile (hdrawn.meanwhile _)).tell (e := ⟨.commandRetrying
      j.work.index j.command.type (k + 1) (policy.backoff.delay (k + 1) draw),
      Instant.ofMillis s.now, j.work.run⟩) rfl rfl rfl rfl rfl⟩

end Player

/-! ### From the first attempt to the last -/

/-- A command that is being attempted: what its attempts have come to, and how far the player and
the line have got. -/
structure Effort where
  results : List (Except Failure Flow)
  player : Player
  progress : LineProgress

namespace Effort

variable {p : Player} {w : Work} {command : Command} {policy : Policy} {e e' : Effort}

/-- The next attempt ends or is made.  Much may have happened meanwhile. -/
inductive Goes (token : Token) (e : Effort) : Effort → Prop
  | lands {j : Job} {f : Flight} {q : Player} {verdict : Except Failure CommandResult}
    (hphase : e.progress = .goes (.flying j f)) (hq : e.player.Meanwhile token q)
    (hland : q.landing j f = some verdict) :
    e.Goes token ⟨e.results ++ [j.command.conclude verdict], (q.stepLine (.flying j f)).1,
      (q.stepLine (.flying j f)).2⟩
  | tries {j : Job} {until_ : Nat} {q : Player} (hphase : e.progress = .goes (.resting j until_))
    (hq : e.player.Meanwhile token q) (htime : until_ ≤ q.now) :
    e.Goes token ⟨e.results, (q.stepLine (.resting j until_)).1, (q.stepLine (.resting j until_)).2⟩

/-- The attempts have come to their end in the player `q`, and what follows them has been done. -/
structure Concludes (p : Player) (w : Work) (command : Command) (policy : Policy)
    (earlier : List (Except Failure Flow)) (last : Except Failure Flow)
    (events : List Event.Payload) (q : Player) (e : Effort) : Prop where
  results : e.results = earlier ++ [last]
  /-- In a sequence that begins with the results, the last one is the first that settles the
  matter. -/
  least : ∀ r : Nat → Except Failure Flow,
    (∀ n (hn : n < e.results.length), r (n + 1) = e.results[n]) →
      IsLeast {n | 0 < n ∧ policy.Settles command.type n (r n)} e.results.length
  told : Recounts policy w.index command.type earlier events
  counts : p.Counts w.token e.results.length
    (events ++ [.commandExecuting w.index command.type,
      .commandExecuted w.index command.type last.toOption.isSome]) q
  executed : ∀ flow, last = .ok flow → (e.player, e.progress) = q.finishLine w flow false
  failed : ∀ failure fault, last = .error failure →
    fault = { (failure.classify command.type policy).located w.index w.script with
      attempts := e.results.length } →
    (e.player, e.progress) = q.handleFault w fault policy ∧
      (fault.isFatal = true → (e.player, e.progress) = q.closeFailed w fault)

/-- None of the attempts that have ended was the last one.  These events, and then these, have told
of attempts. -/
structure Persists (p : Player) (w : Work) (command : Command) (policy : Policy) (j : Job)
    (events more : List Event.Payload) (e : Effort) : Prop where
  work : j.work = w
  doing : j.command = command
  told : Recounts policy w.index command.type e.results events
  counts : p.Counts w.token e.results.length (events ++ more) e.player
  unsettled : ∀ n (hn : n < e.results.length), ¬ policy.Settles command.type (n + 1) e.results[n]
  allowed : e.results.length ≤ policy.maxRetries

/-- The next attempt is in flight. -/
structure Flies (p : Player) (w : Work) (command : Command) (policy : Policy) (j : Job) (f : Flight)
    (events : List Event.Payload) (e : Effort) : Prop extends
    Persists p w command policy j events [.commandExecuting w.index command.type] e where
  phase : e.progress = .goes (.flying j f)
  attempt : j.attempt = e.results.length + 1

/-- The next attempt waits for its time. -/
structure Rests (p : Player) (w : Work) (command : Command) (policy : Policy) (j : Job)
    (until_ : Nat)
    (events : List Event.Payload) (e : Effort) : Prop extends
    Persists p w command policy j events [] e where
  phase : e.progress = .goes (.resting j until_)
  attempt : j.attempt = e.results.length

variable {j : Job} {f : Flight} {until_ : Nat} {events : List Event.Payload} {q : Player}

/-- An attempt is made. -/
lemma Persists.launch (h : Persists p w command policy j events [] e)
    (hattempt : j.attempt = e.results.length + 1) :
    ∃ f, Flies p w command policy j f events
      ⟨e.results, (e.player.launch j).1, (e.player.launch j).2⟩ := by
  obtain ⟨hwork, hdoing, htold, hcounts, hunsettled, hallowed⟩ := h
  subst hwork hdoing
  rw [List.append_nil] at hcounts
  obtain ⟨f, hphase, hlaunched⟩ := hcounts.launch
  exact ⟨f, ⟨rfl, rfl, htold, hlaunched, hunsettled, hallowed⟩, hphase, hattempt⟩

/-- At its limit the attempt ends. -/
lemma Flies.exists_goes (h : Flies p w command policy j f events e) : ∃ e', e.Goes w.token e' := by
  obtain ⟨q, hq⟩ : ∃ q, q = { e.player with now := f.limit } := ⟨_, rfl⟩
  have hgoing : q.isCancelled j.work.token = false := by
    rw [hq, h.work]
    exact h.counts.going
  obtain ⟨verdict, hland⟩ :=
    Player.exists_landing (p := q) (j := j) (f := f) hgoing (by rw [hq])
  exact ⟨_, .lands h.phase (hq ▸ ⟨rfl, rfl, rfl, [], by simp, rfl⟩) hland⟩

lemma Rests.exists_goes (h : Rests p w command policy j until_ events e) :
    ∃ e', e.Goes w.token e' :=
  ⟨_, .tries (q := { e.player with now := until_ }) h.phase ⟨rfl, rfl, rfl, [], by simp, rfl⟩
    (Nat.le_refl _)⟩

/-- After a rest the next attempt is made, with the next number if that is a word. -/
lemma Rests.goes (h : Rests p w command policy j until_ events e)
    (hword : e.results.length + 1 < 2 ^ 32) (hgoes : e.Goes w.token e') :
    ∃ j' f, Flies p w command policy j' f events e' ∧ e'.results = e.results := by
  cases hgoes with
  | lands hphase => cases h.phase.symm.trans hphase
  | @tries j' _ q hphase hq htime =>
    cases h.phase.symm.trans hphase
    have hcounts := h.counts.meanwhile hq
    have hgoing : q.isCancelled j.work.token = false := h.work ▸ hcounts.going
    have hstep : q.stepLine (.resting j until_) =
        q.launch { j with attempt := Word.next 32 j.attempt } := by
      simp only [Player.stepLine, hgoing, Bool.false_eq_true, if_false, if_pos htime]
    have hpersists : Persists p w command policy
      { j with attempt := Word.next 32 j.attempt } events []
        ⟨e.results, q, e.progress⟩ :=
      ⟨h.work, h.doing, h.told, hcounts, h.unsettled, h.allowed⟩
    have hnext : Word.next 32 j.attempt = e.results.length + 1 := by
      rw [h.attempt, Word.next_of_lt hword]
    obtain ⟨f, hflies⟩ := hpersists.launch hnext
    rw [hstep]
    exact ⟨_, f, hflies, rfl⟩

/-- A fatal fault is not recovered from, whatever the policy or the fault itself asks for. -/
lemma handleFault_of_isFatal {fault : Fault} (h : fault.isFatal = true) :
    q.handleFault w fault policy = q.closeFailed w fault := by
  have hplan : q.recovery.plan fault policy (q.spent.count w.index) q.tolerance.maxRecoveries =
      (.giveUp, q.recovery) := by
    simp only [Recovery.plan, Recovery.remedyFor, h, if_true]
  unfold Player.handleFault
  rw [hplan]
  split <;> rfl

/-- The first result that settles the matter is the least one that does so. -/
lemma isLeast_of_unsettled {type : String} {results : List (Except Failure Flow)}
    {last : Except Failure Flow}
    (hunsettled : ∀ n (hn : n < results.length), ¬ policy.Settles type (n + 1) results[n])
    (hlast : policy.Settles type (results.length + 1) last) {r : Nat → Except Failure Flow}
    (hr : ∀ n (hn : n < (results ++ [last]).length), r (n + 1) = (results ++ [last])[n]) :
    IsLeast {n | 0 < n ∧ policy.Settles type n (r n)} (results ++ [last]).length := by
  rw [List.length_append, List.length_singleton]
  have hend : r (results.length + 1) = last := by
    rw [hr results.length (by simp)]
    simp
  refine ⟨⟨Nat.succ_pos _, by rwa [hend]⟩, ?_⟩
  rintro n ⟨hpos, hn⟩
  by_contra hlt
  obtain ⟨m, rfl⟩ := Nat.exists_eq_succ_of_ne_zero hpos.ne'
  have hm : m < results.length := by omega
  refine hunsettled m hm ?_
  rwa [hr m (by simp; omega), List.getElem_append_left hm] at hn

/-- An attempt that ends is the last one, or the command rests. -/
lemma Flies.goes (h : Flies p w command policy j f events e)
    (hpolicy : policy = p.host.policy command.type) (hgoes : e.Goes w.token e') :
    (∃ last q, Concludes p w command policy e.results last events q e') ∨
      ∃ until_ more, Rests p w command policy j until_ more e' ∧
        e'.results.length = e.results.length + 1 := by
  cases hgoes with
  | tries hphase => cases h.phase.symm.trans hphase
  | @lands j' f' q verdict hphase hq hland =>
    cases h.phase.symm.trans hphase
    obtain ⟨hwork, hdoing⟩ := And.intro h.work h.doing
    subst hwork hdoing
    have hcounts := h.counts.meanwhile hq
    have hstep : q.stepLine (.flying j f) = q.land j f verdict := by
      simp only [Player.stepLine, hland]
    rw [hstep]
    by_cases hsettles : policy.Settles j.command.type (e.results.length + 1)
        (j.command.conclude verdict)
    · obtain ⟨r, hrcounts, hgoesOn⟩ :=
        hcounts.land_of_settles (f := f) hpolicy h.attempt h.allowed hsettles
      refine .inl ⟨j.command.conclude verdict, r, ?_⟩
      exact
        { results := rfl
          least := fun _ hr => isLeast_of_unsettled h.unsettled hsettles hr
          told := h.told
          counts := by simpa using hrcounts
          executed := fun flow hflow => by
            rw [hflow] at hgoesOn
            exact hgoesOn
          failed := fun failure fault hfailure hfault => by
            rw [hfailure] at hgoesOn
            have hsame : j.fault failure policy = fault := by
              rw [hfault, Job.fault, h.attempt, List.length_append, List.length_singleton]
            have hhandled : q.land j f verdict = r.handleFault j.work fault policy :=
              hsame ▸ hgoesOn
            exact ⟨hhandled, fun hfatal => hhandled.trans (handleFault_of_isFatal hfatal)⟩ }
    · obtain ⟨hallowed, until_, draw, hphase, hrcounts⟩ :=
        hcounts.land_of_not_settles (f := f) hpolicy h.attempt h.allowed hsettles
      have hlength : (e.results ++ [j.command.conclude verdict]).length = e.results.length + 1 := by
        simp
      refine .inr ⟨until_, _, ⟨⟨rfl, rfl, h.told.snoc _ draw, ?_, ?_, ?_⟩, hphase, ?_⟩, hlength⟩
      · simpa using hrcounts
      · intro n hn
        rw [List.getElem_append]
        split
        · next hlt => exact h.unsettled n hlt
        · next hle =>
          have hend : n = e.results.length := by
            simp only [hlength] at hn
            omega
          simpa [hend] using hsettles
      · rwa [hlength]
      · rw [hlength]
        exact h.attempt

/-- The attempts have come to their end, or their numbers have: as many have failed as a word can
count, the policy grants another one, and that one gets the number zero. -/
def Ends (p : Player) (w : Work) (command : Command) (policy : Policy) (e : Effort) : Prop :=
  (∃ earlier last events q, Concludes p w command policy earlier last events q e) ∨
    ∃ j until_ events, Rests p w command policy j until_ events e ∧
      e.results.length = 2 ^ 32 - 1 ∧ Word.next 32 j.attempt = 0

/-- An attempt in flight leads to the end of the last one.  Each attempt uses up one of those that
the policy grants, and one of the numbers. -/
lemma Flies.inevitably (h : Flies p w command policy j f events e)
    (hpolicy : policy = p.host.policy command.type) (hword : e.results.length + 1 < 2 ^ 32) :
    Inevitably (Goes w.token) (Ends p w command policy) e := by
  induction hleft : policy.maxRetries - e.results.length using Nat.strong_induction_on
    generalizing e j f events with
  | _ left ih =>
    refine .later h.exists_goes fun e' hgoes => ?_
    obtain ⟨last, q, hconcludes⟩ | ⟨until_, more, hrests, hlength⟩ := h.goes hpolicy hgoes
    · exact .here (.inl ⟨_, last, events, q, hconcludes⟩)
    · by_cases hlast : e'.results.length = 2 ^ 32 - 1
      · have hzero : Word.next 32 j.attempt = 0 := by
          rw [hrests.attempt, hlast, Word.next_greatest]
        exact .here (.inr ⟨j, until_, more, hrests, hlast, hzero⟩)
      · have hnumber : e'.results.length + 1 < 2 ^ 32 := by omega
        refine .later hrests.exists_goes fun e'' htries => ?_
        obtain ⟨j', f', hflies, hresults⟩ := hrests.goes hnumber htries
        have hallowed := hrests.allowed
        refine ih _ ?_ hflies ?_ rfl
        · rw [hresults]
          omega
        · rwa [hresults]

end Effort

end Recital

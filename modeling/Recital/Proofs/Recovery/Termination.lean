import Recital.Proofs.Machine.Simulation
import Recital.Proofs.Player.Endless
import Recital.Proofs.Recovery.Budget

/-!
# Recovery comes to an end

A playback of a script whose lines lead nowhere but to the next line ends, however its commands and
its presenter fail and whatever is done about it: a failed line may be attempted again, skipped,
passed over or executed again, and it may return the playback to the checkpoint, which automatic
saves may have moved on in the meantime.

What is left of the budgets for recovery (`Tally.remaining`) becomes less with every line, so the
number of lines that are executed is bounded by the size of the script and the budget of a line.

Two things can keep a playback going for ever: a command that leaves a return address, and a policy
that grants as many retries as a word can hold (`runs_without_end`).
-/

namespace Recital

/-- How often a line may be repeated or returned from. -/
def Host.budget (h : Host) : Nat := h.config.tolerance.maxRecoveries

/-- The fault is not remedied by a jump. -/
def Fault.Stays (policy : Policy) (fault : Fault) : Prop :=
  ∀ target, Recovery.remedyFor fault policy ≠ some (.jump target)

/-- What a command on a line of a script can see, whatever the variables are. -/
structure View.IsOf (script : Script) (index : Nat) (v : View) : Prop where
  line : v.line = index
  lineCount : v.lineCount = script.size
  labels : v.labels = script.survey.labels
  script : v.script = script.name

/-- The line leads to the next one only, and no fault of it is remedied by a jump. -/
def Line.Straight (host : Host) (script : Script) (index : Nat) : Line → Prop
  | .text source => ∀ presenter text failure, host.presenter = some presenter →
      TextKind.ofText source = .narrative text → presenter.respond text = .error failure →
      (failure.classify "text" (host.policy "text")).Stays (host.policy "text")
  | .command _ none => ∀ target, (host.policy "unresolved").onError ≠ some (.jump target)
  | .command _ (some c) => ∀ n view, view.IsOf script index →
      (∀ line, .push line ∉ (c.attempt n view).effects) ∧
      (∀ flow, c.conclude (c.attempt n view).verdict = .ok flow → flow.redirects = false) ∧
      ∀ failure, (c.conclude (c.attempt n view).verdict = .error failure ∨
          ∃ elapsed, failure = .timedOut elapsed) →
        (failure.classify c.type (host.policy c.type)).Stays (host.policy c.type)

/-- Every line of the script leads to the next one only. -/
def Script.Straight (host : Host) (s : Script) : Prop :=
  ∀ index line, s.line? index = some line → line.Straight host s index

/-- A flow action that does not redirect goes on with the next line. -/
lemma Flow.eq_next_of_redirects {flow : Flow} (h : flow.redirects = false) : flow = .next := by
  cases flow with
  | next => rfl
  | _ => cases h

/-- The plan keeps to the order of the lines, and executes lines again within the budget only. -/
def Recovery.Keeps (r : Recovery) (spent limit : Nat) : Plan → Prop
  | .proceed flow => flow = .next
  | .again => spent < limit
  | .rollback s => spent < limit ∧ r.checkpoint = some s
  | .halt => True
  | .giveUp => True

/-- The plan for a fault that is not remedied by a jump keeps to the order of the lines. -/
lemma Recovery.keeps_plan {r : Recovery} {fault : Fault} {policy : Policy} (spent limit : Nat)
    (h : fault.Stays policy) :
    (r.plan fault policy spent limit).2.checkpoint = r.checkpoint ∧
      r.Keeps spent limit (r.plan fault policy spent limit).1 := by
  unfold plan
  cases hremedy : remedyFor fault policy with
  | none => exact ⟨rfl, trivial⟩
  | some remedy =>
    refine ⟨rfl, ?_⟩
    cases remedy with
    | skip => exact rfl
    | jump target => exact absurd hremedy (h target)
    | stop => exact trivial
    | retry =>
      simp only [planFor]
      split
      · next hspent => exact hspent
      · trivial
    | rollback =>
      simp only [planFor]
      split
      · next s hs =>
        split
        · next hspent => exact ⟨hspent, hs⟩
        · trivial
      · trivial

/-- Without return addresses, the end of the script is the end. -/
lemma Machine.unwind_of_stack {m : Machine} (h : m.stack = []) : m.unwind = m := by
  unfold unwind
  rw [h]
  cases m
  cases h
  rfl

/-- The effects of a command that leaves no return address concern the variables only. -/
lemma Context.Shows.affects {c : Context} {m : Machine} (h : c.Shows m) {effects : List Effect}
    {line : Nat} {script : String} (hpush : ∀ index, .push index ∉ effects) :
    ∃ vars, (effects.foldl (·.affect line script) c).Shows { m with vars } := by
  induction effects generalizing c m with
  | nil => exact ⟨m.vars, h⟩
  | cons e effects ih =>
    have hrest : ∀ index, .push index ∉ effects := fun index hmem =>
      hpush index (List.mem_cons_of_mem _ hmem)
    have hone : (c.affect line script e).Shows
        { m with vars := (c.affect line script e).vars } := by
      cases e with
      | assign | observe | clear =>
        exact ⟨h.script, h.cursor, h.labels, h.frames, rfl, h.breakpoints⟩
      | push index => exact absurd List.mem_cons_self (hpush index)
      | note => exact ⟨h.script, h.cursor, h.labels, h.frames, rfl, h.breakpoints⟩
    obtain ⟨vars, hall⟩ := ih hone hrest
    exact ⟨vars, hall⟩

namespace Player

variable {id : Nat} {token : Token} {play : Play} {host : Host} {script : Script}
  {cursor left : Nat} {p q : Player} {w : Work} {c d : Player × Progress}

/-- A playback of the script stands at a line with nothing to return to, and so does the
checkpoint. -/
structure Steady (id : Nat) (token : Token) (host : Host) (script : Script) (cursor : Nat)
    (p : Player) : Prop where
  undisturbed : Undisturbed id token p
  shows : ∃ vars, p.context.Shows { script, pc := cursor, vars }
  spent : ∀ line, p.spent.count line ≤ host.budget
  checkpoint : ∀ s, p.recovery.checkpoint = some s → s.frames = [] ∧ s.breakpoints = []
  host : p.host = host

/-- A playback at the head of its loop, with so much left to do. -/
def Pending (id : Nat) (host : Host) (script : Script) (left : Nat) (c : Player × Progress) :
    Prop :=
  ∃ play cursor, c.2 = .goes (.playLock play) ∧ c.1.state = .playing ∧
    Steady id play.token host script cursor c.1 ∧
    c.1.spent.remaining host.budget cursor script.size = left

/-- A playback that has ended, or has come round with less left to do. -/
def Closer (id : Nat) (host : Host) (script : Script) (left : Nat) (c : Player × Progress) : Prop :=
  (∃ report, c.2 = .ends (.report report)) ∨ ∃ left' < left, Pending id host script left' c

lemma Closer.ne_blocked (h : Closer id host script left c) : c.2 ≠ .blocked := by
  rcases h with ⟨report, hc⟩ | ⟨left', -, play, cursor, hc, -⟩
  · rw [hc]
    exact Progress.noConfusion
  · rw [hc]
    exact Progress.noConfusion

/-- What a line does to the context, to the budgets and to the recovery keeps a playback steady. -/
lemma Steady.of_core {cursor' : Nat} {context : Context} {recovery : Recovery} {spent : Tally}
    (h : Steady id token host script cursor p)
    (hcore : q.core = { p.core with context, recovery, spent })
    (hshows : ∃ vars, context.Shows { script, pc := cursor', vars })
    (hspent : ∀ line, spent.count line ≤ host.budget)
    (hcheckpoint : ∀ s, recovery.checkpoint = some s → s.frames = [] ∧ s.breakpoints = []) :
    Steady id token host script cursor' q where
  undisturbed := h.undisturbed.of_core hcore
  host := (congrArg Player.host hcore).trans h.host
  shows := by
    have hcontext : q.context = context := (congrArg Player.context hcore).trans rfl
    rw [hcontext]
    exact hshows
  spent := by
    have htally : q.spent = spent := (congrArg Player.spent hcore).trans rfl
    rw [htally]
    exact hspent
  checkpoint := by
    have hrecovery : q.recovery = recovery := (congrArg Player.recovery hcore).trans rfl
    rw [hrecovery]
    exact hcheckpoint

/-- Record keeping keeps a playback steady. -/
lemma Steady.of_gist (h : Steady id token host script cursor p) (hcore : q.core = p.core) :
    Steady id token host script cursor q :=
  h.of_core (q := q) (hcore.trans rfl) h.shows h.spent h.checkpoint

/-- A playback that comes round with less left to do is closer to its end. -/
lemma closer_of_returned (hq : Steady id token host script cursor q) (hstate : q.state = .playing)
    (hleft : q.spent.remaining host.budget cursor script.size < left) (hc : Returned id token q c) :
    Closer id host script left c := by
  obtain ⟨r, play, recovery, rfl, htoken, hgist, hrecovery⟩ := hc
  have hcore : r.core = { q.core with recovery, lineLock := { holder := some id } } :=
    congrArg Gist.core hgist
  have hcontext : r.context = q.context := (congrArg Player.context hcore).trans rfl
  have hspent : r.spent = q.spent := (congrArg Player.spent hcore).trans rfl
  have hrecovered : r.recovery = recovery := (congrArg Player.recovery hcore).trans rfl
  have hundisturbed : Undisturbed id play.token r := by
    rw [htoken]
    exact
      { lock := (congrArg Player.lineLock hcore).trans rfl
        deferred := (congrArg Player.deferred hcore).trans hq.undisturbed.deferred
        pause := (congrArg Player.pauseRequested hcore).trans hq.undisturbed.pause
        going := (congrArg (·.isCancelled token) hcore).trans hq.undisturbed.going }
  have hsteady : Steady id play.token host script cursor r :=
    { undisturbed := hundisturbed
      host := (congrArg Player.host hcore).trans hq.host
      shows := by rw [hcontext]; exact hq.shows
      spent := by rw [hspent]; exact hq.spent
      checkpoint := by
        rw [hrecovered]
        rcases hrecovery with rfl | ⟨at_, s, hs, rfl⟩
        · exact hq.checkpoint
        · -- An automatic save is made where the playback stands.
          intro s' hs'
          cases hs'
          obtain ⟨vars, hshows⟩ := hq.shows
          simp only [Context.snapshot?, hshows.script, Option.map_some, Option.some.injEq] at hs
          subst hs
          exact ⟨hshows.frames, hshows.breakpoints⟩ }
  refine .inr ⟨_, hleft, play, cursor, rfl, (congrArg Gist.state hgist).trans hstate, hsteady, ?_⟩
  rw [hspent]

lemma closer_of_reported {finish : Finish} {report : Report} (hc : Reported p finish c report) :
    Closer id host script left c :=
  .inl ⟨report, hc.progress⟩

section Line

/- A line is being executed in a steady playback. -/
variable (hp : Steady id play.token host script w.index p) (hindex : w.index < script.size)
  (hleft : p.spent.remaining host.budget w.index script.size = left)

include hp hindex hleft

/-- A line that is done brings the playback closer to its end. -/
lemma leads_done {recovered : Bool} (hstate : p.state = .playing) :
    Leads id play (Closer id host script left) (p.finishLine w .next recovered) := by
  refine leads_finishLine fun q hgist => ?_
  obtain ⟨vars, hshows⟩ := hp.shows
  have hcore := congrArg Gist.core hgist
  have hspent : ∀ line, (p.spent.forget w.index).count line ≤ host.budget :=
    Tally.count_forget_le hp.spent
  have hq : Steady id play.token host script w.index q :=
    hp.of_core hcore ⟨vars, hshows.recordLine.lineFinished _⟩ hspent hp.checkpoint
  obtain ⟨vars', hshows'⟩ := hq.shows
  have hqspent : q.spent = p.spent.forget w.index := (congrArg Player.spent hcore).trans rfl
  have hqstate : q.state = .playing := (congrArg Gist.state hgist).trans hstate
  have hnext : Steady id play.token host script (w.index + 1)
      { q with
        context := q.context.advance
        recovery := if recovered then q.recovery.recordSuccess else q.recovery } := by
    refine hq.of_core rfl ⟨vars', hshows'.advance⟩ hq.spent ?_
    cases recovered <;> exact hq.checkpoint
  refine leads_applyFlow hq.undisturbed hqstate rfl rfl fun c hc => ?_
  refine closer_of_returned hnext hqstate ?_ hc
  rw [← hleft]
  have hless := Tally.remaining_forget_lt hindex (hp.spent w.index)
  rw [← hqspent] at hless
  exact hless

/-- A line that is given up ends the playback or brings it closer to its end. -/
lemma leads_givenUp {fault : Fault} (hstate : p.state = .playing) :
    Leads id play (Closer id host script left) (p.closeFailed w fault) := by
  refine leads_closeFailed hp.undisturbed hstate ?_ fun _ c report hc => closer_of_reported hc
  intro _ q c hgist hc
  obtain ⟨vars, hshows⟩ := hp.shows
  have hcore := congrArg Gist.core hgist
  have hspent : ∀ line, (p.spent.forget w.index).count line ≤ host.budget :=
    Tally.count_forget_le hp.spent
  have hq : Steady id play.token host script (w.index + 1) q :=
    hp.of_core hcore ⟨vars, (hshows.lineFinished _).moveTo _⟩ hspent hp.checkpoint
  have hqspent : q.spent = p.spent.forget w.index := (congrArg Player.spent hcore).trans rfl
  refine closer_of_returned hq ((congrArg Gist.state hgist).trans hstate) ?_ hc
  rw [← hleft, hqspent]
  exact Tally.remaining_forget_lt hindex (hp.spent w.index)

/-- A line that has used up some of its budget brings the playback closer to its end, wherever it
goes on. -/
lemma leads_repeated {cursor' : Nat} {context : Context} {recovery : Recovery}
    (hstate : p.state = .playing) (hspent : p.spent.count w.index < host.budget)
    (hshows : ∃ vars, context.Shows { script, pc := cursor', vars })
    (hcheckpoint : ∀ s, recovery.checkpoint = some s → s.frames = [] ∧ s.breakpoints = []) :
    Leads id play (Closer id host script left)
      ({ p with spent := p.spent.bump w.index, context, recovery }.closeLine w .next) := by
  have hbumped := Tally.count_bump_le hp.spent hspent
  have hnext : Steady id play.token host script cursor'
      { p with spent := p.spent.bump w.index, context, recovery } :=
    hp.of_core rfl hshows hbumped hcheckpoint
  refine leads_closeLine hnext.undisturbed hstate fun c hc => ?_
  refine closer_of_returned hnext hstate ?_ hc
  rw [← hleft]
  exact Tally.remaining_bump_lt hindex hspent cursor'

/-- Whatever is done about a fault ends the playback or brings it closer to its end, unless it is a
jump. -/
lemma leads_remedied {fault : Fault} {policy : Policy} (hstate : p.state = .playing)
    (hstays : fault.Stays policy) :
    Leads id play (Closer id host script left) (p.handleFault w fault policy) := by
  have hlimit : p.tolerance.maxRecoveries = host.budget := by rw [tolerance, hp.host]; rfl
  obtain ⟨hcheckpoint, hkeeps⟩ :=
    Recovery.keeps_plan (r := p.recovery) (p.spent.count w.index) host.budget hstays
  obtain ⟨⟨plan, recovery⟩, hplan⟩ : ∃ x, p.recovery.plan fault policy (p.spent.count w.index)
      host.budget = x := ⟨_, rfl⟩
  rw [hplan] at hcheckpoint hkeeps
  have hkept : ∀ s, recovery.checkpoint = some s → s.frames = [] ∧ s.breakpoints = [] := by
    intro s hs
    exact hp.checkpoint s (hcheckpoint.symm.trans hs)
  have hplanned : Steady id play.token host script w.index { p with recovery } :=
    hp.of_core rfl hp.shows hp.spent hkept
  unfold handleFault
  rw [hlimit, hplan]
  split
  · exact leads_givenUp hp hindex hleft hstate
  · cases plan with
    | proceed flow =>
      obtain rfl : flow = .next := hkeeps
      exact leads_done hplanned hindex hleft hstate
    | again => exact leads_repeated hp hindex hleft hstate hkeeps hp.shows hkept
    | rollback s =>
      obtain ⟨hspent, hs⟩ := hkeeps
      obtain ⟨hframes, hbreakpoints⟩ := hp.checkpoint s hs
      obtain ⟨vars, hshows⟩ := hp.shows
      have hrestored : (p.context.restore s).Shows { script, pc := s.cursor, vars := s.vars } := by
        refine ⟨hshows.script, rfl, hshows.labels, hframes, rfl, ?_⟩
        simp only [Context.restore, hbreakpoints]
        rfl
      exact leads_repeated hp hindex hleft hstate hspent ⟨s.vars, hrestored⟩ hkept
    | halt =>
      refine leads_closeLine_finished Finish.noConfusion hp.undisturbed.pause fun c report hc => ?_
      exact closer_of_reported hc
    | giveUp => exact leads_givenUp hplanned hindex hleft hstate

/-- An attempt of a command on a line that leads to the next one only brings the playback closer to
its end, if another attempt does, where there may be one. -/
lemma leads_attempt {source : String} {command : Command} {attempt : Nat}
    (hstraight : (Line.command source (some command)).Straight host script w.index)
    (htoken : w.token = play.token) (hname : w.script = script.name) (hstate : p.state = .waiting)
    (hagain : attempt ≤ (host.policy command.type).maxRetries → ∀ q,
      Steady id play.token host script w.index q → q.state = .waiting →
      q.spent.remaining host.budget w.index script.size = left →
      Leads id play (Closer id host script left)
        (q.launch { work := w, command, entered := true, attempt := Word.next 32 attempt })) :
    Leads id play (Closer id host script left)
      (p.launch { work := w, command, entered := true, attempt }) := by
  obtain ⟨vars, hshows⟩ := hp.shows
  have hview : (p.context.view w.index w.script).IsOf script w.index :=
    ⟨rfl, hshows.lineCount, hshows.labels, hname⟩
  refine leads_launch hp.undisturbed htoken (fun _ => Closer.ne_blocked) ?_
  intro n q₁ f made verdict hmade hgist₁ hverdict
  obtain ⟨hpush, hflow, hremedy⟩ := hstraight n _ hview
  rw [hmade] at hgist₁ hverdict
  have hcore₁ := congrArg Gist.core hgist₁
  have hq₁ : Steady id play.token host script w.index q₁ :=
    hp.of_core hcore₁ (hshows.affects hpush) hp.spent hp.checkpoint
  have hleft₁ : q₁.spent.remaining host.budget w.index script.size = left := by
    have hspent : q₁.spent = p.spent := (congrArg Player.spent hcore₁).trans rfl
    rw [hspent]
    exact hleft
  have hstate₁ : q₁.state = .waiting := (congrArg Gist.state hgist₁).trans hstate
  obtain ⟨vars₁, hshows₁⟩ := hq₁.shows
  cases hconclude : command.conclude verdict with
  | ok flow =>
    -- Only an attempt that ends by itself succeeds.
    have hends : verdict = (command.attempt n (p.context.view w.index w.script)).verdict := by
      rcases hverdict with hends | ⟨⟨elapsed, hlate⟩, -⟩
      · exact hends
      · rw [hlate] at hconclude
        cases hconclude
    rw [hends] at hconclude
    obtain rfl := Flow.eq_next_of_redirects (hflow flow hconclude)
    rw [← hends] at hconclude
    refine leads_land rfl hstate₁ hconclude fun q₂ hgist₂ => ?_
    have hcore₂ := congrArg Gist.core hgist₂
    have hq₂ : Steady id play.token host script w.index q₂ :=
      hq₁.of_core hcore₂ ⟨vars₁, hshows₁.recordCommand⟩ hq₁.spent hq₁.checkpoint
    have hspent₂ : q₂.spent = q₁.spent := (congrArg Player.spent hcore₂).trans rfl
    exact leads_done hq₂ hindex (by rw [hspent₂]; exact hleft₁) (congrArg Gist.state hgist₂)
  | error failure =>
    have hgoing : q₁.isCancelled w.token = false := by
      rw [htoken]
      exact hq₁.undisturbed.going
    have hstays : (failure.classify command.type (host.policy command.type)).Stays
        (host.policy command.type) := by
      apply hremedy
      rcases hverdict with hends | ⟨⟨elapsed, hlate⟩, -⟩
      · rw [hends] at hconclude
        exact .inl hconclude
      · rw [hlate] at hconclude
        cases hconclude
        exact .inr ⟨elapsed, rfl⟩
    refine leads_land_error hgoing hconclude fun q₂ hgist₂ => ?_
    have hcore₂ := congrArg Gist.core hgist₂
    have hq₂ : Steady id play.token host script w.index q₂ :=
      hq₁.of_core hcore₂ ⟨vars₁, hshows₁.recordCommand⟩ hq₁.spent hq₁.checkpoint
    have hspent₂ : q₂.spent = q₁.spent := (congrArg Player.spent hcore₂).trans rfl
    have hleft₂ : q₂.spent.remaining host.budget w.index script.size = left := by
      rw [hspent₂]
      exact hleft₁
    have hstate₂ : q₂.state = .waiting := (congrArg Gist.state hgist₂).trans hstate₁
    refine leads_attemptFailed hq₂.undisturbed rfl htoken hstate₂ (fun _ => Closer.ne_blocked) ?_ ?_
    · intro _ hattempt q₃ hgist₃
      rw [hq₂.host] at hattempt
      have hcore₃ : q₃.core = q₂.core := congrArg Gist.core hgist₃
      have hspent₃ : q₃.spent = q₂.spent := (congrArg Player.spent hcore₃).trans rfl
      exact hagain hattempt q₃ (hq₂.of_gist hcore₃) ((congrArg Gist.state hgist₃).trans hstate₂)
        (by rw [hspent₃]; exact hleft₂)
    · intro q₃ hgist₃
      rw [hq₂.host]
      have hcore₃ : q₃.core = q₂.core := congrArg Gist.core hgist₃
      have hspent₃ : q₃.spent = q₂.spent := (congrArg Player.spent hcore₃).trans rfl
      exact leads_remedied (hq₂.of_gist hcore₃) hindex (by rw [hspent₃]; exact hleft₂)
        (congrArg Gist.state hgist₃) hstays

omit hp hleft in
/-- However often the attempts of a command fail, the playback comes closer to its end. -/
lemma leads_attempts {source : String} {command : Command} {attempt : Nat} (retries : Nat)
    (hstraight : (Line.command source (some command)).Straight host script w.index)
    (htoken : w.token = play.token) (hname : w.script = script.name)
    (hretries : (host.policy command.type).maxRetries < attempt + retries)
    (hrelents : host.Relents)
    (hp : Steady id play.token host script w.index p) (hstate : p.state = .waiting)
    (hleft : p.spent.remaining host.budget w.index script.size = left) :
    Leads id play (Closer id host script left)
      (p.launch { work := w, command, entered := true, attempt }) := by
  -- The induction is on the attempts that are left after this one.
  induction retries generalizing p attempt with
  | zero =>
    refine leads_attempt hp hindex hleft hstraight htoken hname hstate fun hattempt => ?_
    omega
  | succ retries ih =>
    refine leads_attempt hp hindex hleft hstraight htoken hname hstate ?_
    intro hattempt q hq hqstate hqleft
    have hword := hrelents command.type
    rw [Word.next_of_lt (by omega)]
    exact ih (by omega) hq hqstate hqleft

/-- A line that leads to the next one only brings the playback closer to its end. -/
lemma leads_straight {line : Line} (hrelents : host.Relents) (htoken : w.token = play.token)
    (hname : w.script = script.name) (hstate : p.state = .playing) :
    line.Straight host script w.index →
    Leads id play (Closer id host script left)
      (match line with
      | .command _ command => p.beginCommand w command
      | .text text => p.beginText w text) := by
  intro hstraight
  cases line with
  | text source =>
    have hkept : ∀ q : Player, q.gist = p.gist →
        Steady id play.token host script w.index q ∧ q.state = .playing ∧
          q.spent.remaining host.budget w.index script.size = left := by
      intro q hgist
      have hcore : q.core = p.core := congrArg Gist.core hgist
      have hspent : q.spent = p.spent := (congrArg Player.spent hcore).trans rfl
      refine ⟨hp.of_gist hcore, (congrArg Gist.state hgist).trans hstate, ?_⟩
      rw [hspent]
      exact hleft
    refine leads_beginText hp.undisturbed htoken (fun _ => Closer.ne_blocked) ?_ ?_
    · intro q hgist
      obtain ⟨hq, hqstate, hqleft⟩ := hkept q hgist
      exact leads_done hq hindex hqleft hqstate
    · intro q presenter text failure hgist hpresenter hkind hrespond
      obtain ⟨hq, hqstate, hqleft⟩ := hkept q hgist
      rw [hp.host] at hpresenter ⊢
      exact leads_remedied hq hindex hqleft hqstate
        (hstraight presenter text failure hpresenter hkind hrespond)
  | command source command =>
    cases command with
    | none =>
      refine leads_remedied hp hindex hleft hstate ?_
      rw [hp.host]
      intro target hjump
      unfold Recovery.remedyFor at hjump
      split at hjump
      · cases hjump
      · rcases Option.or_eq_some_iff.mp hjump with honError | ⟨-, hnone⟩
        · exact hstraight target honError
        · cases hnone
    | some command =>
      refine leads_beginCommand hstate fun q hgist => ?_
      have hcore : q.core = p.core := congrArg Gist.core hgist
      have hspent : q.spent = p.spent := (congrArg Player.spent hcore).trans rfl
      exact leads_attempts hindex (host.policy command.type).maxRetries hstraight htoken hname
        (by omega) hrelents (hp.of_gist hcore) (congrArg Gist.state hgist)
        (by rw [hspent]; exact hleft)

end Line

/-! ### Rounds -/

/-- Every round brings the playback closer to its end. -/
lemma Pending.inevitably_closer {phase : Phase} {now : Nat} (hstraight : script.Straight host)
    (hrelents : host.Relents) (h : Pending id host script left c) (hc : c.2 = .goes phase) :
    Inevitably (AdvancesWithin id) (Closer id host script left) ((c.1.at_ now).step id phase) := by
  obtain ⟨play, cursor, hgoes, hstate, hsteady, hleft⟩ := h
  obtain ⟨p, progress⟩ := c
  obtain rfl : progress = .goes (.playLock play) := hgoes
  obtain rfl : phase = .playLock play := by cases hc; rfl
  have hp : Steady id play.token host script cursor (p.at_ now) := hsteady.of_gist rfl
  obtain ⟨vars, hshows⟩ := hp.shows
  have hsettled := hshows.settleCursor
  rw [Machine.unwind_of_stack rfl] at hsettled
  obtain ⟨context, hcontext⟩ : ∃ context, (p.at_ now).context.settleCursor = context := ⟨_, rfl⟩
  rw [hcontext] at hsettled
  rw [step_playLock hp.undisturbed hstate hshows.breakpoints]
  refine leads_beginLine hcontext (fun _ d report hd => closer_of_reported hd) ?_
  intro line q w hline hindex hname htoken hcore hqstate _
  rw [hsettled.currentLine] at hline
  rw [hsettled.scriptName] at hname
  obtain rfl : w.index = cursor := hindex.trans hsettled.cursor
  have hq : Steady id play.token host script w.index q :=
    hp.of_core hcore ⟨vars, hsettled⟩ hp.spent hp.checkpoint
  have hspent : q.spent = p.spent := (congrArg Player.spent hcore).trans rfl
  have hsize : w.index < script.size := (List.getElem?_eq_some_iff.mp hline).1
  have hqleft : q.spent.remaining host.budget w.index script.size = left := by
    rw [hspent]
    exact hleft
  exact leads_straight hq hsize hqleft hrelents htoken hname (hqstate.trans hstate)
    (hstraight _ _ hline)

/-- A playback with something left to do goes on. -/
lemma Pending.exists_advances (hstraight : script.Straight host) (hrelents : host.Relents)
    (h : Pending id host script left c) : ∃ d, Advances id c d := by
  have hpending := h
  obtain ⟨play, cursor, hgoes, -⟩ := hpending
  refine ⟨_, .playLock play, c.1.now, hgoes, Nat.le_refl _, rfl, ?_⟩
  exact ne_blocked_of_inevitably (h.inevitably_closer hstraight hrelents hgoes) fun _ =>
    Closer.ne_blocked

/-- A playback with something left to do ends. -/
lemma Pending.inevitably_ends (hstraight : script.Straight host) (hrelents : host.Relents)
    (h : Pending id host script left c) :
    Inevitably (Advances id) (fun d => ∃ report, d.2 = .ends (.report report)) c := by
  -- The induction is on what is left to do.
  induction left using Nat.strong_induction_on generalizing c with
  | _ left ih =>
    refine .later (h.exists_advances hstraight hrelents) fun d hd => ?_
    obtain ⟨phase, now, hphase, -, rfl, -⟩ := hd
    refine (inevitably_of_within (h.inevitably_closer hstraight hrelents hphase)).bind ?_
    rintro d (hended | ⟨left', hless, hpending⟩)
    · exact .here hended
    · exact ih left' hless hpending

/-- A playback that has started has everything left to do. -/
lemma Started.pending (h : Started id p script .beginning c)
    (hbreakpoints : p.context.breakpoints = []) :
    ∃ left < (p.host.budget + 2) ^ script.size, Pending id p.host script left c := by
  obtain ⟨play, hgoes, hundisturbed⟩ := h.progress
  obtain ⟨now, hcontext⟩ := h.context
  obtain ⟨at_, hcheckpoint⟩ := h.checkpoint
  have hshows : c.1.context.Shows { script, pc := 0, vars := c.1.context.vars } := by
    rw [hcontext]
    exact ⟨rfl, rfl, rfl, rfl, rfl, hbreakpoints⟩
  refine ⟨_, Tally.remaining_lt_pow _ _ _ _, play, 0, hgoes, h.state, ?_, rfl⟩
  exact
    { undisturbed := hundisturbed
      shows := ⟨_, hshows⟩
      spent := by
        rw [h.spent]
        exact fun _ => Nat.zero_le _
      checkpoint := by
        intro s hs
        rw [hcheckpoint] at hs
        simp only [Context.snapshot?, hshows.script, Option.map_some, Option.some.injEq] at hs
        subst hs
        exact ⟨hshows.frames, hshows.breakpoints⟩
      host := h.host }

/-- A playback of a script whose lines lead to the next one only, from its beginning and without
breakpoints, ends with a report, and the number of its rounds is bounded: whatever its commands do
at each attempt (`Attempt`), however they and its presenter fail, and whatever is done about it,
unless it is a jump or a number of retries that is the greatest word. -/
theorem recovery_comes_to_an_end (id : Nat) (hp : Ready p) (hrelents : p.host.Relents)
    (hbreakpoints : p.context.breakpoints = []) (hstraight : script.Straight p.host) :
    (∀ n c, Runs id (p, .goes (.entering (.play script .beginning false))) n c →
      n ≤ (p.host.budget + 2) ^ script.size) ∧
    Inevitably (Advances id) (fun c => ∃ report, c.2 = .ends (.report report))
      (p, .goes (.entering (.play script .beginning false))) := by
  obtain ⟨bound, hbound⟩ : ∃ bound, bound = (p.host.budget + 2) ^ script.size := ⟨_, rfl⟩
  -- The script is refused, or the playback comes to its first line.
  have hstart : Inevitably (AdvancesWithin id)
      (fun c => (∃ report, c.2 = .ends (.report report)) ∨
        ∃ left < bound, Pending id p.host script left c)
      (p, .goes (.entering (.play script .beginning false))) := by
    by_cases hclean : p.tolerance.refuseDefects = true → script.survey.fault? script.name = none
    · refine (inevitably_started hp rfl hclean).mono fun c hc => .inr ?_
      rw [hbound]
      exact hc.pending hbreakpoints
    · obtain ⟨hrefuse, hdefects⟩ := Classical.not_imp.mp hclean
      obtain ⟨fault, hfault⟩ := Option.ne_none_iff_exists'.mp hdefects
      refine (inevitably_refused hp rfl hrefuse hfault).mono ?_
      rintro c ⟨q, report, hreport⟩
      exact .inl ⟨report, hreport.progress⟩
  constructor
  · intro n c hrun
    rw [← hbound]
    have hround := Runs.inevitably
      (Q := fun n c => n ≤ bound ∧ ((∃ report, c.2 = .ends (.report report)) ∨
        ∃ left, left + n < bound ∧ Pending id p.host script left c)) ?_ ?_ ?_ hrun
    · obtain ⟨d, -, hle, -⟩ := hround.reached
      exact hle
    · refine hstart.mono fun c hc => ⟨Nat.zero_le _, hc.imp_right ?_⟩
      rintro ⟨left, hless, hpending⟩
      exact ⟨left, hless, hpending⟩
    · rintro n d e ⟨-, ⟨report, hd⟩ | ⟨left, hless, hpending⟩⟩ hhead hstep
      · rw [hd] at hhead
        cases hhead
      · obtain ⟨phase, now, hphase, -, rfl, -⟩ := hstep
        refine (hpending.inevitably_closer hstraight hrelents hphase).mono fun c hc =>
          ⟨by omega, ?_⟩
        refine hc.imp_right ?_
        rintro ⟨left', hless', hpending'⟩
        exact ⟨left', by omega, hpending'⟩
    · rintro n d ⟨-, ⟨report, hd⟩ | ⟨left, -, play, cursor, hd, -⟩⟩
      · rw [hd]
        exact .inr rfl
      · rw [hd]
        exact .inl rfl
  · refine (inevitably_of_within hstart).bind ?_
    rintro c (hended | ⟨left, -, hpending⟩)
    · exact .here hended
    · exact hpending.inevitably_ends hstraight hrelents

/-! ### A line that never succeeds -/

/-- Returns to the checkpoint whenever it fails, which it always does. -/
def stumble : Command :=
  .custom "stumble" true fun _ _ => { verdict := .error (.network "unreachable") }

/-- A text, and a line that never succeeds. -/
def rehearsal : Script := ⟨"rehearsal", [.text "one", .command "@stumble" (some stumble)]⟩

/-- A player that returns to the checkpoint after faults, three times for each line. -/
def beginner : Player :=
  { host :=
      { config := { tolerance := { maxRecoveries := 3 } }
        registry := { defaults := { maxRetries := 2, onError := some .rollback } } }
    bus := { capacity := 16 } }

/-- A line that never succeeds leads to the next one only, unless its policy says to jump. -/
lemma straight_stumble {source : String} {index : Nat}
    (honError : ∃ remedy, (host.policy "stumble").onError = some remedy ∧
      ∀ target, remedy ≠ .jump target) :
    (Line.command source (some stumble)).Straight host script index := by
  obtain ⟨remedy, hremedy, hjumps⟩ := honError
  intro n view _
  refine ⟨fun index hmem => ?_, fun flow hflow => ?_, fun failure _ target hjump => ?_⟩
  · cases hmem
  · cases hflow
  · have hpolicy : (host.policy stumble.type).onError = some remedy := hremedy
    unfold Recovery.remedyFor at hjump
    rw [hpolicy] at hjump
    split at hjump
    · cases hjump
    · exact hjumps target (Option.some.inj hjump)

/-- The rehearsal ends within as many rounds as there can be. -/
theorem beginner_ends_rehearsal :
    (∀ n c, Runs 0 (beginner, .goes (.entering (.play rehearsal .beginning false))) n c →
      n ≤ 25) ∧
    Inevitably (Advances 0) (fun c => ∃ report, c.2 = .ends (.report report))
      (beginner, .goes (.entering (.play rehearsal .beginning false))) := by
  refine recovery_comes_to_an_end 0 ready_of_new (fun _ => show 2 + 1 < 2 ^ 32 by decide) rfl ?_
  intro index line hline
  match index with
  | 0 =>
    cases hline
    intro presenter text failure hpresenter
    cases hpresenter
  | 1 =>
    cases hline
    exact straight_stumble ⟨.rollback, rfl, fun _ => Remedy.noConfusion⟩
  | index + 2 => cases hline

/-! ### Playbacks without end -/

/-- A playback never ends if it comes to some point of its way, and from each such point to another
one. -/
lemma not_ends_of_forever {I : Player × Progress → Prop}
    (hI : ∀ c, I c → ∃ phase now, c.2 = .goes phase ∧ c.1.now ≤ now ∧
      Inevitably (AdvancesWithin id) I ((c.1.at_ now).step id phase))
    (hc : Inevitably (AdvancesWithin id) I c) :
    ¬ Inevitably (Advances id) (fun c => ∃ report, c.2 = .ends (.report report)) c := by
  have hready : ∀ c, I c → c.2 ≠ .blocked := by
    intro c h
    obtain ⟨phase, -, hgoes, -⟩ := hI c h
    rw [hgoes]
    exact Progress.noConfusion
  refine Inevitably.not_of_forever (I := Inevitably (AdvancesWithin id) I) ?_ hc
  intro c hc
  cases hc with
  | here h =>
    obtain ⟨phase, now, hgoes, hnow, hagain⟩ := hI c h
    refine ⟨?_, _, ⟨phase, now, hgoes, hnow, rfl, ?_⟩, hagain⟩
    · rintro ⟨report, hended⟩
      rw [hgoes] at hended
      cases hended
    · exact ne_blocked_of_inevitably hagain hready
  | later hex hall =>
    obtain ⟨d, hd⟩ := hex
    refine ⟨?_, d, hd.2, hall d hd⟩
    rintro ⟨report, hended⟩
    exact not_advances_of_isEnded (by rw [hended]; rfl) hd.2

/-! ### A line that returns to itself -/

/-- Succeeds, and leaves the first line as a return address. -/
def circle : Command := .custom "circle" false fun _ _ => { effects := [.push 0] }

/-- A single line that returns to itself at the end of the script. -/
def canon : Script := ⟨"canon", [.command "@circle" (some circle)]⟩

/-- The playback is about to execute the line, once more or for the first time. -/
def Circling (c : Player × Progress) : Prop :=
  ∃ play m vars, c.2 = .goes (.playLock play) ∧ c.1.state = .playing ∧
    Undisturbed 0 play.token c.1 ∧ c.1.context.Shows m ∧ m.unwind = { script := canon, vars }

lemma Circling.ne_blocked (h : Circling c) : c.2 ≠ .blocked := by
  obtain ⟨play, m, vars, hc, -⟩ := h
  rw [hc]
  exact Progress.noConfusion

/-- Each round comes back to the same line. -/
lemma Circling.inevitably_again {phase : Phase} {now : Nat} (h : Circling c)
    (hc : c.2 = .goes phase) :
    Inevitably (AdvancesWithin 0) Circling ((c.1.at_ now).step 0 phase) := by
  obtain ⟨play, m, vars, hgoes, hstate, hundisturbed, hshows, hunwind⟩ := h
  obtain ⟨p, progress⟩ := c
  obtain rfl : progress = .goes (.playLock play) := hgoes
  obtain rfl : phase = .playLock play := by cases hc; rfl
  have hp : Undisturbed 0 play.token (p.at_ now) := hundisturbed.of_core rfl
  have hsettled := hshows.settleCursor
  rw [hunwind] at hsettled
  obtain ⟨context, hcontext⟩ : ∃ context, (p.at_ now).context.settleCursor = context := ⟨_, rfl⟩
  have hcontext' : p.context.settleCursor = context := hcontext
  rw [hcontext'] at hsettled
  rw [step_playLock hp hstate hshows.breakpoints]
  refine leads_beginLine hcontext ?_ ?_
  · intro hnone
    rw [hsettled.currentLine] at hnone
    cases hnone
  intro line q w hline _ _ htoken hcore hqstate _
  rw [hsettled.currentLine] at hline
  cases hline
  have hq : Undisturbed 0 play.token q := hp.of_core hcore
  have hqcontext : q.context = context := (congrArg Player.context hcore).trans rfl
  refine leads_beginCommand (hqstate.trans hstate) fun q₁ hgist₁ => ?_
  have hcore₁ : q₁.core = q.core := congrArg Gist.core hgist₁
  have hcontext₁ : q₁.context = q.context := (congrArg Player.context hcore₁).trans rfl
  refine leads_launch (hq.of_core hcore₁) htoken (fun _ => Circling.ne_blocked) ?_
  intro n q₂ f attempt verdict hattempt hgist₂ hverdict
  have hcore₂ := congrArg Gist.core hgist₂
  have hq₂ : Undisturbed 0 play.token q₂ := (hq.of_core hcore₁).of_core hcore₂
  subst hattempt
  have hcontext₂ : q₂.context = context.pushFrame ⟨0⟩ := by
    rw [← hqcontext, ← hcontext₁]
    exact (congrArg Player.context hcore₂).trans rfl
  have hok : circle.conclude verdict = .ok .next := by
    rcases hverdict with hends | ⟨-, hlate⟩
    · rw [hends]
      rfl
    · have hlt := hlate .zero rfl
      rw [timer_eq, timer_eq] at hlt
      exact absurd (Nat.lt_of_add_lt_add_left hlt) (Nat.not_lt_zero _)
  have hstate₂ : q₂.state = .waiting :=
    (congrArg Gist.state hgist₂).trans (congrArg Gist.state hgist₁)
  refine leads_land rfl hstate₂ hok fun q₃ hgist₃ => ?_
  have hcore₃ := congrArg Gist.core hgist₃
  refine leads_finishLine fun q₄ hgist₄ => ?_
  have hcore₄ := congrArg Gist.core hgist₄
  have hq₄ : Undisturbed 0 play.token q₄ := (hq₂.of_core hcore₃).of_core hcore₄
  have hstate₄ : q₄.state = .playing :=
    (congrArg Gist.state hgist₄).trans (congrArg Gist.state hgist₃)
  have hcontext₃ : q₃.context = q₂.context.recordCommand :=
    (congrArg Player.context hcore₃).trans rfl
  have hcontext₄ : q₄.context = q₃.context.recordLine.lineFinished w.index :=
    (congrArg Player.context hcore₄).trans rfl
  -- The line has been executed, and its return address is the only one.
  have hpushed :
      (context.pushFrame ⟨0⟩).Shows { script := canon, pc := 0, stack := [0], vars } := by
    refine ⟨hsettled.script, hsettled.cursor, hsettled.labels, ?_, hsettled.vars,
      hsettled.breakpoints⟩
    rw [Context.pushFrame, hsettled.frames]
    rfl
  have hshows₄ : q₄.context.Shows { script := canon, pc := 0, stack := [0], vars } := by
    rw [hcontext₄, hcontext₃, hcontext₂]
    exact hpushed.recordCommand.recordLine.lineFinished _
  refine leads_applyFlow hq₄ hstate₄ rfl rfl fun d hd => ?_
  obtain ⟨r, play', recovery, rfl, htoken', hgist, -⟩ := hd
  have hcore' := congrArg Gist.core hgist
  have hcontext' : r.context = q₄.context.advance := (congrArg Player.context hcore').trans rfl
  refine ⟨play', { script := canon, pc := 1, stack := [0], vars }, vars, rfl,
    (congrArg Gist.state hgist).trans hstate₄, ?_, ?_, rfl⟩
  · rw [htoken']
    exact
      { lock := (congrArg Player.lineLock hcore').trans rfl
        deferred := (congrArg Player.deferred hcore').trans hq₄.deferred
        pause := (congrArg Player.pauseRequested hcore').trans hq₄.pause
        going := (congrArg (·.isCancelled play.token) hcore').trans hq₄.going }
  · show r.context.Shows _
    rw [hcontext']
    exact hshows₄.advance

/-- A line that always succeeds and never redirects, but leaves a return address, can keep a
playback going for ever. -/
lemma canon_never_ends :
    ¬ Inevitably (Advances 0) (fun c => ∃ report, c.2 = .ends (.report report))
      (beginner, .goes (.entering (.play canon .beginning false))) := by
  refine not_ends_of_forever (I := Circling) ?_ ?_
  · intro c hcircling
    have hpoint := hcircling
    obtain ⟨play, m, vars, hgoes, -⟩ := hpoint
    exact ⟨_, c.1.now, hgoes, Nat.le_refl _, hcircling.inevitably_again hgoes⟩
  · refine (inevitably_started ready_of_new rfl fun _ => rfl).mono fun c hc => ?_
    obtain ⟨play, hgoes, hundisturbed⟩ := hc.progress
    obtain ⟨now, hcontext⟩ := hc.context
    refine ⟨play, { script := canon, vars := c.1.context.vars }, c.1.context.vars, hgoes, hc.state,
      hundisturbed, ?_, rfl⟩
    rw [hcontext]
    exact ⟨rfl, rfl, rfl, rfl, rfl, rfl⟩

/-! ### A line that is attempted for ever -/

/-- A single line that never succeeds. -/
def lament : Script := ⟨"lament", [.command "@stumble" (some stumble)]⟩

/-- A player that attempts a command as often again as a word can say. -/
def persistent : Player :=
  { host := { registry := { defaults := { maxRetries := 2 ^ 32 - 1, onError := some .stop } } }
    bus := { capacity := 16 } }

/-- The playback is about to execute the line, or attempts its command. -/
def Lamenting (c : Player × Progress) : Prop :=
  c.1.host = persistent.host ∧
    ((∃ play, c.2 = .goes (.playLock play) ∧ c.1.state = .playing ∧
        Undisturbed 0 play.token c.1 ∧ ∃ vars, c.1.context.Shows { script := lament, vars }) ∨
      ∃ play line, c.2 = .goes (.playing play line) ∧ c.1.isCancelled play.token = false ∧
        line.Insists c.1.host play.token true)

lemma insists_stumble : stumble.Insists persistent.host :=
  ⟨Nat.le_refl _, fun _ _ => ⟨_, rfl, rfl⟩, fun _ => rfl⟩

/-- An attempt after the other is made. -/
lemma Retries.lamenting {p : Player} {play : Play} {x : Player × LineProgress}
    (h : Retries p play.token true x) (hhost : p.host = persistent.host)
    (hgoing : p.isCancelled play.token = false) : Lamenting (followPlay 0 play x) := by
  obtain ⟨q, progress⟩ := x
  obtain ⟨hbearing, line, rfl, hline⟩ := h
  have hqhost : q.host = p.host := congrArg (fun b : Bearing => b.rest.host) hbearing
  have hqgoing : q.isCancelled play.token = p.isCancelled play.token :=
    congrArg (fun b : Bearing => b.rest.isCancelled play.token) hbearing
  refine ⟨hqhost.trans hhost, .inr ⟨play, line, rfl, hqgoing.trans hgoing, ?_⟩⟩
  have hline' : line.Insists q.host play.token true := hqhost ▸ hline
  exact hline'

/-- The line is begun with its first attempt. -/
lemma Lamenting.begins {p : Player} {play : Play} (hhost : p.host = persistent.host)
    (hp : Undisturbed 0 play.token p) (hstate : p.state = .playing) {vars : Table Json}
    (hshows : p.context.Shows { script := lament, vars }) :
    Inevitably (AdvancesWithin 0) Lamenting (p.step 0 (.playLock play)) := by
  have hsettled := hshows.settleCursor
  rw [Machine.unwind_of_stack rfl] at hsettled
  rw [step_playLock hp hstate hshows.breakpoints]
  refine leads_beginLine rfl ?_ ?_
  · intro hnone
    rw [hsettled.currentLine] at hnone
    cases hnone
  intro line q w hline _ _ htoken hcore hqstate _
  rw [hsettled.currentLine] at hline
  cases hline
  refine leads_beginCommand (hqstate.trans hstate) fun r hgist => ?_
  have hrcore : r.core = q.core := congrArg Gist.core hgist
  have hr : Undisturbed 0 play.token r := (hp.of_core hcore).of_core hrcore
  have hrhost : r.host = persistent.host := by
    have hhosts : r.core.host = p.core.host :=
      (congrArg Player.host hrcore).trans ((congrArg Player.host hcore).trans rfl)
    exact hhosts.trans hhost
  have hjob : Job.Insists r.host play.token true
      { work := w, command := stumble, entered := true, attempt := 1 } :=
    ⟨hrhost ▸ insists_stumble, show 1 < 2 ^ 32 by decide, htoken, rfl⟩
  exact .here ((retries_launch hr.going hjob).lamenting hrhost hr.going)

/-- A command that always fails with a fault that is retried keeps a playback going for ever if its
policy grants as many retries as a word can hold. -/
lemma lament_never_ends :
    ¬ Inevitably (Advances 0) (fun c => ∃ report, c.2 = .ends (.report report))
      (persistent, .goes (.entering (.play lament .beginning false))) := by
  refine not_ends_of_forever (I := Lamenting) ?_ ?_
  · rintro ⟨p, progress⟩ ⟨hhost, hpoint⟩
    rcases hpoint with ⟨play, rfl, hstate, hp, vars, hshows⟩ | ⟨play, line, rfl, hgoing, hline⟩
    · exact ⟨_, p.now, rfl, Nat.le_refl _, Lamenting.begins hhost hp hstate hshows⟩
    · refine ⟨_, max p.now line.deadline, rfl, le_max_left _ _, ?_⟩
      rcases retries_stepLine (p := p.at_ (max p.now line.deadline)) hgoing hline with
        ⟨-, hearly⟩ | hretries
      · exact absurd (le_max_right p.now line.deadline) (Nat.not_le_of_lt hearly)
      · exact .here (hretries.lamenting hhost hgoing)
  · refine (inevitably_started ready_of_new rfl fun _ => rfl).mono fun c hc => ?_
    obtain ⟨play, hgoes, hundisturbed⟩ := hc.progress
    obtain ⟨now, hcontext⟩ := hc.context
    refine ⟨hc.host, .inl ⟨play, hgoes, hc.state, hundisturbed, c.1.context.vars, ?_⟩⟩
    rw [hcontext]
    exact ⟨rfl, rfl, rfl, rfl, rfl, rfl⟩

/-- No line redirects and no fault is remedied by a jump, and yet there are playbacks without end: a
line that leaves a return address comes back to itself, and a policy that grants as many retries as
a word can hold grants another one after each attempt. -/
theorem runs_without_end :
    ((∀ n view, circle.conclude (circle.attempt n view).verdict = .ok .next) ∧
        beginner.host.Relents ∧
        ¬ Inevitably (Advances 0) (fun c => ∃ report, c.2 = .ends (.report report))
          (beginner, .goes (.entering (.play canon .beginning false)))) ∧
      lament.Straight persistent.host ∧ (persistent.host.policy "stumble").maxRetries = 2 ^ 32 - 1 ∧
      ¬ Inevitably (Advances 0) (fun c => ∃ report, c.2 = .ends (.report report))
        (persistent, .goes (.entering (.play lament .beginning false))) := by
  refine ⟨⟨fun n view => rfl, fun _ => show 2 + 1 < 2 ^ 32 by decide, canon_never_ends⟩, ?_, rfl,
    lament_never_ends⟩
  intro index line hline
  match index with
  | 0 =>
    cases hline
    exact straight_stumble ⟨.stop, rfl, fun _ => Remedy.noConfusion⟩
  | index + 1 => cases hline

end Player

end Recital

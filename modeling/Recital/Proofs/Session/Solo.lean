import Recital.Proofs.Player.Orderly
import Mathlib.Data.List.Nodup

/-!
# Sessions with one playback

A session is solo if there is a single playback in it, the request with a given number.  Beside it
requests may be made that execute a line or move the cursor, and any calls.  `Session.Evolves` leads
from one session to another by actions of a given kind, in any order.

Whatever happens, a solo session stays in order (`Solo.does`): there is at most one line in flight,
and its request has the line lock; the state is `waiting` only for a command in flight; before its
first line the playback cannot be paused, and after its end it is gone.
-/

namespace Recital

/-! ### Calls -/

namespace Player

variable {p : Player} {c : Call}

/-- What calls leave alone. -/
structure Spared (p q : Player) : Prop where
  lock : q.lineLock = p.lineLock
  token : q.token = p.token
  deferred : q.deferred = p.deferred
  begun : q.bus.begun = p.bus.begun
  account : q.account = p.account

lemma Spared.refl (p : Player) : Spared p p := ⟨rfl, rfl, rfl, rfl, rfl⟩

lemma Spared.trans {q r : Player} (hpq : Spared p q) (hqr : Spared q r) : Spared p r :=
  ⟨hqr.lock.trans hpq.lock, hqr.token.trans hpq.token, hqr.deferred.trans hpq.deferred,
    hqr.begun.trans hpq.begun, hqr.account.trans hpq.account⟩

/-- What only changes the state spares the rest. -/
lemma Spared.of_bearing {q : Player} {state : State}
    (hbearing : q.bearing = { p.bearing with state }) (hcontext : q.context = p.context) :
    Spared p q :=
  ⟨congrArg Bearing.lock hbearing, congrArg (fun b : Bearing => b.rest.token) hbearing,
    congrArg (fun b : Bearing => b.rest.deferred) hbearing, congrArg Bearing.begun hbearing,
    congrArg (fun c : Context => (c.scriptName, c.linesExecuted, c.commandsExecuted)) hcontext⟩

lemma spared_moveFrom {run : Run} {a b : State} : Spared p (p.moveFrom run a b).2 := by
  have hcontext : (p.moveFrom run a b).2.context = p.context :=
    congrArg (fun g : Gist => g.core.context) (gist_moveFrom p run)
  have hbearing := p.bearing_moveFrom run (a := a) (b := b)
  split at hbearing
  · exact .of_bearing hbearing hcontext
  · have hsame : (p.moveFrom run a b).2.bearing = { p.bearing with state := p.state } := hbearing
    exact .of_bearing hsame hcontext

lemma spared_stop : Spared p p.stop := by
  unfold stop
  split
  · have hasked : Spared p { p with stopRequested := true } := ⟨rfl, rfl, rfl, rfl, rfl⟩
    have hmoved : Spared { p with stopRequested := true }
        ({ p with stopRequested := true }.moveIfAllowed p.run .stopped) :=
      .of_bearing (bearing_moveIfAllowed _ _)
        (congrArg (fun g : Gist => g.core.context) (gist_moveIfAllowed _ _))
    rw [cancelRun_eq]
    exact hasked.trans (hmoved.trans ⟨rfl, rfl, rfl, rfl, rfl⟩)
  · exact .refl p

/-- A call spares all that belongs to lines and to the end of the playback. -/
lemma spared_perform : Spared p (p.perform c) := by
  cases c with
  | pause =>
    simp only [perform, pause]
    split
    · exact .refl p
    · exact spared_moveFrom.trans ⟨rfl, rfl, rfl, rfl, rfl⟩
    · exact ⟨rfl, rfl, rfl, rfl, rfl⟩
    · exact .refl p
  | resume =>
    have htaken : Spared p { p with pauseRequested := false } := ⟨rfl, rfl, rfl, rfl, rfl⟩
    simp only [perform, resume]
    split
    · exact htaken.trans spared_moveFrom
    · exact htaken
    · exact htaken
    · exact htaken
  | stop => exact spared_stop
  | cancel => exact ⟨rfl, rfl, rfl, rfl, rfl⟩
  | setSpeed speed =>
    simp only [perform, setSpeed]
    split
    · exact ⟨rfl, rfl, rfl, rfl, rfl⟩
    · exact .refl p
  | addBreakpoint index => exact ⟨rfl, rfl, rfl, rfl, rfl⟩
  | removeBreakpoint index =>
    simp only [perform, removeBreakpoint, Context.removeBreakpoint, Context.unrelease]
    split <;> exact ⟨rfl, rfl, rfl, rfl, rfl⟩
  | clearBreakpoints => exact ⟨rfl, rfl, rfl, rfl, rfl⟩
  | assign name value =>
    have hbearing : (p.setVariable p.run name value).bearing = p.bearing := bearing_setVariable _ _
    exact ⟨congrArg Bearing.lock hbearing, congrArg (fun b : Bearing => b.rest.token) hbearing,
      congrArg (fun b : Bearing => b.rest.deferred) hbearing, congrArg Bearing.begun hbearing,
      rfl⟩
  | unassignAll =>
    have hbearing := p.bearing_clearVariables p.run
    have hgist := gist_clearVariables p p.run
    have hcontext : (p.clearVariables p.run).context = p.context.clearVariables :=
      congrArg (fun g : Gist => g.core.context) hgist
    have haccount : (p.clearVariables p.run).account = p.account := by
      unfold account
      rw [hcontext]
      rfl
    exact ⟨congrArg Bearing.lock hbearing, congrArg (fun b : Bearing => b.rest.token) hbearing,
      congrArg (fun b : Bearing => b.rest.deferred) hbearing, congrArg Bearing.begun hbearing,
      haccount⟩

/-- What a call does to the state, and to a pause that was asked for. -/
inductive Steers (p : Player) : Call → Player → Prop
  /-- The playback is paused at once. -/
  | pauses {q : Player} (hstate : p.state = .playing) (hq : q.state = .paused) : Steers p .pause q
  /-- The playback will be paused at the end of its line. -/
  | asks {q : Player} (hstate : p.state = .waiting) (hq : q.state = .waiting)
    (hpause : q.pauseRequested = true) : Steers p .pause q
  | resumes {q : Player} (hstate : p.state = .paused) (hq : q.state = .playing) : Steers p .resume q
  | unasks {q : Player} (hq : q.state = p.state) : Steers p .resume q
  | stops {q : Player} (hq : q.state = .stopped) : Steers p .stop q
  | keeps {c : Call} {q : Player} (hq : q.state = p.state)
    (hpause : q.pauseRequested = p.pauseRequested) : Steers p c q

lemma steers_perform : Steers p c (p.perform c) := by
  cases c with
  | pause =>
    simp only [perform, pause]
    split
    · exact .keeps rfl rfl
    · next hstate =>
      refine .pauses hstate ?_
      rw [moveFrom_eq _ _ hstate rfl]
      rfl
    · next hstate => exact .asks hstate hstate rfl
    · exact .keeps rfl rfl
  | resume =>
    simp only [perform, resume]
    split
    · next hstate =>
      refine .resumes hstate ?_
      rw [moveFrom_eq _ _ hstate rfl]
      rfl
    · exact .unasks rfl
    · exact .unasks rfl
    · exact .unasks rfl
  | stop =>
    simp only [perform, stop]
    split
    · next hactive =>
      have hallows : p.state.allows .stopped = true := by
        cases hstate : p.state <;> rw [hstate] at hactive <;> first | rfl | cases hactive
      refine .stops ?_
      have hallowed : { p with stopRequested := true }.state.allows .stopped = true := hallows
      rw [cancelRun_eq, moveIfAllowed_eq_ite, if_pos hallowed]
      rfl
    · exact .keeps rfl rfl
  | setSpeed speed =>
    simp only [perform, setSpeed]
    split <;> exact .keeps rfl rfl
  | assign name value =>
    have hbearing : (p.setVariable p.run name value).bearing = p.bearing := bearing_setVariable _ _
    exact .keeps (congrArg Bearing.state hbearing) (congrArg Bearing.pauseRequested hbearing)
  | unassignAll =>
    have hbearing := p.bearing_clearVariables p.run
    exact .keeps (congrArg Bearing.state hbearing) (congrArg Bearing.pauseRequested hbearing)
  | cancel | addBreakpoint | removeBreakpoint | clearBreakpoints => exact .keeps rfl rfl

end Player

/-- What is left in progress of a request that has made a step. -/
def Progress.tasks (id : Nat) : Progress → List Task
  | .goes phase => [⟨id, phase⟩]
  | _ => []

lemma Progress.mem_tasks {id : Nat} {progress : Progress} {t : Task} :
    t ∈ progress.tasks id ↔ t.id = id ∧ progress = .goes t.phase := by
  cases progress with
  | goes phase =>
    rw [tasks, List.mem_singleton]
    constructor
    · rintro rfl
      exact ⟨rfl, rfl⟩
    · rintro ⟨rfl, heq⟩
      cases heq
      rfl
  | blocked | ends => simp [tasks]

namespace Session

variable {s s' : Session} {a : Action} {id : Nat} {allowed : Action → Prop}

/-! ### Steps of requests -/

/-- A request has made a step that leads to `x` and leaves the others as they are. -/
structure Moved (s s' : Session) (t : Task) (x : Player × Progress) : Prop where
  step : s.player.step t.id t.phase = x
  ready : x.2 ≠ .blocked
  player : s'.player = x.1
  tasks : ∃ left right, s.tasks = left ++ t :: right ∧ s'.tasks = left ++ x.2.tasks t.id ++ right
  ended : s'.ended =
    match x.2 with
    | .ends answer => s.ended.push ⟨t.id, x.1.now, answer⟩
    | _ => s.ended

/-- Whoever goes on has made a step. -/
lemma Does.moved {n : Nat} (h : s.Does (.go n) s') : ∃ t x, t.id = n ∧ s.Moved s' t x := by
  cases h with
  | @goes t left right q phase htasks hstep =>
    exact ⟨t, _, rfl, hstep, Progress.noConfusion, rfl,
      ⟨left, right, htasks, by simp [Progress.tasks]⟩, rfl⟩
  | @ends t left right q answer htasks hstep =>
    exact ⟨t, _, rfl, hstep, Progress.noConfusion, rfl,
      ⟨left, right, htasks, by simp [Progress.tasks]⟩, rfl⟩

namespace Moved

variable {t u : Task} {x : Player × Progress}

lemma mem (h : s.Moved s' t x) : t ∈ s.tasks := by
  obtain ⟨left, right, htasks, -⟩ := h.tasks
  rw [htasks]
  exact List.mem_append_right _ List.mem_cons_self

/-- The others are still in progress. -/
lemma mem_of_ne (h : s.Moved s' t x) (hu : u ∈ s.tasks) (hne : u ≠ t) : u ∈ s'.tasks := by
  obtain ⟨left, right, htasks, htasks'⟩ := h.tasks
  rw [htasks, List.mem_append, List.mem_cons] at hu
  rw [htasks', List.mem_append, List.mem_append]
  rcases hu with hu | hu | hu
  · exact .inl (.inl hu)
  · exact absurd hu hne
  · exact .inr hu

/-- The request waits for something else. -/
lemma mem_next {next : Phase} (h : s.Moved s' t x) (hnext : x.2 = .goes next) :
    ⟨t.id, next⟩ ∈ s'.tasks := by
  obtain ⟨left, right, -, htasks'⟩ := h.tasks
  rw [htasks', List.mem_append, List.mem_append]
  exact .inl (.inr (Progress.mem_tasks.mpr ⟨rfl, hnext⟩))

/-- What is in progress after a step is one of the others or what is left of the request. -/
lemma cases (h : s.Moved s' t x) (hs : s.Distinct) (hu : u ∈ s'.tasks) :
    (u ∈ s.tasks ∧ u.id ≠ t.id) ∨ u.id = t.id ∧ x.2 = .goes u.phase := by
  obtain ⟨left, right, htasks, htasks'⟩ := h.tasks
  rw [htasks', List.mem_append, List.mem_append, Progress.mem_tasks] at hu
  rcases hu with (hu | hu) | hu
  · refine .inl ⟨?_, hs.ne htasks (List.mem_append_left _ hu)⟩
    rw [htasks]
    exact List.mem_append_left _ hu
  · exact .inr hu
  · refine .inl ⟨?_, hs.ne htasks (List.mem_append_right _ hu)⟩
    rw [htasks]
    exact List.mem_append_right _ (List.mem_cons_of_mem _ hu)

/-- The answers to other requests stay what they are. -/
lemma answer?_of_ne {n : Nat} (h : s.Moved s' t x) (hne : t.id ≠ n) :
    s'.answer? n = s.answer? n := by
  have hended := h.ended
  unfold answer?
  split at hended
  · rw [hended, Array.find?_push]
    simp [hne]
  · rw [hended]

/-- A request that goes on has no answer yet. -/
lemma answer?_of_goes {n : Nat} {next : Phase} (h : s.Moved s' t x) (hnext : x.2 = .goes next) :
    s'.answer? n = s.answer? n := by
  have hended := h.ended
  rw [hnext] at hended
  unfold answer?
  rw [hended]

/-- A request that has ended has its answer. -/
lemma answer?_of_ends {answer : Answer} (h : s.Moved s' t x) (hends : x.2 = .ends answer)
    (hnone : s.answer? t.id = none) : s'.answer? t.id = some answer := by
  have hended := h.ended
  rw [hends] at hended
  unfold answer? at hnone ⊢
  rw [Option.map_eq_none_iff] at hnone
  rw [hended, Array.find?_push, hnone]
  simp

end Moved

/-! ### Runs of sessions -/

/-- Some action of a kind is done. -/
def May (allowed : Action → Prop) (s s' : Session) : Prop := ∃ a, allowed a ∧ s.Does a s'

/-- Any number of actions of a kind are done, in any order. -/
def Evolves (allowed : Action → Prop) : Session → Session → Prop :=
  Relation.ReflTransGen (May allowed)

namespace Evolves

lemma tail (h : s.Evolves allowed s') (ha : allowed a) {s'' : Session} (hdoes : s'.Does a s'') :
    s.Evolves allowed s'' :=
  Relation.ReflTransGen.tail h ⟨a, ha, hdoes⟩

/-- A request may have its turn at any time. -/
lemma turn (h : s.Evolves allowed s') (hgo : ∀ id, allowed (.go id)) (n : Nat) :
    s.Evolves allowed (s'.turn n) := by
  rcases s'.turn_eq_or_does n with heq | ⟨t, -, hdoes⟩
  · rw [heq]
    exact h
  · exact h.tail (hgo t.id) hdoes

end Evolves

/-- Requests that are made beside a playback execute a line or move the cursor. -/
def Beside (id : Nat) : Action → Prop
  | .submit n r => n ≠ id ∧ (Phase.entering r).isSide = true
  | _ => True

/-- A session in which nothing is in progress but a request to play, with a player that is not
playing. -/
structure Opening (id : Nat) (s : Session) : Prop where
  tasks : ∃ request, s.tasks = [⟨id, .entering request⟩] ∧
    (Phase.entering request).isEarly = true
  token : s.player.token = none
  idle : s.player.state.isUnderway = false
  unanswered : s.answer? id = none

/-- A session with one playback, in order. -/
structure Solo (id : Nat) (s : Session) : Prop where
  distinct : s.Distinct
  playback : ∀ t ∈ s.tasks, t.id = id → t.phase.isPlayback = true
  side : ∀ t ∈ s.tasks, t.id ≠ id → t.phase.isSide = true
  /-- Who executes a line has the line lock. -/
  held : ∀ t ∈ s.tasks, ∀ line, t.phase.line? = some line →
    s.player.lineLock.isHeldBy t.id = true
  /-- The state is `waiting` for a command in flight. -/
  waiting : s.player.state = .waiting →
    ∃ t ∈ s.tasks, ∃ line, t.phase.line? = some line ∧ line.entered = true
  /-- A playback that has not come to its lines cannot be paused, and there is none to step in
  before it has the gate. -/
  early : ∀ t ∈ s.tasks, t.phase.isEarly = true →
    s.player.state.isUnderway = false ∧ (t.phase.isFresh = true → s.player.token = none)
  /-- No line is in flight before. -/
  unlined : ∀ t ∈ s.tasks, t.phase.isEarly = true → ∀ u ∈ s.tasks, u.phase.line? = none
  /-- The playback goes by its token. -/
  token : ∀ t ∈ s.tasks, ∀ token, t.phase.token? = some token → s.player.token = some token
  unanswered : (∃ t ∈ s.tasks, t.id = id) → s.answer? id = none
  /-- After its end there is no playback to step in. -/
  finished : (∀ t ∈ s.tasks, t.id ≠ id) → s.player.token = none

namespace Solo

/-- A session is in order when a playback is requested. -/
lemma of_opening (h : s.Opening id) : s.Solo id := by
  obtain ⟨request, htasks, hearly⟩ := h.tasks
  have hmem : ∀ t ∈ s.tasks, t = ⟨id, .entering request⟩ := fun t ht => by
    rw [htasks] at ht
    exact List.mem_singleton.mp ht
  refine
    { distinct := by simp [Distinct, htasks]
      playback := fun t ht _ => ?_
      side := fun t ht hne => absurd (congrArg Task.id (hmem t ht)) hne
      held := fun t ht line hline => ?_
      waiting := fun hstate => ?_
      early := fun t ht _ => ⟨h.idle, fun _ => h.token⟩
      unlined := fun t ht _ u hu => by rw [hmem u hu]; exact Phase.line?_of_isEarly hearly
      token := fun t ht token htoken => by rw [hmem t ht] at htoken; cases htoken
      unanswered := fun _ => h.unanswered
      finished := fun _ => h.token }
  · rw [hmem t ht]
    exact Phase.isPlayback_of_isEarly hearly
  · rw [hmem t ht, Phase.line?_of_isEarly hearly] at hline
    cases hline
  · have hidle := h.idle
    rw [hstate] at hidle
    cases hidle

variable {t u : Task} {line : LinePhase} {left right : List Task}

/-- There is at most one line in flight. -/
lemma eq_of_line (h : s.Solo id) (ht : t ∈ s.tasks) (hu : u ∈ s.tasks)
    (hheld : s.player.lineLock.isHeldBy t.id = true) (hline : u.phase.line? = some line) :
    u = t := by
  have hid : u.id = t.id := Lock.isHeldBy_unique (h.held u hu line hline) hheld
  exact List.inj_on_of_nodup_map h.distinct hu ht hid

/-- If the state is `waiting`, it was changed for the line in flight. -/
lemma entered (h : s.Solo id) (ht : t ∈ s.tasks) (hline : t.phase.line? = some line)
    (hstate : s.player.state = .waiting) : line.entered = true := by
  obtain ⟨u, hu, line', hline', hentered⟩ := h.waiting hstate
  have heq := h.eq_of_line ht hu (h.held t ht line hline) hline'
  rw [heq, hline] at hline'
  rw [Option.some.inj hline']
  exact hentered

/-- Every request in progress belongs to the playback or is made beside it. -/
lemma role (h : s.Solo id) (ht : t ∈ s.tasks) :
    t.phase.isPlayback = true ∨ t.phase.isSide = true := by
  by_cases hid : t.id = id
  · exact .inl (h.playback t ht hid)
  · exact .inr (h.side t ht hid)

/-- A request in progress makes orderly steps. -/
lemma orderly (h : s.Solo id) (ht : t ∈ s.tasks)
    (hstep : (s.player.step t.id t.phase).2 ≠ .blocked) :
    Player.Orderly t.id s.player t.phase (s.player.step t.id t.phase) :=
  Player.orderly_step (h.role ht) (h.early t ht) (h.token t ht) (h.held t ht)
    (fun _ hline hstate => h.entered ht hline hstate) hstep

/-- A call leaves a session in order. -/
lemma call (h : s.Solo id) (c : Call) : Solo id { s with player := s.player.perform c } := by
  have hspared := Player.spared_perform (p := s.player) (c := c)
  have hstays := s.player.stays_perform c
  have hsteers := Player.steers_perform (p := s.player) (c := c)
  obtain ⟨q, hq⟩ : ∃ q, q = s.player.perform c := ⟨_, rfl⟩
  rw [← hq] at hspared hstays hsteers ⊢
  refine
    { distinct := h.distinct
      playback := h.playback
      side := h.side
      held := fun t ht line hline => ?_
      waiting := fun hstate => h.waiting ?_
      early := fun t ht hearly => ?_
      unlined := h.unlined
      token := fun t ht token htoken => hspared.token.trans (h.token t ht token htoken)
      unanswered := h.unanswered
      finished := fun hgone => hspared.token.trans (h.finished hgone) }
  · have hheld := h.held t ht line hline
    rw [← hspared.lock] at hheld
    exact hheld
  · have hwaiting : q.state = .waiting := hstate
    cases hsteers with
    | asks hold => exact hold
    | unasks heq | keeps heq => exact heq.symm.trans hwaiting
    | pauses _ heq | resumes _ heq | stops heq =>
      rw [heq] at hwaiting
      cases hwaiting
  · obtain ⟨hidle, htoken⟩ := h.early t ht hearly
    refine ⟨?_, fun hfresh => hspared.token.trans (htoken hfresh)⟩
    by_contra hne
    have hunder := hstays.state (Bool.not_eq_false _ ▸ hne)
    rw [hidle] at hunder
    cases hunder

/-- A step of a request leaves a session in order. -/
lemma go {n : Nat} (h : s.Solo id) (hdoes : s.Does (.go n) s') : s'.Solo id := by
  obtain ⟨t, x, -, hmoved⟩ := hdoes.moved
  have ht := hmoved.mem
  have horderly : Player.Orderly t.id s.player t.phase x := by
    rw [← hmoved.step]
    exact h.orderly ht (hmoved.step ▸ hmoved.ready)
  have hcases : ∀ u ∈ s'.tasks, (u ∈ s.tasks ∧ u.id ≠ t.id) ∨ u.id = t.id ∧ x.2 = .goes u.phase :=
    fun u hu => hmoved.cases h.distinct hu
  refine
    { distinct := hdoes.distinct h.distinct
      playback := fun u hu hid => ?_
      side := fun u hu hid => ?_
      held := fun u hu line hline => ?_
      waiting := fun hstate => ?_
      early := fun u hu hearly => ?_
      unlined := fun u hu hearly v hv => ?_
      token := fun u hu token htoken => ?_
      unanswered := fun hu => ?_
      finished := fun hgone => ?_ }
  · rcases hcases u hu with ⟨hold, -⟩ | ⟨hut, hgoes⟩
    · exact h.playback u hold hid
    · rw [(horderly.role _ hgoes).2]
      exact h.playback t ht (hut ▸ hid)
  · rcases hcases u hu with ⟨hold, -⟩ | ⟨hut, hgoes⟩
    · exact h.side u hold hid
    · rw [(horderly.role _ hgoes).1]
      exact h.side t ht (hut ▸ hid)
  · rw [hmoved.player]
    rcases hcases u hu with ⟨hold, hne⟩ | ⟨hut, hgoes⟩
    · exact horderly.others u.id hne (h.held u hold line hline)
    · rw [hut]
      exact horderly.held _ line hgoes hline
  · rw [hmoved.player] at hstate
    rcases horderly.waiting hstate with ⟨hwas, hunlined⟩ | ⟨next, line, hgoes, hline, hentered⟩
    · -- The line in flight belongs to another request, which has made no step.
      obtain ⟨u, hu, line, hline, hentered⟩ := h.waiting hwas
      have hne : u ≠ t := by
        rintro rfl
        rw [hunlined] at hline
        cases hline
      exact ⟨u, hmoved.mem_of_ne hu hne, line, hline, hentered⟩
    · exact ⟨_, hmoved.mem_next hgoes, line, hline, hentered⟩
  · rw [hmoved.player]
    rcases hcases u hu with ⟨hold, hne⟩ | ⟨hut, hgoes⟩
    · -- The playback has made no step, so that it was a request beside it.
      have hid : u.id = id := by
        by_contra hid
        have hside := h.side u hold hid
        rw [Phase.isSide_of_isPlayback (Phase.isPlayback_of_isEarly hearly)] at hside
        cases hside
      obtain ⟨hunder, htoken⟩ := horderly.side (h.side t ht (hid ▸ hne.symm))
      obtain ⟨hidle, hfresh⟩ := h.early u hold hearly
      refine ⟨?_, fun hf => htoken.trans (hfresh hf)⟩
      by_contra hnot
      have hwas := hunder (Bool.not_eq_false _ ▸ hnot)
      rw [hidle] at hwas
      cases hwas
    · exact (horderly.early _ hgoes hearly).2
  · -- The playback was early before, so that no line was in flight and none could be begun.
    have hearly' : ∃ w ∈ s.tasks, w.phase.isEarly = true := by
      rcases hcases u hu with ⟨hold, -⟩ | ⟨-, hgoes⟩
      · exact ⟨u, hold, hearly⟩
      · exact ⟨t, ht, (horderly.early _ hgoes hearly).1⟩
    obtain ⟨w, hw, hwearly⟩ := hearly'
    rcases hcases v hv with ⟨hold, -⟩ | ⟨-, hgoes⟩
    · exact h.unlined w hw hwearly v hold
    · cases hline : v.phase.line? with
      | none => rfl
      | some line =>
        rcases horderly.lined _ line hgoes hline with hlined | hunder
        · exact absurd (h.unlined w hw hwearly t ht) hlined
        · rw [(h.early w hw hwearly).1] at hunder
          cases hunder
  · rw [hmoved.player]
    rcases hcases u hu with ⟨hold, hne⟩ | ⟨hut, hgoes⟩
    · have hid : u.id = id := by
        by_contra hid
        rw [Phase.token?_of_isSide (h.side u hold hid)] at htoken
        cases htoken
      have hkept := (horderly.side (h.side t ht (hid ▸ hne.symm))).2
      exact hkept.trans (h.token u hold token htoken)
    · exact horderly.token (h.token t ht) _ token hgoes htoken
  · obtain ⟨u, hu, hid⟩ := hu
    rcases hcases u hu with ⟨hold, hne⟩ | ⟨hut, hgoes⟩
    · rw [hmoved.answer?_of_ne (hid ▸ hne.symm)]
      exact h.unanswered ⟨u, hold, hid⟩
    · rw [hmoved.answer?_of_goes hgoes]
      exact h.unanswered ⟨t, ht, hut.symm.trans hid⟩
  · rw [hmoved.player]
    by_cases hid : t.id = id
    · -- The playback has made a step and does not go on, so that it has ended.
      cases hprogress : x.2 with
      | blocked => exact absurd hprogress hmoved.ready
      | goes next => exact absurd hid (hgone ⟨t.id, next⟩ (hmoved.mem_next hprogress))
      | ends answer => exact horderly.ending (h.playback t ht hid) answer hprogress
    · refine (horderly.side (h.side t ht hid)).2.trans (h.finished fun u hu => ?_)
      by_cases hut : u = t
      · rw [hut]
        exact hid
      · exact hgone u (hmoved.mem_of_ne hu hut)

/-- Whatever happens beside the playback leaves a session in order. -/
lemma does (h : s.Solo id) (ha : Beside id a) (hdoes : s.Does a s') : s'.Solo id := by
  cases a with
  | submit n r =>
    have hdistinct := hdoes.distinct h.distinct
    obtain ⟨hne, hside⟩ := ha
    cases hdoes with
    | submit =>
      have hmem : ∀ u ∈ (s.submit n r).tasks, u ∈ s.tasks ∨ u = ⟨n, .entering r⟩ := fun u hu =>
        (List.mem_append.mp hu).imp_right List.mem_singleton.mp
      have hplayback := Phase.isPlayback_of_isSide hside
      refine
        { distinct := hdistinct
          playback := fun u hu hid => ?_
          side := fun u hu hid => ?_
          held := fun u hu line hline => ?_
          waiting := fun hstate => ?_
          early := fun u hu hearly => ?_
          unlined := fun u hu hearly v hv => ?_
          token := fun u hu token htoken => ?_
          unanswered := fun hu => ?_
          finished := fun hgone => h.finished fun u hu => hgone u (List.mem_append_left _ hu) }
      · rcases hmem u hu with hu | rfl
        · exact h.playback u hu hid
        · exact absurd hid hne
      · rcases hmem u hu with hu | rfl
        · exact h.side u hu hid
        · exact hside
      · rcases hmem u hu with hu | rfl
        · exact h.held u hu line hline
        · cases hline
      · obtain ⟨u, hu, hline⟩ := h.waiting hstate
        exact ⟨u, List.mem_append_left _ hu, hline⟩
      · rcases hmem u hu with hu | rfl
        · exact h.early u hu hearly
        · rw [Phase.isPlayback_of_isEarly hearly] at hplayback
          cases hplayback
      · rcases hmem u hu with hu | rfl
        · rcases hmem v hv with hv | rfl
          · exact h.unlined u hu hearly v hv
          · rfl
        · rw [Phase.isPlayback_of_isEarly hearly] at hplayback
          cases hplayback
      · rcases hmem u hu with hu | rfl
        · exact h.token u hu token htoken
        · cases htoken
      · obtain ⟨u, hu, hid⟩ := hu
        rcases hmem u hu with hu | rfl
        · exact h.unanswered ⟨u, hu, hid⟩
        · exact absurd hid hne
  | call c =>
    cases hdoes
    exact h.call c
  | go n => exact h.go hdoes
  | wait now =>
    cases hdoes
    exact ⟨h.distinct, h.playback, h.side, h.held, h.waiting, h.early, h.unlined, h.token,
      h.unanswered, h.finished⟩

/-- A session stays in order as long as nothing but requests beside the playback are made. -/
lemma evolves (h : s.Solo id) (hs : s.Evolves (Beside id) s') : s'.Solo id := by
  induction hs with
  | refl => exact h
  | tail _ hmay ih =>
    obtain ⟨a, ha, hdoes⟩ := hmay
    exact ih.does ha hdoes

end Solo

end Session

end Recital

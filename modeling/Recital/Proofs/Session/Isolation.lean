import Recital.Proofs.Session.Ownership
import Recital.Proofs.Session.Outcome

/-!
# Playbacks are isolated

Any number of playbacks are requested of one player, and beside them single steps, resets, shutdowns
and calls, in any order and with any interleaving of their steps.  The gate keeps the playbacks
apart: who is in progress has it, and goes by its token (`Guarded`).  A single step, however, takes
the line lock only, so that a line that it executes may outlast its playback.  Where no step is
executing its line when a request passes the gate (`Clear`), each line that is in flight is one of
the present playback, and a playback finds everything as it was asked to start, as long as none of
its own lines was executed.
-/

namespace Recital

namespace Player

variable {p : Player} {id : Nat} {phase : Phase} {token : Token}

/-- Who has passed the gate to play or to reset is in no playback yet. -/
lemma Enters.unlined (h : Enters id p phase) : phase.line? = none ∧ phase.token? = none := by
  cases phase with
  | playGate | resetGate => exact ⟨rfl, rfl⟩
  | _ => exact h.elim

lemma Enters.held (h : Enters id p phase) : p.gate.isHeldBy id = true := by
  cases phase with
  | playGate | resetGate => exact h
  | _ => exact h.elim

/-- Where there is no playback under way, a request that belongs to none executes no line. -/
lemma execution?_of_idle (id : Nat) (hstate : p.state = .idle) (hline : phase.line? = none)
    (htoken : phase.token? = none) : p.execution? id phase = none := by
  cases phase with
  | playing | stepping => cases hline
  | playLock => cases htoken
  | stepLock =>
    have hrefusal : p.stepRefusal? "step forward" ≠ none := by
      unfold stepRefusal?
      rw [hstate]
      exact Option.some_ne_none _
    simp only [execution?]
    rw [if_neg fun h => hrefusal h.2]
  | _ => rfl

/-- A player that has nothing left of any playback stays so through calls. -/
lemma Blank.perform {c : Call} (h : p.Blank) : (p.perform c).Blank := by
  have hestate := estate_perform (p := p) (c := c)
  have hidle : p.state.isActive = false := by rw [h.state]; rfl
  exact ⟨(state_perform_of_inactive hidle).trans h.state,
    (congrArg Estate.place hestate).trans h.place, (congrArg Estate.lines hestate).trans h.lines,
    (congrArg Estate.commands hestate).trans h.commands,
    (congrArg Estate.deferred hestate).trans h.deferred,
    (congrArg Estate.spent hestate).trans h.spent,
    (congrArg Place.checkpoint (p.stays_perform c).place).trans h.checkpoint⟩

lemma Blank.aside {x : Player × Progress} (h : p.Blank) (hx : Aside id p x) : x.1.Blank :=
  ⟨hx.idle h.state, (congrArg Estate.place hx.estate).trans h.place,
    (congrArg Estate.lines hx.estate).trans h.lines,
    (congrArg Estate.commands hx.estate).trans h.commands,
    (congrArg Estate.deferred hx.estate).trans h.deferred,
    (congrArg Estate.spent hx.estate).trans h.spent, hx.checkpoint.trans h.checkpoint⟩

/-- The playback of a script stands where it was asked to start, with nothing left over for it. -/
structure Stands (token : Token) (script : Script) (start : Start) (p : Player) : Prop where
  run : p.run = .numbered token.id
  place : p.context.bare = (start.opening script).bare
  lines : p.context.linesExecuted = (start.opening script).linesExecuted
  commands : p.context.commandsExecuted = (start.opening script).commandsExecuted
  deferred : p.deferred = none
  spent : p.spent = {}

namespace Stands

variable {q : Player} {script : Script} {start : Start} {bound : Bool}

lemma of_estate (h : p.Stands token script start)
    (hestate : q.estate = { p.estate with gate := q.gate }) :
    q.Stands token script start :=
  ⟨(congrArg Estate.run hestate).trans h.run, (congrArg Estate.place hestate).trans h.place,
    (congrArg Estate.lines hestate).trans h.lines,
    (congrArg Estate.commands hestate).trans h.commands,
    (congrArg Estate.deferred hestate).trans h.deferred,
    (congrArg Estate.spent hestate).trans h.spent⟩

/-- A playback that has just started. -/
lemma of_opening (hestate : q.estate = p.opening script start bound)
    (htoken : q.token = some token) :
    q.Stands token script start := by
  cases (congrArg Estate.token hestate).symm.trans htoken
  exact ⟨congrArg Estate.run hestate, congrArg Estate.place hestate, congrArg Estate.lines hestate,
    congrArg Estate.commands hestate, congrArg Estate.deferred hestate,
    congrArg Estate.spent hestate⟩

lemma loaded (h : p.Stands token script start) : p.context.script = some script := by
  rw [Context.script_of_bare h.place]
  exact startAt_script

end Stands

/-- The checkpoint is set when a playback comes to its lines. -/
lemma checkpoint_step {next : Phase} (hearly : phase.isEarly = true)
    (htoken : phase.token? = some token) (hloaded : p.context.script.isSome = true)
    (hnext : (p.step id phase).2 = .goes next) :
    ∃ c, (p.step id phase).1.recovery.checkpoint = some c ∧ c.StandsAt p.context := by
  cases phase with
  | preloading _ run script until_ =>
    simp only [step] at hnext ⊢
    split at hnext
    · next hready =>
      rw [if_pos hready]
      exact lulls_startLines.2 hloaded next hnext
    · cases hnext
  | entering | loading | playGate => cases htoken
  | _ => cases hearly

end Player

namespace Session

variable {s s' s₁ s₂ : Session} {a : Action} {t u : Task} {x : Player × Progress}
  {allowed : Session → Action → Prop} {token : Token} {script : Script} {start : Start}
    {bound : Bool}

/-! ### What may happen to a player -/

/-- The sessions that are reached by what is allowed, each time, in the session. -/
def Reaches (allowed : Session → Action → Prop) : Session → Session → Prop :=
  Relation.ReflTransGen fun s s' => ∃ a, allowed s a ∧ s.Does a s'

/-- Requests to play, to step, to reset and to shut down are made, and any calls.  No single step is
executing its line when a request passes the gate to play or to reset. -/
def Clear (s : Session) : Action → Prop
  | .submit _ r => (Phase.entering r).isRegular = true
  | .go id => ∀ t ∈ s.tasks, t.id = id → Player.Enters id s.player t.phase →
    ∀ u ∈ s.tasks, ∀ line, u.phase ≠ .stepping line
  | _ => True

/-- No line is executed. -/
def Lull (s : Session) : Action → Prop
  | .go id => s.Clear (.go id) ∧ ∀ t ∈ s.tasks, t.id = id → s.player.execution? id t.phase = none
  | a => s.Clear a

/-- No playback passes the gate. -/
def Shut (s : Session) : Action → Prop
  | .go id => s.Clear (.go id) ∧ ∀ t ∈ s.tasks, t.id = id → ∀ script start bound,
    t.phase = .playGate script start bound → ¬ Player.Enters id s.player t.phase
  | a => s.Clear a

lemma Lull.clear (h : s.Lull a) : s.Clear a := by
  cases a with
  | go => exact h.1
  | submit | call | wait => exact h

lemma Shut.clear (h : s.Shut a) : s.Clear a := by
  cases a with
  | go => exact h.1
  | submit | call | wait => exact h

/-- What a request does that has the gate: it starts a playback, or it resets the player. -/
lemma Moved.enters (h : s.Moved s' t x) (henters : Player.Enters t.id s.player t.phase) :
    (∃ script start bound, t.phase = .playGate script start bound ∧
        s.player.Inherits script start bound x) ∨
      t.phase = .resetGate ∧ x = s.player.resetAll := by
  have hheld := henters.held
  have hstep := h.step
  cases hphase : t.phase with
  | playGate script start bound =>
    rw [hphase] at hstep
    simp only [Player.step] at hstep
    rw [if_pos hheld] at hstep
    exact .inl ⟨script, start, bound, rfl, hstep ▸ Player.inherits_beginPlay⟩
  | resetGate =>
    rw [hphase] at hstep
    simp only [Player.step] at hstep
    rw [if_pos hheld] at hstep
    exact .inr ⟨rfl, hstep.symm⟩
  | _ =>
    rw [hphase] at henters
    exact henters.elim

/-! ### Who is guarded by the gate -/

/-- The playback in progress has the gate, and every line in flight is one of it. -/
structure Guarded (s : Session) : Prop where
  distinct : s.Distinct
  regular : ∀ t ∈ s.tasks, t.phase.isRegular = true
  /-- Who plays has the gate and goes by the token. -/
  own : ∀ t ∈ s.tasks, ∀ T, t.phase.token? = some T →
    s.player.gate.isHeldBy t.id = true ∧ s.player.token = some T
  /-- There is a token for a playback in progress only. -/
  owner : ∀ T, s.player.token = some T → ∃ t ∈ s.tasks, t.phase.token? = some T
  /-- Every line in flight is one of the playback in progress, if there is one. -/
  lines : ∀ t ∈ s.tasks, ∀ line, t.phase.line? = some line →
    s.player.context.script.isSome = true ∧ ∀ T, s.player.token = some T → line.work.token = T
  /-- No token is given twice. -/
  serial : ∀ T, s.player.token = some T → T.id < s.player.serial

namespace Guarded

/-- A new player has nothing to guard. -/
lemma created {host : Host} {bus : Bus} {store : Option Store} :
    Guarded { player := .create host bus store } where
  distinct := List.nodup_nil
  regular t ht := absurd ht List.not_mem_nil
  own t ht := absurd ht List.not_mem_nil
  owner T hT := by cases hT
  lines t ht := absurd ht List.not_mem_nil
  serial T hT := by cases hT

/-- When a request passes the gate, no playback is in progress. -/
lemma untokened (h : s.Guarded) (ht : t ∈ s.tasks) (henters : Player.Enters t.id s.player t.phase) :
    ∀ u ∈ s.tasks, u.phase.token? = none := by
  intro u hu
  cases hT : u.phase.token? with
  | none => rfl
  | some T =>
    have hid : u.id = t.id := Lock.isHeldBy_unique (h.own u hu T hT).1 henters.held
    have heq : u = t := List.inj_on_of_nodup_map h.distinct hu ht hid
    rw [heq, henters.unlined.2] at hT
    cases hT

lemma token_of_enters (h : s.Guarded) (ht : t ∈ s.tasks)
    (henters : Player.Enters t.id s.player t.phase) : s.player.token = none := by
  cases hT : s.player.token with
  | none => rfl
  | some T =>
    obtain ⟨u, hu, hown⟩ := h.owner T hT
    rw [h.untokened ht henters u hu] at hown
    cases hown

/-- When a request passes the gate, no line is in flight. -/
lemma unlined (h : s.Guarded) (ht : t ∈ s.tasks) (henters : Player.Enters t.id s.player t.phase)
    (hclear : s.Clear (.go t.id)) : ∀ u ∈ s.tasks, u.phase.line? = none := by
  intro u hu
  have hnone := h.untokened ht henters u hu
  have hstep := hclear t ht rfl henters u hu
  cases hphase : u.phase with
  | playing play line =>
    rw [hphase] at hnone
    cases hnone
  | stepping line => exact absurd hphase (hstep line)
  | _ => rfl

/-- A request that waits for the gate goes on when it has it. -/
lemma enters_of_does (h : s.Guarded) (ht : t ∈ s.tasks) (hdoes : s.Does (.go t.id) s')
    (hphase : t.phase = .resetGate ∨ ∃ script start bound, t.phase = .playGate script start bound) :
    ∃ x, s.Moved s' t x ∧ Player.Enters t.id s.player t.phase := by
  obtain ⟨u, x, hid, hmoved⟩ := hdoes.moved
  obtain rfl : u = t := List.inj_on_of_nodup_map h.distinct hmoved.mem ht hid
  refine ⟨x, hmoved, ?_⟩
  have hready : (s.player.step u.id u.phase).2 ≠ .blocked := hmoved.step ▸ hmoved.ready
  rcases hphase with hreset | ⟨script, start, bound, hplay⟩
  · rw [hreset] at hready ⊢
    simp only [Player.step] at hready
    have hheld := Player.holds_of_ready hready
    exact hheld
  · rw [hplay] at hready ⊢
    simp only [Player.step] at hready
    have hheld := Player.holds_of_ready hready
    exact hheld

/-- A step that lets no request pass the gate. -/
lemma keeps (h : s.Guarded) (hmoved : s.Moved s' t x)
    (hgate : ¬ Player.Enters t.id s.player t.phase) :
    Player.Keeps t.id s.player t.phase x := by
  have hready : (s.player.step t.id t.phase).2 ≠ .blocked := hmoved.step ▸ hmoved.ready
  rw [← hmoved.step]
  exact Player.keeps_step t.id (h.regular t hmoved.mem) (h.own t hmoved.mem) (h.lines t hmoved.mem)
    hgate hready

/-- A step that lets no request pass the gate leaves the session guarded. -/
lemma of_keeps (h : s.Guarded) (hdistinct : s'.Distinct) (hmoved : s.Moved s' t x)
    (hx : Player.Keeps t.id s.player t.phase x) : s'.Guarded := by
  have ht := hmoved.mem
  have hcases : ∀ u ∈ s'.tasks, (u ∈ s.tasks ∧ u.id ≠ t.id) ∨ u.id = t.id ∧ x.2 = .goes u.phase :=
    fun u hu => hmoved.cases h.distinct hu
  have htoken : ∀ T, x.1.token = some T → s.player.token = some T := fun T hT => by
    rcases hx.token with hsame | ⟨hnone, -⟩
    · exact hsame.symm.trans hT
    · rw [hnone] at hT
      cases hT
  refine
    { distinct := hdistinct
      regular := fun u hu => ?_
      own := fun u hu T hT => ?_
      owner := fun T hT => ?_
      lines := fun u hu line hline => ?_
      serial := fun T hT => ?_ }
  · rcases hcases u hu with ⟨hold, -⟩ | ⟨-, hgoes⟩
    · exact h.regular u hold
    · exact hx.regular _ hgoes
  · rw [hmoved.player]
    rcases hcases u hu with ⟨hold, hne⟩ | ⟨hid, hgoes⟩
    · obtain ⟨hheld, hsome⟩ := h.own u hold T hT
      refine ⟨hx.gate.isHeldBy hheld hne, ?_⟩
      rcases hx.token with hsame | ⟨-, hother⟩
      · exact hsame.trans hsome
      · exact absurd (Lock.isHeldBy_unique hheld hother) hne
    · obtain ⟨hheld, hsome⟩ := hx.own _ T hgoes hT
      exact ⟨hid ▸ hheld, hsome⟩
  · rw [hmoved.player] at hT
    obtain ⟨u, hu, hown⟩ := h.owner T (htoken T hT)
    by_cases heq : u = t
    · obtain ⟨hgoes, hends⟩ := hx.owner T (heq ▸ hown)
      cases hprogress : x.2 with
      | blocked => exact absurd hprogress hmoved.ready
      | goes next => exact ⟨_, hmoved.mem_next hprogress, hgoes next hprogress⟩
      | ends answer =>
        rw [hends answer hprogress] at hT
        cases hT
    · exact ⟨u, hmoved.mem_of_ne hu heq, hown⟩
  · rw [hmoved.player]
    rcases hcases u hu with ⟨hold, -⟩ | ⟨-, hgoes⟩
    · obtain ⟨hloaded, hwork⟩ := h.lines u hold line hline
      exact ⟨hx.loaded hloaded, fun T hT => hwork T (htoken T hT)⟩
    · exact hx.line _ line hgoes hline
  · rw [hmoved.player] at hT ⊢
    exact Nat.lt_of_lt_of_le (h.serial T (htoken T hT)) hx.serial

/-- A request that has passed the gate leaves the session guarded: it has started a playback, or it
has ended and the gate is open. -/
lemma of_enters (h : s.Guarded) (hdistinct : s'.Distinct) (hmoved : s.Moved s' t x)
    (henters : Player.Enters t.id s.player t.phase) (hclear : s.Clear (.go t.id))
    (hserial : ∀ T, x.1.token = some T → T.id < x.1.serial)
    (hgoes : ∀ next, x.2 = .goes next → next.line? = none ∧ ∃ T, next.token? = some T ∧
      x.1.gate.isHeldBy t.id = true ∧ x.1.token = some T)
    (hends : ∀ answer, x.2 = .ends answer → x.1.token = none) : s'.Guarded := by
  have ht := hmoved.mem
  have huntokened := h.untokened ht henters
  have hunlined := h.unlined ht henters hclear
  have hcases : ∀ u ∈ s'.tasks, (u ∈ s.tasks ∧ u.id ≠ t.id) ∨ u.id = t.id ∧ x.2 = .goes u.phase :=
    fun u hu => hmoved.cases h.distinct hu
  refine
    { distinct := hdistinct
      regular := fun u hu => ?_
      own := fun u hu T hT => ?_
      owner := fun T hT => ?_
      lines := fun u hu line hline => ?_
      serial := fun T hT => ?_ }
  · rcases hcases u hu with ⟨hold, -⟩ | ⟨-, hnext⟩
    · exact h.regular u hold
    · obtain ⟨-, T, hT, -⟩ := hgoes _ hnext
      exact Phase.isRegular_of_isPlayback (Phase.isPlayback_of_token? hT)
  · rcases hcases u hu with ⟨hold, -⟩ | ⟨hid, hnext⟩
    · rw [huntokened u hold] at hT
      cases hT
    · obtain ⟨-, T', hT', hheld, hsome⟩ := hgoes _ hnext
      cases hT'.symm.trans hT
      rw [hmoved.player, hid]
      exact ⟨hheld, hsome⟩
  · rw [hmoved.player] at hT
    cases hprogress : x.2 with
    | blocked => exact absurd hprogress hmoved.ready
    | goes next =>
      obtain ⟨-, T', hT', -, hsome⟩ := hgoes next hprogress
      cases hsome.symm.trans hT
      exact ⟨_, hmoved.mem_next hprogress, hT'⟩
    | ends answer =>
      rw [hends answer hprogress] at hT
      cases hT
  · rcases hcases u hu with ⟨hold, -⟩ | ⟨-, hnext⟩
    · rw [hunlined u hold] at hline
      cases hline
    · rw [(hgoes _ hnext).1] at hline
      cases hline
  · rw [hmoved.player] at hT ⊢
    exact hserial T hT

/-- Whatever passes the gate, the session is guarded. -/
lemma go {n : Nat} (h : s.Guarded) (hclear : s.Clear (.go n)) (hdoes : s.Does (.go n) s') :
    s'.Guarded := by
  have hdistinct := hdoes.distinct h.distinct
  obtain ⟨t, x, rfl, hmoved⟩ := hdoes.moved
  by_cases henters : Player.Enters t.id s.player t.phase
  · have hnone := h.token_of_enters hmoved.mem henters
    rcases hmoved.enters henters with ⟨script, start, bound, -, hinherits⟩ | ⟨-, hreset⟩
    · cases hinherits with
      | goes htoken hline hestate =>
        have hsome := congrArg Player.Estate.token hestate
        have hgate := congrArg Player.Estate.gate hestate
        have hserial := congrArg Player.Estate.serial hestate
        refine h.of_enters hdistinct hmoved henters hclear (fun T hT => ?_) (fun next hnext => ?_)
          fun answer hends => Progress.noConfusion hends
        · cases (hsome.symm.trans hT : some _ = some T)
          exact Nat.lt_of_lt_of_le (Nat.lt_succ_self _) (Nat.le_of_eq hserial.symm)
        · cases hnext
          exact ⟨hline, _, htoken, (congrArg (·.isHeldBy t.id) hgate).trans henters.held, hsome⟩
      | @ends q answer hgate hserial htoken =>
        have hended : q.token = none := htoken.elim id fun hsame => hsame.trans hnone
        refine h.of_enters hdistinct hmoved henters hclear (fun T hT => ?_)
          (fun next hnext => Progress.noConfusion hnext) fun answer hends => hended
        cases hended.symm.trans hT
    · obtain ⟨-, -, htoken, -, hdone⟩ := Player.resetAll_spec (p := s.player)
      rw [← hreset] at htoken hdone
      refine h.of_enters hdistinct hmoved henters hclear (fun T hT => ?_) (fun next hnext => ?_)
        fun answer hends => htoken.trans hnone
      · cases (htoken.trans hnone).symm.trans hT
      · cases hdone.symm.trans hnext
  · exact h.of_keeps hdistinct hmoved (h.keeps hmoved henters)

/-- Whatever happens, if it is clear, the session is guarded. -/
lemma does (h : s.Guarded) (hclear : s.Clear a) (hdoes : s.Does a s') : s'.Guarded := by
  cases a with
  | submit n r =>
    have hdistinct := hdoes.distinct h.distinct
    cases hdoes with
    | submit =>
      have hmem : ∀ u ∈ (s.submit n r).tasks, u ∈ s.tasks ∨ u = ⟨n, .entering r⟩ := fun u hu =>
        (List.mem_append.mp hu).imp_right List.mem_singleton.mp
      refine
        { distinct := hdistinct
          regular := fun u hu => ?_
          own := fun u hu T hT => ?_
          owner := fun T hT => ?_
          lines := fun u hu line hline => ?_
          serial := h.serial }
      · rcases hmem u hu with hu | rfl
        · exact h.regular u hu
        · exact hclear
      · rcases hmem u hu with hu | rfl
        · exact h.own u hu T hT
        · cases hT
      · obtain ⟨u, hu, hown⟩ := h.owner T hT
        exact ⟨u, List.mem_append_left _ hu, hown⟩
      · rcases hmem u hu with hu | rfl
        · exact h.lines u hu line hline
        · cases hline
  | call c =>
    cases hdoes with
    | call =>
      have hestate := Player.estate_perform (p := s.player) (c := c)
      have hgate : (s.player.perform c).gate = s.player.gate :=
        congrArg Player.Estate.gate hestate
      have htoken : (s.player.perform c).token = s.player.token :=
        congrArg Player.Estate.token hestate
      have hserial : (s.player.perform c).serial = s.player.serial :=
        congrArg Player.Estate.serial hestate
      have hscript : (s.player.perform c).context.script = s.player.context.script :=
        Context.script_of_bare (congrArg Player.Estate.place hestate)
      refine
        { distinct := h.distinct
          regular := h.regular
          own := fun u hu T hT => ?_
          owner := fun T hT => h.owner T (htoken.symm.trans hT)
          lines := fun u hu line hline => ?_
          serial := fun T hT => ?_ }
      · obtain ⟨hheld, hsome⟩ := h.own u hu T hT
        exact ⟨(congrArg (·.isHeldBy u.id) hgate).trans hheld, htoken.trans hsome⟩
      · obtain ⟨hloaded, hwork⟩ := h.lines u hu line hline
        exact ⟨(congrArg Option.isSome hscript).trans hloaded,
          fun T hT => hwork T (htoken.symm.trans hT)⟩
      · exact Nat.lt_of_lt_of_le (h.serial T (htoken.symm.trans hT)) (Nat.le_of_eq hserial.symm)
  | go n => exact h.go hclear hdoes
  | wait now =>
    cases hdoes with
    | wait => exact ⟨h.distinct, h.regular, h.own, h.owner, h.lines, h.serial⟩

/-- Every session that is reached is guarded. -/
lemma reaches (h : s.Guarded) (hs : s.Reaches Clear s') : s'.Guarded := by
  induction hs with
  | refl => exact h
  | tail _ hstep ih =>
    obtain ⟨a, hclear, hdoes⟩ := hstep
    exact ih.does hclear hdoes

end Guarded

/-! ### A playback before its first line -/

/-- The playback of a script stands where it was asked to start, and no line is in flight. -/
structure Standing (token : Token) (script : Script) (start : Start) (s : Session) : Prop where
  stands : s.player.Stands token script start
  unlined : ∀ t ∈ s.tasks, t.phase.line? = none
  /-- The checkpoint of a playback that has come to its lines stands where they begin. -/
  checkpoint : ∀ t ∈ s.tasks, t.phase.token? = some token → t.phase.isEarly = false →
    ∃ c, s.player.recovery.checkpoint = some c ∧ c.StandsAt s.player.context

namespace Standing

/-- A playback that has passed the gate stands where it was asked to start. -/
lemma of_inherits (h : s.Guarded) (hmoved : s.Moved s' t x)
    (henters : Player.Enters t.id s.player t.phase) (hclear : s.Clear (.go t.id))
    (hinherits : s.player.Inherits script start bound x) (htoken : s'.player.token = some token) :
    s'.Standing token script start := by
  have hnone := h.token_of_enters hmoved.mem henters
  rw [hmoved.player] at htoken
  cases hinherits with
  | ends hgate hserial hended =>
    rcases hended with hended | hsame
    · cases hended.symm.trans htoken
    · cases (hsame.trans hnone).symm.trans htoken
  | @goes q next hnext hline hestate hcheckpoint =>
    refine ⟨hmoved.player ▸ .of_opening hestate htoken, fun u hu => ?_, fun u hu hu' hlate => ?_⟩
    · rcases hmoved.cases h.distinct hu with ⟨hold, -⟩ | ⟨-, hgoes⟩
      · exact h.unlined hmoved.mem henters hclear u hold
      · cases hgoes
        exact hline
    · rw [hmoved.player]
      rcases hmoved.cases h.distinct hu with ⟨hold, -⟩ | ⟨-, hgoes⟩
      · rw [h.untokened hmoved.mem henters u hold] at hu'
        cases hu'
      · cases hgoes
        exact hcheckpoint hlate

/-- A step of a request that executes no line leaves a playback where it stands. -/
lemma go (hs : s.Guarded) (h : s.Standing token script start) (hmoved : s.Moved s' t x)
    (hgate : ¬ Player.Enters t.id s.player t.phase)
    (hexec : s.player.execution? t.id t.phase = none) (htoken : s.player.token = some token)
    (hkept : s'.player.token = some token) : s'.Standing token script start := by
  have ht := hmoved.mem
  have hcases : ∀ u ∈ s'.tasks, (u ∈ s.tasks ∧ u.id ≠ t.id) ∨ u.id = t.id ∧ x.2 = .goes u.phase :=
    fun u hu => hmoved.cases hs.distinct hu
  have hready : (s.player.step t.id t.phase).2 ≠ .blocked := hmoved.step ▸ hmoved.ready
  rw [hmoved.player] at hkept
  cases hphase : t.phase.token? with
  | none =>
    have haside := (Player.aside_step t.id (hs.regular t ht) hphase hexec hgate).resolve_left hready
    rw [hmoved.step] at haside
    refine ⟨hmoved.player ▸ h.stands.of_estate haside.estate, fun u hu => ?_,
      fun u hu hown hlate => ?_⟩
    · rcases hcases u hu with ⟨hold, -⟩ | ⟨-, hgoes⟩
      · exact h.unlined u hold
      · exact (haside.next _ hgoes).2.2
    · rw [hmoved.player]
      rcases hcases u hu with ⟨hold, -⟩ | ⟨-, hgoes⟩
      · obtain ⟨c, hc, hstands⟩ := h.checkpoint u hold hown hlate
        exact ⟨c, haside.checkpoint.trans hc, Player.standsAt_of_estate hstands haside.estate⟩
      · rw [(haside.next _ hgoes).2.1] at hown
        cases hown
  | some T =>
    obtain ⟨hheld, hsome⟩ := hs.own t ht T hphase
    cases hsome.symm.trans htoken
    have hlulls := (Player.lulls_step t.id hphase hexec).resolve_left hready
    rw [hmoved.step] at hlulls
    rcases hlulls.estate with ⟨next, hgoes, hnext, hline, hestate, hmarks⟩ |
      ⟨answer, hends, hnone, -⟩
    · have hsame := Player.estate_with_gate hestate
      refine ⟨hmoved.player ▸ h.stands.of_estate hsame, fun u hu => ?_, fun u hu hown hlate => ?_⟩
      · rcases hcases u hu with ⟨hold, -⟩ | ⟨-, hnow⟩
        · exact h.unlined u hold
        · cases hgoes.symm.trans hnow
          exact hline
      · rw [hmoved.player]
        have hset : ∃ c, x.1.recovery.checkpoint = some c ∧ c.StandsAt s.player.context := by
          cases hearly : t.phase.isEarly with
          | false =>
            rcases hmarks with hold | hnew
            · rw [hold]
              exact h.checkpoint t ht hphase hearly
            · exact hnew
          | true =>
            have hgo : (s.player.step t.id t.phase).2 = .goes next := hmoved.step ▸ hgoes
            have hloaded : s.player.context.script.isSome = true := by
              rw [h.stands.loaded]
              rfl
            have hcheckpoint := Player.checkpoint_step hearly hphase hloaded hgo
            rw [hmoved.step] at hcheckpoint
            exact hcheckpoint
        obtain ⟨c, hc, hstands⟩ := hset
        exact ⟨c, hc, Player.standsAt_of_estate hstands hsame⟩
    · cases hnone.symm.trans hkept

/-- Whatever happens without a line, a playback in progress stands where it was. -/
lemma does (hs : s.Guarded) (h : s.player.token = some token → s.Standing token script start)
    (hserial : token.id < s.player.serial) (ha : s.Lull a) (hdoes : s.Does a s') :
    token.id < s'.player.serial ∧
      (s'.player.token = some token → s'.Standing token script start) := by
  cases a with
  | submit n r =>
    cases hdoes with
    | submit =>
      refine ⟨hserial, fun htoken => ?_⟩
      obtain ⟨hstands, hunlined, hcheckpoint⟩ := h htoken
      refine ⟨hstands, fun u hu => ?_, fun u hu hown => ?_⟩
      · rcases List.mem_append.mp hu with hu | hu
        · exact hunlined u hu
        · rw [List.mem_singleton.mp hu]
          rfl
      · rcases List.mem_append.mp hu with hu | hu
        · exact hcheckpoint u hu hown
        · rw [List.mem_singleton.mp hu] at hown
          cases hown
  | call c =>
    cases hdoes with
    | call =>
      have hestate := Player.estate_perform (p := s.player) (c := c)
      have hkept : (s.player.perform c).token = s.player.token :=
        congrArg Player.Estate.token hestate
      have hsame := Player.estate_with_gate hestate
      refine ⟨Nat.lt_of_lt_of_le hserial
        (Nat.le_of_eq (congrArg Player.Estate.serial hestate).symm),
        fun htoken => ?_⟩
      obtain ⟨hstands, hunlined, hcheckpoint⟩ := h (hkept.symm.trans htoken)
      refine ⟨hstands.of_estate hsame, hunlined, fun u hu hown hlate => ?_⟩
      obtain ⟨c', hc', hat⟩ := hcheckpoint u hu hown hlate
      exact ⟨c', (congrArg Player.Place.checkpoint (s.player.stays_perform c).place).trans hc',
        Player.standsAt_of_estate hat hsame⟩
  | go n =>
    obtain ⟨hclear, hexec⟩ := ha
    obtain ⟨t, x, rfl, hmoved⟩ := hdoes.moved
    by_cases henters : Player.Enters t.id s.player t.phase
    · -- Another playback has a token of its own, and after a reset there is none.
      have hnone := hs.token_of_enters hmoved.mem henters
      rw [hmoved.player]
      rcases hmoved.enters henters with ⟨script, start, bound, -, hinherits⟩ | ⟨-, hreset⟩
      · cases hinherits with
        | goes htoken hline hestate =>
          have hnext := congrArg Player.Estate.serial hestate
          refine ⟨Nat.lt_of_lt_of_le hserial ?_, fun hsome => ?_⟩
          · exact Nat.le_trans (Nat.le_succ _) (Nat.le_of_eq hnext.symm)
          · cases (congrArg Player.Estate.token hestate).symm.trans hsome
            exact absurd hserial (Nat.lt_irrefl _)
        | ends hgate hnext htoken =>
          refine ⟨Nat.lt_of_lt_of_le hserial hnext, fun hsome => ?_⟩
          cases (htoken.elim id fun hsame => hsame.trans hnone).symm.trans hsome
      · obtain ⟨-, -, htoken, hnext, -⟩ := Player.resetAll_spec (p := s.player)
        rw [← hreset] at htoken hnext
        refine ⟨hnext ▸ hserial, fun hsome => ?_⟩
        cases (htoken.trans hnone).symm.trans hsome
    · have hkeeps := hs.keeps hmoved henters
      refine ⟨?_, fun htoken => ?_⟩
      · rw [hmoved.player]
        exact Nat.lt_of_lt_of_le hserial hkeeps.serial
      · have hwas : s.player.token = some token := by
          rw [hmoved.player] at htoken
          rcases hkeeps.token with hsame | ⟨hnone, -⟩
          · exact hsame.symm.trans htoken
          · cases hnone.symm.trans htoken
        exact go hs (h hwas) hmoved henters (hexec t hmoved.mem rfl) hwas htoken
  | wait now =>
    cases hdoes with
    | wait =>
      refine ⟨hserial, fun htoken => ?_⟩
      obtain ⟨hstands, hunlined, hcheckpoint⟩ := h htoken
      exact ⟨hstands.of_estate rfl, hunlined, hcheckpoint⟩

lemma reaches (hs : s.Guarded) (h : s.Standing token script start)
    (hserial : token.id < s.player.serial) (hr : s.Reaches Lull s') :
    s'.player.token = some token → s'.Standing token script start := by
  have hall : s'.Guarded ∧ token.id < s'.player.serial ∧
      (s'.player.token = some token → s'.Standing token script start) := by
    induction hr with
    | refl => exact ⟨hs, hserial, fun _ => h⟩
    | tail _ hstep ih =>
      obtain ⟨a, ha, hdoes⟩ := hstep
      obtain ⟨hguarded, hlt, hstanding⟩ := ih
      exact ⟨hguarded.does ha.clear hdoes, does hguarded hstanding hlt ha hdoes⟩
  exact hall.2.2

end Standing

/-! ### A player that was reset -/

/-- Nothing of any playback is left, and none is in progress. -/
structure Vacant (s : Session) : Prop where
  blank : s.player.Blank
  unlined : ∀ t ∈ s.tasks, t.phase.line? = none
  untokened : ∀ t ∈ s.tasks, t.phase.token? = none

namespace Vacant

/-- A reset that has passed the gate leaves nothing. -/
lemma of_reset (h : s.Guarded) (hmoved : s.Moved s' t x)
    (henters : Player.Enters t.id s.player t.phase) (hclear : s.Clear (.go t.id))
    (hphase : t.phase = .resetGate) : s'.Vacant := by
  obtain ⟨hblank, -, -, -, hdone⟩ := Player.resetAll_spec (p := s.player)
  have hreset : x = s.player.resetAll := by
    rcases hmoved.enters henters with ⟨script, start, bound, hplay, -⟩ | ⟨-, hreset⟩
    · cases hphase.symm.trans hplay
    · exact hreset
  have hgone : ∀ u ∈ s'.tasks, u ∈ s.tasks := fun u hu => by
    rcases hmoved.cases h.distinct hu with ⟨hold, -⟩ | ⟨-, hgoes⟩
    · exact hold
    · rw [hreset, hdone] at hgoes
      cases hgoes
  refine ⟨?_, fun u hu => h.unlined hmoved.mem henters hclear u (hgone u hu),
    fun u hu => h.untokened hmoved.mem henters u (hgone u hu)⟩
  rw [hmoved.player, hreset]
  exact hblank

/-- A step of a request leaves the player blank, unless it starts a playback. -/
lemma go (hs : s.Guarded) (h : s.Vacant) (hmoved : s.Moved s' t x)
    (hshut : ∀ script start bound, t.phase = .playGate script start bound →
      ¬ Player.Enters t.id s.player t.phase) : s'.Vacant := by
  have ht := hmoved.mem
  have hready : (s.player.step t.id t.phase).2 ≠ .blocked := hmoved.step ▸ hmoved.ready
  have hx : x.1.Blank ∧ ∀ next, x.2 = .goes next → next.line? = none ∧ next.token? = none := by
    by_cases henters : Player.Enters t.id s.player t.phase
    · rcases hmoved.enters henters with ⟨script, start, bound, hphase, -⟩ | ⟨-, hreset⟩
      · exact absurd henters (hshut script start bound hphase)
      · obtain ⟨hblank, -, -, -, hdone⟩ := Player.resetAll_spec (p := s.player)
        rw [hreset]
        refine ⟨hblank, fun next hnext => ?_⟩
        cases hdone.symm.trans hnext
    · have hexec := Player.execution?_of_idle t.id h.blank.state (h.unlined t ht) (h.untokened t ht)
      have haside := (Player.aside_step t.id (hs.regular t ht) (h.untokened t ht) hexec
        henters).resolve_left hready
      rw [hmoved.step] at haside
      exact ⟨h.blank.aside haside, fun next hnext => (haside.next next hnext).2.symm⟩
  obtain ⟨hblank, hnext⟩ := hx
  refine ⟨hmoved.player ▸ hblank, fun u hu => ?_, fun u hu => ?_⟩
  · rcases hmoved.cases hs.distinct hu with ⟨hold, -⟩ | ⟨-, hgoes⟩
    · exact h.unlined u hold
    · exact (hnext _ hgoes).1
  · rcases hmoved.cases hs.distinct hu with ⟨hold, -⟩ | ⟨-, hgoes⟩
    · exact h.untokened u hold
    · exact (hnext _ hgoes).2

/-- Whatever happens without a playback that passes the gate, a player that was reset stays
blank. -/
lemma does (hs : s.Guarded) (h : s.Vacant) (ha : s.Shut a) (hdoes : s.Does a s') : s'.Vacant := by
  cases a with
  | submit n r =>
    cases hdoes with
    | submit =>
      refine ⟨h.blank, fun u hu => ?_, fun u hu => ?_⟩
      · rcases List.mem_append.mp hu with hu | hu
        · exact h.unlined u hu
        · rw [List.mem_singleton.mp hu]
          rfl
      · rcases List.mem_append.mp hu with hu | hu
        · exact h.untokened u hu
        · rw [List.mem_singleton.mp hu]
          rfl
  | call c =>
    cases hdoes with
    | call => exact ⟨h.blank.perform, h.unlined, h.untokened⟩
  | go n =>
    obtain ⟨t, x, rfl, hmoved⟩ := hdoes.moved
    exact h.go hs hmoved (ha.2 t hmoved.mem rfl)
  | wait now =>
    cases hdoes with
    | wait =>
      obtain ⟨hstate, hplace, hlines, hcommands, hdeferred, hspent, hcheckpoint⟩ := h.blank
      exact ⟨⟨hstate, hplace, hlines, hcommands, hdeferred, hspent, hcheckpoint⟩, h.unlined,
        h.untokened⟩

lemma reaches (hs : s.Guarded) (h : s.Vacant) (hr : s.Reaches Shut s') : s'.Vacant := by
  have hboth : s'.Guarded ∧ s'.Vacant := by
    induction hr with
    | refl => exact ⟨hs, h⟩
    | tail _ hstep ih =>
      obtain ⟨a, ha, hdoes⟩ := hstep
      exact ⟨ih.1.does ha.clear hdoes, ih.2.does ih.1 ha hdoes⟩
  exact hboth.2

end Vacant

/-! ### Isolation -/

/-- Whatever is done with a player by requests to play, to step, to reset and to shut down, and by
calls, its playbacks are isolated, if no single step is executing its line when a request passes the
gate to play or to reset.  Every line in flight is one of the present playback, if there is one, and
none is left over from before a reset.  A playback that has passed the gate stands where it was
asked to start in the script that it was given, with a run of its own and with nothing left over by
lines, until one of its own lines is executed; once it has come to its lines, the checkpoint stands
there, too.  After a reset nothing of any playback is left until another one passes the gate. -/
theorem playbacks_are_isolated {host : Host} {bus : Bus} {store : Option Store}
    (hs : Reaches Clear { player := .create host bus store } s) :
    (∀ t ∈ s.tasks, ∀ line, t.phase.line? = some line →
        s.player.context.script.isSome = true ∧ ∀ T, s.player.token = some T →
        line.work.token = T) ∧
      (∀ t ∈ s.tasks, ∀ script start bound, t.phase = .playGate script start bound →
        s.Clear (.go t.id) → ∀ s₁, s.Does (.go t.id) s₁ → ∀ T, s₁.player.token = some T →
          ∀ s₂, s₁.Reaches Lull s₂ → s₂.player.token = some T → s₂.Standing T script start) ∧
      ∀ t ∈ s.tasks, t.phase = .resetGate → s.Clear (.go t.id) → ∀ s₁, s.Does (.go t.id) s₁ →
        ∀ s₂, s₁.Reaches Shut s₂ → s₂.Vacant := by
  have hguarded : s.Guarded := Guarded.created.reaches hs
  refine ⟨hguarded.lines, fun t ht script start bound hphase hclear s₁ hdoes T hT s₂ hr => ?_,
    fun t ht hphase hclear s₁ hdoes s₂ hr => ?_⟩
  · obtain ⟨x, hmoved, henters⟩ := hguarded.enters_of_does ht hdoes (.inr ⟨_, _, _, hphase⟩)
    have hguarded₁ := hguarded.does hclear hdoes
    rcases hmoved.enters henters with ⟨script', start', bound', hsame, hinherits⟩ | ⟨hreset, -⟩
    · cases hphase.symm.trans hsame
      have hstanding := Standing.of_inherits hguarded hmoved henters hclear hinherits hT
      exact hstanding.reaches hguarded₁ (hguarded₁.serial T hT) hr
    · cases hphase.symm.trans hreset
  · obtain ⟨x, hmoved, henters⟩ := hguarded.enters_of_does ht hdoes (.inl hphase)
    have hvacant := Vacant.of_reset hguarded hmoved henters hclear hphase
    exact hvacant.reaches (hguarded.does hclear hdoes) hr

/-! ### A nocturne, a duet and a reset -/

/-- One line and a while. -/
def nocturne : Script := ⟨"nocturne", [.text "one", .command "@wait 100" (some (.wait 100))]⟩

/-- The nocturne is to be played. -/
def dusk : Session :=
  submit { player := .create {} { capacity := 16 } none } 0 (.play nocturne .beginning false)

/-- The nocturne waits. -/
def night : Session := (((dusk.turn 0).turn 0).turn 0).turn 0

/-- The duet is to be played from its second line instead, and the nocturne has ended. -/
def dawn : Session := ((night.submit 1 (.play duet (.line 1) false)).turn 1).turn 0

/-- A reset is asked for, and the duet has ended. -/
def morning : Session := (((dawn.turn 0).submit 2 .reset).turn 1).turn 0

/-- Where no single step is executing its line, a request may have its turn. -/
lemma clear_of_all (h : s.tasks.all (fun t => !t.phase matches .stepping _) = true) (id : Nat) :
    s.Clear (.go id) := by
  intro t _ _ _ u hu line hline
  have hother := List.all_eq_true.mp h u hu
  rw [hline] at hother
  cases hother

lemma Reaches.turn (h : Reaches Clear s s')
    (hstill : s'.tasks.all (fun t => !t.phase matches .stepping _) = true) (n : Nat) :
    Reaches Clear s (s'.turn n) := by
  rcases s'.turn_eq_or_does n with heq | ⟨t, -, hdoes⟩
  · rw [heq]
    exact h
  · exact h.tail ⟨.go t.id, clear_of_all hstill t.id, hdoes⟩

lemma Reaches.submit {n : Nat} {r : Request} (h : Reaches Clear s s')
    (hregular : (Phase.entering r).isRegular = true) (hnew : s'.tasks.all (·.id != n) = true) :
    Reaches Clear s (s'.submit n r) := by
  refine h.tail ⟨.submit n r, hregular, .submit fun t ht => ?_⟩
  simpa using List.all_eq_true.mp hnew t ht

/-- The line of the nocturne is one of its playback; the duet starts at its second line, and the
reset leaves nothing. -/
theorem duet_after_nocturne :
    (∃ t ∈ night.tasks, ∃ line, t.phase.line? = some line ∧
      night.player.token = some line.work.token) ∧
      (∃ T, (dawn.turn 0).player.token = some T ∧
        (dawn.turn 0).Standing T duet (.line 1)) ∧
        Vacant (morning.turn 0) := by
  have hnight : Reaches Clear { player := .create {} { capacity := 16 } none } night := by
    have hdusk : Reaches Clear { player := .create {} { capacity := 16 } none } dusk :=
      Reaches.submit .refl rfl rfl
    exact (((hdusk.turn rfl 0).turn rfl 0).turn rfl 0).turn rfl 0
  have hdawn := ((hnight.submit (n := 1) (r := .play duet (.line 1) false) rfl rfl).turn rfl 1).turn
    rfl 0
  have hmorning :=
    (((hdawn.turn rfl 0).submit (n := 2) (r := .reset) rfl rfl).turn rfl 1).turn rfl 0
  refine ⟨?_, ?_, ?_⟩
  · obtain ⟨t, line, ht, hline, T, hT⟩ : ∃ t line, night.tasks[0]? = some t ∧
        t.phase.line? = some line ∧ ∃ T, night.player.token = some T := ⟨_, _, rfl, rfl, _, rfl⟩
    have hmem := List.mem_of_getElem? ht
    obtain ⟨-, hwork⟩ := (playbacks_are_isolated hnight).1 t hmem line hline
    exact ⟨t, hmem, line, hline, by rw [hwork T hT, hT]⟩
  · obtain ⟨t, T, ht, hphase, hT, next, hready⟩ : ∃ t T, dawn.tasks[0]? = some t ∧
        t.phase = .playGate duet (.line 1) false ∧ (dawn.turn 0).player.token = some T ∧
          ∃ next, (dawn.player.step t.id t.phase).2 = .goes next :=
      ⟨_, _, rfl, rfl, rfl, _, rfl⟩
    have hdoes : dawn.Does (.go t.id) (dawn.turn 0) := by
      refine does_turn ht ?_
      rw [hready]
      exact Progress.noConfusion
    exact ⟨T, hT, (playbacks_are_isolated hdawn).2.1 t (List.mem_of_getElem? ht) duet _ _ hphase
      (clear_of_all rfl _) _ hdoes T hT _ .refl hT⟩
  · obtain ⟨t, ht, hphase, hready⟩ : ∃ t, morning.tasks[0]? = some t ∧ t.phase = .resetGate ∧
        (morning.player.step t.id t.phase).2 = .ends .done := ⟨_, rfl, rfl, rfl⟩
    have hdoes : morning.Does (.go t.id) (morning.turn 0) := by
      refine does_turn ht ?_
      rw [hready]
      exact Progress.noConfusion
    exact (playbacks_are_isolated hmorning).2.2 t (List.mem_of_getElem? ht) hphase
      (clear_of_all rfl _) _ hdoes _ .refl

/-- A single step that is executing its line when the gate is passed outlasts its playback. -/
example :
    let s := ((dusk.turn 0).turn 0).turn 0
    let s := { s with player := s.player.perform .pause }
    let s := (((s.turn 0).submit 1 .stepForward).turn 1).turn 1
    let s := (((s.submit 2 (.play duet .beginning false)).turn 2).turn 0).turn 1
    s.player.context.scriptName = "duet" ∧
      s.tasks.any (fun t => t.phase.line?.any fun line =>
        decide (s.player.token ≠ some line.work.token)) = true := by
  decide

end Session

end Recital

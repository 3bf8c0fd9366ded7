import Recital.Proofs.Player.Scene
import Recital.Proofs.Session.OpenBus

/-!
# The log is a chronicle of playbacks

Whatever is requested of a player, apart from single steps, its log tells of one playback after the
other.  Only the request that holds the gate moves the story on; all others publish asides
(`Player.StandsBy`).  So the log always leads to the scene at which the playback in progress waits
(`Session.Chronicled`), and every report that was given has been told by one event.
-/

namespace Recital

/-- An open bus takes all events, and a closed one none. -/
lemma Bus.exists_log_tell (b : Bus) (news : List Event) :
    ∃ more, (∀ e ∈ more, e ∈ news) ∧ (b.tell news).log.toList = b.log.toList ++ more := by
  cases hclosed : b.closed with
  | false => exact ⟨news, fun _ he => he, log_tell hclosed⟩
  | true =>
    rw [tell_of_closed hclosed]
    exact ⟨[], fun _ he => absurd he List.not_mem_nil, by simp⟩

/-- Whether a playback failed, if the answer is its report. -/
def Ending.verdict? (e : Ending) : Option Bool :=
  match e.answer with
  | .report r => some r.fault.isSome
  | _ => none

namespace Player

variable {p q : Player} {id : Nat} {phase : Phase} {x : Player × Progress} {scene : Scene}

/-! ### Requests beside the playback -/

/-- A request that has nothing to do with the playback in progress publishes asides only. -/
structure StandsBy (p : Player) (x : Player × Progress) : Prop where
  news : ∃ news, (∀ e ∈ news, e.payload.isAside = true ∧ e.run = p.run) ∧
    x.1.bus.log.toList = p.bus.log.toList ++ news
  run : x.1.run = p.run
  serial : p.serial ≤ x.1.serial
  goes : ∀ next, x.2 = .goes next → next.token? = none ∧ next.isStep = false
  report : ∀ r, x.2 ≠ .ends (.report r)

/-- What was published on the bus is kept in the log, or the bus is closed. -/
lemma exists_log {news : List Event} {run : Run} (hbus : q.bus = p.bus.tell news)
    (hnews : ∀ e ∈ news, e.payload.isAside = true ∧ e.run = run) :
    ∃ news, (∀ e ∈ news, e.payload.isAside = true ∧ e.run = run) ∧
      q.bus.log.toList = p.bus.log.toList ++ news := by
  obtain ⟨more, hmore, hlog⟩ := p.bus.exists_log_tell news
  exact ⟨more, fun e he => hnews e (hmore e he), by rw [hbus, hlog]⟩

lemma PublishesPlain.log (h : PublishesPlain p q) :
    ∃ news, (∀ e ∈ news, e.payload.isAside = true ∧ e.run = p.run) ∧
      q.bus.log.toList = p.bus.log.toList ++ news := by
  obtain ⟨news, hnews, hbus⟩ := h.news
  exact exists_log hbus fun e he => (hnews e he).imp_left Event.Payload.isAside_of_isPlain

/-- A request that has ended without a report. -/
lemma standsBy_ends {answer : Answer}
    (hnews : ∃ news, (∀ e ∈ news, e.payload.isAside = true ∧ e.run = p.run) ∧
      q.bus.log.toList = p.bus.log.toList ++ news) (hrun : q.run = p.run)
    (hserial : p.serial ≤ q.serial) (hanswer : ∀ r, answer ≠ .report r) :
    StandsBy p (q, .ends answer) :=
  ⟨hnews, hrun, hserial, fun _ hgoes => (nomatch hgoes),
    fun r hends => hanswer r (Progress.ends.inj hends)⟩

lemma PublishesPlain.standsBy {answer : Answer} (h : PublishesPlain p q)
    (hanswer : ∀ r, answer ≠ .report r) :
    StandsBy p (q, .ends answer) :=
  standsBy_ends h.log h.run_eq h.serial hanswer

lemma standsBy_resetAll : StandsBy p p.resetAll := by
  obtain ⟨q, hq⟩ : ∃ q, q = p.resetState p.run := ⟨_, rfl⟩
  obtain ⟨r, hr⟩ : ∃ r, p.resetAll = (r, .ends .done) := ⟨_, rfl⟩
  have hreset : TellsPlain p.run p q := hq ▸ tellsPlain_resetState
  have hrest : r.bus = q.bus ∧ r.run = q.run ∧ r.serial = q.serial := by
    rw [show r = p.resetAll.1 from (congrArg Prod.fst hr).symm, hq]
    exact ⟨rfl, rfl, rfl⟩
  obtain ⟨news, hnews, hlog⟩ := hreset.publishesPlain.log
  rw [hr]
  exact standsBy_ends ⟨news, hnews, by rw [hrest.1, hlog]⟩
    (hrest.2.1.trans hreset.publishesPlain.run_eq)
    (by rw [hrest.2.2]; exact hreset.publishesPlain.serial)
    fun _ h => Answer.noConfusion h

/-- A request that belongs to no playback, and does not start one. -/
lemma standsBy_step (id : Nat) (htoken : phase.token? = none) (hstep : phase.isStep = false)
    (hgate : ∀ script start bound, phase = .playGate script start bound → p.isShutDown = true)
    (hready : (p.step id phase).2 ≠ .blocked) : StandsBy p (p.step id phase) := by
  obtain ⟨σ, hproceeds⟩ := exists_proceeds_step id phase p hready
  generalize p.step id phase = x at hproceeds
  have hnotoken : ∀ T : Token, phase.token? ≠ some T := fun T hT => by
    cases htoken.symm.trans hT
  cases hproceeds with
  | @flies w q next line _ _ _ _ _ _ hline hsame hkind =>
    have hnext : next.token? = none := hsame.trans htoken
    have hunstepped : next.isStep = false := hkind.trans hstep
    cases next with
    | playing => cases hnext
    | stepping => cases hunstepped
    | _ => cases hline
  | plays _ _ _ _ _ hplay => exact absurd hplay (hnotoken _)
  | steps _ _ hkind => cases hstep.symm.trans hkind
  | playsNoLine hplay => exact absurd hplay (hnotoken _)
  | starts hphase =>
    rw [hphase] at htoken
    cases htoken
  | @enrolls script start bound x hphase hheld hx =>
    have hshut := hgate script start bound hphase
    cases hx with
    | refused =>
      have hopened : PublishesPlain p { p with gate := p.gate.release } := .of_eq rfl rfl rfl
      exact hopened.standsBy fun _ h => Answer.noConfusion h
    | ends _ hopen | waits _ hopen | starts _ hopen => cases hopen.symm.trans hshut
  | resets => exact standsBy_resetAll
  | tends _ _ hx =>
    cases hx with
    | @goes q next hq _ hnone _ _ hkind =>
      refine ⟨hq.log, hq.run_eq, hq.serial, fun n hn => ?_, fun _ hends => (nomatch hends)⟩
      cases hn
      refine ⟨hnone, ?_⟩
      cases hnext : next.isStep with
      | false => rfl
      | true => cases hstep.symm.trans (hkind hnext)
    | ends hq _ hanswer => exact hq.standsBy hanswer
    | stores _ hq => exact hq.standsBy fun _ h => Answer.noConfusion h
    | @restores q s _ _ _ _ hnews hground =>
      obtain ⟨news, hplain, hbus⟩ := hnews
      exact standsBy_ends
        (exists_log hbus fun e he => (hplain e he).imp_left Event.Payload.isAside_of_isPlain)
        ((congrArg Ground.run hground).trans rfl)
        (Nat.le_of_eq ((congrArg Ground.serial hground).trans rfl).symm)
        fun _ h => Answer.noConfusion h
    | closes =>
      exact standsBy_ends ⟨[], fun _ he => absurd he List.not_mem_nil, (List.append_nil _).symm⟩ rfl
        (Nat.le_refl _) fun _ h => Answer.noConfusion h

/-- A call publishes asides only. -/
lemma asides_perform (c : Call) :
    (∃ news, (∀ e ∈ news, e.payload.isAside = true ∧ e.run = p.run) ∧
      (p.perform c).bus = p.bus.tell news) ∧
      (p.perform c).run = p.run ∧ (p.perform c).serial = p.serial := by
  have hobeys := p.obeys_perform c
  generalize p.perform c = q at hobeys
  cases hobeys with
  | tellsPlain h =>
    obtain ⟨news, hnews, hbus⟩ := h.news
    exact ⟨⟨news, fun e he => (hnews e he).imp_left Event.Payload.isAside_of_isPlain, hbus⟩,
      congrArg Ground.run h.ground, congrArg Ground.serial h.ground⟩
  | @assigns name value =>
    exact ⟨⟨[⟨.variableChanged name (some value), Instant.ofMillis p.now, p.run⟩],
      by simp [Event.Payload.isAside], rfl⟩, rfl, rfl⟩
  | clears =>
    obtain ⟨q, hq⟩ : ∃ q, q = p.dropVariables := ⟨_, rfl⟩
    have hsame := (ground_foldl_publish p.run p.context.vars.keys q).1
    refine ⟨⟨p.context.vars.keys.map fun name =>
      ⟨.variableChanged name none, Instant.ofMillis p.now, p.run⟩, fun e he => ?_, ?_⟩, ?_, ?_⟩
    · obtain ⟨name, -, rfl⟩ := List.mem_map.mp he
      exact ⟨rfl, rfl⟩
    · unfold clearVariables
      rw [← hq, bus_foldl_publish, hq]
      rfl
    · unfold clearVariables
      rw [← hq]
      exact (congrArg Ground.run hsame).trans (hq ▸ rfl)
    · unfold clearVariables
      rw [← hq]
      exact (congrArg Ground.serial hsame).trans (hq ▸ rfl)

end Player

namespace Session

variable {s s' : Session} {a : Action} {past news : List Event} {m : Nat} {scene : Scene}

/-- No single step is requested. -/
def Unstepped : Action → Prop
  | .submit _ .stepForward => False
  | _ => True

/-- The log leads to the scene at which the playback in progress waits, and has told of every
report. `past` is what the log contained before. -/
structure Chronicled (past : List Event) (m : Nat) (s : Session) (news : List Event)
    (scene : Scene) : Prop where
  voiced : s.Voiced
  log : s.player.bus.log.toList = past ++ news
  tale : Tale .idle m news (s.ended.toList.filterMap Ending.verdict?) scene s.player.serial
  given : s.player.run.Given s.player.serial
  unstepped : ∀ t ∈ s.tasks, t.phase.isStep = false
  playing : ∀ t ∈ s.tasks, t.phase.token?.isSome = true → t.phase.Plays s.player.run scene
  idle : (∀ t ∈ s.tasks, t.phase.token? = none) → scene = .idle

namespace Chronicled

lemma created {host : Host} {bus : Bus} {store : Option Store} (hopen : bus.closed = false) :
    Chronicled bus.log.toList 1 { player := .create host bus store } [] .idle where
  voiced := .created hopen
  log := (List.append_nil _).symm
  tale := .of_asides (fun _ he => absurd he List.not_mem_nil) (Nat.le_refl _)
  given := ⟨0, Nat.one_pos, rfl⟩
  unstepped _ ht := absurd ht List.not_mem_nil
  playing _ ht := absurd ht List.not_mem_nil
  idle _ := rfl

/-- Asides do not move the story on. -/
lemma asides (h : s.Chronicled past m news scene) {more : List Event} {q : Player}
    (hvoiced : Voiced { s with player := q })
    (hmore : ∀ e ∈ more, e.payload.isAside = true ∧ e.run = s.player.run)
    (hlog : q.bus.log.toList = s.player.bus.log.toList ++ more) (hrun : q.run = s.player.run)
    (hserial : s.player.serial ≤ q.serial) :
    Chronicled past m { s with player := q } (news ++ more) scene where
  voiced := hvoiced
  log := by rw [hlog, h.log, List.append_assoc]
  tale := by
    have hasides : Tale scene s.player.serial more [] scene q.serial :=
      .of_asides (fun e he => ⟨(hmore e he).1, (hmore e he).2 ▸ h.given⟩) hserial
    have htale := h.tale.trans hasides
    rwa [List.append_nil] at htale
  given := hrun ▸ h.given.mono hserial
  unstepped := h.unstepped
  playing t ht htoken := hrun ▸ h.playing t ht htoken
  idle := h.idle

/-- The answers so far, with the one that a step has given. -/
lemma verdicts_of_moved {t : Task} {x : Player × Progress} (hmoved : s.Moved s' t x) :
    s'.ended.toList.filterMap Ending.verdict? = s.ended.toList.filterMap Ending.verdict? ++
      match x.2 with
      | .ends (.report r) => [r.fault.isSome]
      | _ => [] := by
  have hended := hmoved.ended
  obtain ⟨q, progress⟩ := x
  cases progress with
  | blocked => exact absurd rfl hmoved.ready
  | goes next =>
    rw [hended]
    exact (List.append_nil _).symm
  | ends answer =>
    rw [hended, Array.toList_push, List.filterMap_append]
    cases answer <;> rfl

/-- A request beside the playback goes on. -/
lemma stands (h : s.Chronicled past m news scene) (hdoes : s.Does a s') {t : Task}
    {x : Player × Progress} (hmoved : s.Moved s' t x) (htoken : t.phase.token? = none)
    (hx : Player.StandsBy s.player x) : ∃ more, s'.Chronicled past m (news ++ more) scene := by
  obtain ⟨more, hmore, hlog⟩ := hx.news
  have hcases := fun u => hmoved.cases (u := u) h.voiced.attentive.distinct
  have hplayer := hmoved.player
  refine ⟨more,
    { voiced := h.voiced.does hdoes
      log := by rw [hplayer, hlog, h.log, List.append_assoc]
      tale := ?_
      given := by rw [hplayer, hx.run]; exact h.given.mono hx.serial
      unstepped := fun u hu => ?_
      playing := fun u hu hplays => ?_
      idle := fun hnone => h.idle fun u hu => ?_ }⟩
  · have hasides : Tale scene s.player.serial more [] scene s'.player.serial := by
      rw [hplayer]
      exact .of_asides (fun e he => ⟨(hmore e he).1, (hmore e he).2 ▸ h.given⟩) hx.serial
    have hverdicts : s'.ended.toList.filterMap Ending.verdict? =
        s.ended.toList.filterMap Ending.verdict? ++ [] := by
      rw [verdicts_of_moved hmoved]
      congr 1
      split
      · next r hends => exact absurd hends (hx.report r)
      · rfl
    rw [hverdicts]
    exact h.tale.trans hasides
  · rcases hcases u hu with ⟨hold, -⟩ | ⟨-, hgoes⟩
    · exact h.unstepped u hold
    · exact (hx.goes _ hgoes).2
  · rcases hcases u hu with ⟨hold, -⟩ | ⟨-, hgoes⟩
    · rw [hplayer, hx.run]
      exact h.playing u hold hplays
    · rw [(hx.goes _ hgoes).1] at hplays
      cases hplays
  · by_cases heq : u = t
    · rw [heq]
      exact htoken
    · exact hnone u (hmoved.mem_of_ne hu heq)

/-- The request that has the gate moves the story on. -/
lemma performs (h : s.Chronicled past m news scene) (hdoes : s.Does a s') {t : Task}
    {x : Player × Progress} (hmoved : s.Moved s' t x) (hopen : s.player.bus.closed = false)
    (halone : ∀ u ∈ s.tasks, u.id ≠ t.id → u.phase.token? = none)
    (hx : Player.Performs scene s.player x) :
    ∃ more scene', s'.Chronicled past m (news ++ more) scene' := by
  have hcases := fun u => hmoved.cases (u := u) h.voiced.attentive.distinct
  have hplayer := hmoved.player
  have hlog : ∀ {q : Player} {more : List Event}, x.1 = q → q.bus = s.player.bus.tell more →
      s'.player.bus.log.toList = past ++ (news ++ more) := by
    intro q more hq hbus
    rw [hplayer, hq, hbus, Bus.log_tell hopen, h.log, List.append_assoc]
  have hverdicts := verdicts_of_moved hmoved
  cases hx with
  | @goes q next scene' hrecites hgiven hplays =>
    obtain ⟨more, hbus, htale⟩ := hrecites
    have hplays' : next.token?.isSome = true ∧ next.isStep = false := by
      cases hplays with
      | preloading | playing => exact ⟨rfl, rfl⟩
      | between htoken =>
        refine ⟨htoken, ?_⟩
        cases next with
        | stepLock | stepping | entering => cases htoken
        | _ => rfl
    refine ⟨more, scene',
      { voiced := h.voiced.does hdoes
        log := hlog rfl hbus
        tale := by
          rw [hverdicts, hplayer]
          exact h.tale.trans htale
        given := by rw [hplayer]; exact hgiven
        unstepped := fun u hu => ?_
        playing := fun u hu htoken => ?_
        idle := fun hnone => ?_ }⟩
    · rcases hcases u hu with ⟨hold, -⟩ | ⟨-, hgoes⟩
      · exact h.unstepped u hold
      · cases hgoes
        exact hplays'.2
    · rcases hcases u hu with ⟨hold, hne⟩ | ⟨-, hgoes⟩
      · rw [halone u hold hne] at htoken
        cases htoken
      · cases hgoes
        rw [hplayer]
        exact hplays
    · have hnext := hnone _ (hmoved.mem_next rfl)
      rw [show next.token? = none from hnext] at hplays'
      cases hplays'.1
  | @ends q report hrecites hgiven =>
    obtain ⟨more, hbus, htale⟩ := hrecites
    refine ⟨more, .idle,
      { voiced := h.voiced.does hdoes
        log := hlog rfl hbus
        tale := by
          rw [hverdicts, hplayer]
          exact h.tale.trans htale
        given := by rw [hplayer]; exact hgiven
        unstepped := fun u hu => ?_
        playing := fun u hu htoken => ?_
        idle := fun _ => rfl }⟩
    · rcases hcases u hu with ⟨hold, -⟩ | ⟨-, hgoes⟩
      · exact h.unstepped u hold
      · cases hgoes
    · rcases hcases u hu with ⟨hold, hne⟩ | ⟨-, hgoes⟩
      · rw [halone u hold hne] at htoken
        cases htoken
      · cases hgoes

/-- Only one request holds the gate. -/
lemma alone (h : s.Chronicled past m news scene) {t : Task}
    (hheld : s.player.gate.isHeldBy t.id = true) :
    ∀ u ∈ s.tasks, u.id ≠ t.id → u.phase.token? = none := by
  intro u hu hne
  cases htoken : u.phase.token? with
  | none => rfl
  | some T =>
    have hother := h.voiced.attentive.gate.holds u hu (by simp [Phase.holdsGate, htoken])
    exact absurd (Lock.isHeldBy_unique hother hheld) hne

/-- Whatever is done, apart from requests for single steps, the log goes on with the story. -/
lemma does (h : s.Chronicled past m news scene) (ha : Unstepped a) (hdoes : s.Does a s') :
    ∃ more scene', s'.Chronicled past m (news ++ more) scene' := by
  have hvoiced := h.voiced.does hdoes
  cases a with
  | submit id r =>
    cases hdoes
    have hfresh : (Phase.entering r).isStep = false := by
      cases r with
      | stepForward => exact absurd ha not_false
      | _ => rfl
    refine ⟨[], scene,
      { voiced := hvoiced
        log := by rw [List.append_nil]; exact h.log
        tale := by rw [List.append_nil]; exact h.tale
        given := h.given
        unstepped := fun t ht => ?_
        playing := fun t ht htoken => ?_
        idle := fun hnone => h.idle fun t ht => hnone t (List.mem_append_left _ ht) }⟩
    · rcases List.mem_append.mp ht with ht | ht
      · exact h.unstepped t ht
      · rw [List.mem_singleton.mp ht]
        exact hfresh
    · rcases List.mem_append.mp ht with ht | ht
      · exact h.playing t ht htoken
      · rw [List.mem_singleton.mp ht] at htoken
        cases htoken
  | call c =>
    cases hdoes
    obtain ⟨⟨more, hmore, hbus⟩, hrun, hserial⟩ := s.player.asides_perform c
    obtain ⟨kept, hkept, hlog⟩ := Player.exists_log hbus hmore
    exact ⟨kept, scene, h.asides hvoiced hkept hlog hrun (Nat.le_of_eq hserial.symm)⟩
  | wait now =>
    cases hdoes
    exact ⟨[], scene, h.asides hvoiced (fun _ he => absurd he List.not_mem_nil)
      (List.append_nil _).symm rfl (Nat.le_refl _)⟩
  | go id =>
    obtain ⟨t, x, -, hmoved⟩ := hdoes.moved
    have hready : (s.player.step t.id t.phase).2 ≠ .blocked := hmoved.step ▸ hmoved.ready
    have hstep := h.unstepped t hmoved.mem
    cases htoken : t.phase.token? with
    | some T =>
      have hsome : t.phase.token?.isSome = true := by rw [htoken]; rfl
      have hperforms := Player.performs_step t.id (h.playing t hmoved.mem hsome) h.given hready
      rw [hmoved.step] at hperforms
      exact h.performs hdoes hmoved (h.voiced.playing t hmoved.mem hsome)
        (h.alone (h.voiced.attentive.gate.holds t hmoved.mem hsome)) hperforms
    | none =>
      by_cases hstarts : ∃ script start bound, t.phase = .playGate script start bound ∧
          s.player.isShutDown = false
      · obtain ⟨script, start, bound, hphase, hup⟩ := hstarts
        have hheld : s.player.gate.isHeldBy t.id = true := by
          rw [hphase] at hready
          simp only [Player.step] at hready
          exact Player.holds_of_ready hready
        have halone := h.alone hheld
        have hidle : scene = .idle := by
          refine h.idle fun u hu => ?_
          by_cases hid : u.id = t.id
          · obtain rfl : u = t :=
              List.inj_on_of_nodup_map h.voiced.attentive.distinct hu hmoved.mem hid
            exact htoken
          · exact halone u hu hid
        have hopen : s.player.bus.closed = false := by
          cases hclosed : s.player.bus.closed with
          | false => rfl
          | true => cases hup.symm.trans (h.voiced.shut hclosed)
        have hx : Player.Enrolls script bound s.player x := by
          rw [← hmoved.step, hphase]
          exact Player.enrolls_step hheld
        refine h.performs hdoes hmoved hopen halone ?_
        rw [hidle]
        exact hx.performs hup
      · have hstands := Player.standsBy_step t.id htoken hstep (fun script start bound hphase => by
          cases hup : s.player.isShutDown with
          | true => rfl
          | false => exact absurd ⟨script, start, bound, hphase, hup⟩ hstarts) hready
        rw [hmoved.step] at hstands
        obtain ⟨more, hmore⟩ := h.stands hdoes hmoved htoken hstands
        exact ⟨more, scene, hmore⟩

end Chronicled

end Session

end Recital

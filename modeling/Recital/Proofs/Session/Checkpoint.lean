import Recital.Proofs.Player.RequestStep
import Recital.Proofs.Session.Isolation
import Recital.Proofs.Session.Locks

/-!
# The checkpoint belongs to the script

A rollback returns to the checkpoint and does not ask which script it was taken from.  The start of
a playback, a call of another script and an automatic save set a checkpoint of the script that is
loaded, and so does the restoring of a saved snapshot.  Two things may bring a line and the
checkpoint of another script together: a save that was asked for with another script loaded becomes
the checkpoint when it is done, and a line that a single step executes may be in flight while a
playback of another script gets ready.  Where neither happens (`Session.Tidy`), the checkpoint
belongs to the script whenever a line is executed.
-/

namespace Recital

/-- The checkpoint was taken from the script that is loaded. -/
def Ground.Belongs (g : Ground) : Prop :=
  g.checkpoint.map Snapshot.scriptName = g.script.map Script.name

section Courses

variable {w : Work} {σ τ : Stage} {g h : Ground} {news : List Event} {remarks : List Remark}

/-- What is done for a line keeps the checkpoint with the script. -/
lemma Course.belongs (hcourse : Course w σ g news remarks τ h) (hg : g.Belongs) : h.Belongs := by
  induction hcourse with
  | done => exact hg
  | next hdeed _ ih =>
    refine ih ?_
    cases hdeed with
    | enters hc => exact congrArg some hc
    | _ => exact hg

/-- What is done for a line leaves a script loaded. -/
lemma Course.loaded (hcourse : Course w σ g news remarks τ h) (hg : g.script.isSome = true) :
    h.script.isSome = true := by
  induction hcourse with
  | done => exact hg
  | next hdeed _ ih =>
    refine ih ?_
    cases hdeed with
    | enters => rfl
    | _ => exact hg

end Courses

namespace Player

variable {p q r : Player} {id : Nat} {phase next : Phase} {x : Player × Progress}

/-! ### Steps -/

/-- The checkpoint stays with the script, and a playback gets under way with a checkpoint of its
script only. -/
structure KeepsCheckpoint (p q : Player) : Prop where
  belongs : p.ground.Belongs → q.ground.Belongs
  state : q.state.isUnderway = true → p.state.isUnderway = true ∨ q.ground.Belongs
  loaded : p.context.script.isSome = true → q.context.script.isSome = true

lemma KeepsCheckpoint.trans (hpq : KeepsCheckpoint p q) (hqr : KeepsCheckpoint q r) :
    KeepsCheckpoint p r := by
  refine ⟨fun h => hqr.belongs (hpq.belongs h), fun h => ?_, fun h => hqr.loaded (hpq.loaded h)⟩
  rcases hqr.state h with hunder | hbelongs
  · exact (hpq.state hunder).imp_right hqr.belongs
  · exact .inr hbelongs

/-- Script and checkpoint are the same as before. -/
lemma keepsCheckpoint_of_eq (hscript : q.context.script = p.context.script)
    (hcheckpoint : q.recovery.checkpoint = p.recovery.checkpoint)
    (hstate : q.state.isUnderway = true → p.state.isUnderway = true) : KeepsCheckpoint p q := by
  refine ⟨fun h => ?_, fun h => .inl (hstate h), fun h => hscript ▸ h⟩
  unfold Ground.Belongs at h ⊢
  rwa [show q.ground.checkpoint = p.ground.checkpoint from hcheckpoint,
    show q.ground.script = p.ground.script from hscript]

/-- The checkpoint is set to a snapshot of the script. -/
lemma belongs_of_name {s : Snapshot} (hcheckpoint : q.recovery.checkpoint = some s)
    (hname : q.context.scriptName? = some s.scriptName) : q.ground.Belongs := by
  unfold Ground.Belongs
  rw [show q.ground.checkpoint = some s from hcheckpoint]
  exact hname.symm

lemma Pursues.keepsCheckpoint {w : Work} {σ τ : Stage} {remarks : List Remark}
    (h : Pursues w σ p remarks τ q) : KeepsCheckpoint p q := by
  obtain ⟨news, hcourse, -⟩ := h.course
  exact ⟨hcourse.belongs, fun hq => .inl (h.state hq), hcourse.loaded⟩

lemma PublishesPlain.script_eq (h : PublishesPlain p q) : q.context.script = p.context.script :=
  (congrArg Ground.script h.ground).trans rfl

/-- What publishes plain events only may set a checkpoint of the script. -/
lemma PublishesPlain.keepsCheckpoint (h : PublishesPlain p q) (hmarked : Marked p q) :
    KeepsCheckpoint p q := by
  rcases hmarked with hsame | ⟨s, hset, hname⟩
  · exact keepsCheckpoint_of_eq h.script_eq hsame h.state
  · have hname' : q.context.scriptName? = some s.scriptName := by
      rw [← hname]
      exact congrArg (Option.map Script.name) h.script_eq
    exact ⟨fun _ => belongs_of_name hset hname', fun hq => .inl (h.state hq),
      fun hp => h.script_eq ▸ hp⟩

lemma Finished.keepsCheckpoint {report : Report} (h : Finished report p x) :
    KeepsCheckpoint p x.1 :=
  keepsCheckpoint_of_eq (congrArg Ground.script h.ground)
  (congrArg Ground.checkpoint h.ground) h.state

lemma PlaysNoLine.keepsCheckpoint {token : Token} (h : PlaysNoLine token p x) :
    KeepsCheckpoint p x.1 := by
  cases h with
  | goes _ _ _ hq hmarked => exact hq.keepsCheckpoint hmarked
  | ends hx => exact hx.keepsCheckpoint

/-- A script that is started gets its checkpoint. -/
lemma Introduces.belongs {run : Run} {name : String} (h : Introduces run name p q)
    (hloaded : p.context.script.isSome = true) :
    q.ground.Belongs ∧ q.context.script = p.context.script := by
  have hscript : q.context.script = p.context.script := (congrArg Ground.script h.ground).trans rfl
  obtain ⟨s, hset, hname⟩ := h.checkpoint hloaded
  refine ⟨belongs_of_name hset ?_, hscript⟩
  rw [← hname]
  exact congrArg (Option.map Script.name) hscript

/-- Script and checkpoint after a step of a request that does not pass the gate. -/
lemma keepsCheckpoint_step (id : Nat) (hready : (p.step id phase).2 ≠ .blocked)
    (hgate : ¬ Enters id p phase)
    (hloaded : phase.token?.isSome = true → p.context.script.isSome = true)
    (hsaved : ∀ key s, phase = .storing key s → p.context.scriptName? = some s.scriptName) :
    KeepsCheckpoint p (p.step id phase).1 := by
  obtain ⟨σ, hproceeds⟩ := exists_proceeds_step id phase p hready
  generalize p.step id phase = x at hproceeds
  cases hproceeds with
  | flies _ hq => exact hq.keepsCheckpoint
  | plays _ hq => exact hq.keepsCheckpoint.trans playsNoLine_afterLine.keepsCheckpoint
  | steps _ hq _ hr hcheckpoint =>
    exact hq.keepsCheckpoint.trans (hr.keepsCheckpoint (.inl hcheckpoint))
  | playsNoLine _ _ _ hx => exact hx.keepsCheckpoint
  | @starts token run name until_ hphase =>
    have hscript : p.context.script.isSome = true := hloaded (by rw [hphase]; rfl)
    rcases p.startLines_cases id token run name with ⟨r, hr⟩ | ⟨q, hq, hx⟩
    · exact hr.keepsCheckpoint
    · obtain ⟨hbelongs, hsame⟩ := hq.belongs hscript
      have hstarted : KeepsCheckpoint p q :=
        ⟨fun _ => hbelongs, fun _ => .inr hbelongs, fun _ => hsame ▸ hscript⟩
      exact hstarted.trans hx.keepsCheckpoint
  | enrolls hphase hheld =>
    refine absurd ?_ hgate
    rw [hphase]
    exact hheld
  | resets hphase hheld =>
    refine absurd ?_ hgate
    rw [hphase]
    exact hheld
  | tends _ _ hx =>
    cases hx with
    | goes hq hcheckpoint => exact hq.keepsCheckpoint (.inl hcheckpoint)
    | ends hq hcheckpoint => exact hq.keepsCheckpoint (.inl hcheckpoint)
    | @stores q key s hphase hq hcheckpoint =>
      exact hq.keepsCheckpoint (.inr ⟨s, hcheckpoint, hsaved key s hphase⟩)
    | @restores q s _ _ hname _ _ hground hcell =>
      have hscript : q.context.script = p.context.script :=
        (congrArg Ground.script hground).trans rfl
      have hset : q.recovery.checkpoint = some s := (congrArg Ground.checkpoint hground).trans rfl
      have hbelongs : q.ground.Belongs := by
        refine belongs_of_name hset ?_
        rw [← hname]
        exact congrArg (Option.map Script.name) hscript
      exact ⟨fun _ => hbelongs, fun _ => .inr hbelongs, fun h => hscript ▸ h⟩
    | closes => exact keepsCheckpoint_of_eq rfl rfl fun h => h

/-- A script stays loaded in a step of a request that does not pass the gate. -/
lemma loaded_step (id : Nat) (hready : (p.step id phase).2 ≠ .blocked)
    (hgate : ¬ Enters id p phase)
    (hloaded : phase.token?.isSome = true → p.context.script.isSome = true)
    (hp : p.context.script.isSome = true) : (p.step id phase).1.context.script.isSome = true := by
  by_cases hstoring : ∃ key s, phase = .storing key s
  · obtain ⟨key, s, rfl⟩ := hstoring
    have hsame : (p.storeSnapshot key s).1.context = p.context := by
      unfold storeSnapshot write
      cases p.store with
      | none => rfl
      | some store =>
        dsimp only
        cases store.save key s.toJson.normalize with
        | mk result _ => cases result <;> rfl
    have hstep : p.step id (.storing key s) = p.storeSnapshot key s := rfl
    rw [hstep, hsame]
    exact hp
  · exact (keepsCheckpoint_step id hready hgate hloaded fun key s h =>
      absurd ⟨key, s, h⟩ hstoring).loaded hp

/-- A request to play that passes the gate: it is refused, or a playback gets ready whose checkpoint
is that of its script as soon as it gets under way. -/
lemma Enrolls.keepsCheckpoint {script : Script} {bound : Bool} (h : Enrolls script bound p x) :
    (KeepsCheckpoint p x.1 ∧ ∀ next, x.2 ≠ .goes next) ∨
      x.1.context.script.isSome = true ∧ (x.1.state.isUnderway = true → x.1.ground.Belongs) ∧
        ∀ next, x.2 = .goes next → next.line? = none := by
  cases h with
  | refused =>
    exact .inl ⟨keepsCheckpoint_of_eq rfl rfl fun h => h, fun _ hnext => (nomatch hnext)⟩
  | @ends q x report hq _ hx =>
    have hscript : x.1.context.script = q.context.script := congrArg Ground.script hx.ground
    refine .inr ⟨by rw [hscript, hq.script]; rfl, fun hunder => ?_, fun _ hnext => ?_⟩
    · cases hq.state.symm.trans (hx.state hunder)
    · cases hx.ends.symm.trans hnext
  | waits hq =>
    refine .inr ⟨by rw [hq.script]; rfl, fun hunder => ?_, fun _ hnext => ?_⟩
    · cases hq.state.symm.trans hunder
    · cases hnext
      rfl
  | starts hq _ hr hx =>
    have hloaded := congrArg Option.isSome hq.script
    obtain ⟨hbelongs, hsame⟩ := hr.belongs hloaded
    have hmoors := hx.keepsCheckpoint
    exact .inr ⟨hmoors.loaded (hsame ▸ hloaded), fun _ => hmoors.belongs hbelongs,
      fun _ hnext => (hx.next hnext).2⟩

/-- A call sets no checkpoint. -/
lemma keepsCheckpoint_perform (c : Call) : KeepsCheckpoint p (p.perform c) :=
  (pursues_perform (w := ⟨0, "", "", p.run, ⟨0, false⟩⟩) (σ := .started) c).keepsCheckpoint

/-- Nothing is left after a reset. -/
lemma belongs_resetAll : p.resetAll.1.ground.Belongs := rfl

/-- A line is executed in a playback that is under way, or it has begun already. -/
lemma underway_of_execution? (h : (p.execution? id phase).isSome = true) :
    phase.line?.isSome = true ∨ p.state.isUnderway = true := by
  obtain ⟨y, hy⟩ := Option.isSome_iff_exists.mp h
  cases hline : phase.line? with
  | some => exact .inl rfl
  | none => exact .inr ((held_of_execution hy).2 hline).2

end Player

namespace Session

variable {s s' : Session} {a : Action} {t : Task}

/-! ### Sessions -/

/-- A snapshot is saved while the script that it was taken from is loaded, and no single step is
executing its line when a playback passes the gate. -/
def Tidy (s : Session) : Action → Prop
  | .go id => ∀ t ∈ s.tasks, t.id = id →
    (∀ key snapshot, t.phase = .storing key snapshot →
      s.player.context.scriptName? = some snapshot.scriptName) ∧
    ∀ script start bound, t.phase = .playGate script start bound →
      ∀ u ∈ s.tasks, ∀ line, u.phase ≠ .stepping line
  | _ => True

/-- A script is loaded as long as a playback is in progress. -/
structure ScriptLoaded (s : Session) : Prop where
  attentive : s.Attentive
  loaded : ∀ t ∈ s.tasks, t.phase.token?.isSome = true → s.player.context.script.isSome = true

namespace ScriptLoaded

lemma created {host : Host} {bus : Bus} {store : Option Store} :
    ScriptLoaded { player := .create host bus store } where
  attentive := .created
  loaded _ ht := absurd ht List.not_mem_nil

/-- Where a request has the gate without a playback, no other request has a playback. -/
lemma untokened (h : s.ScriptLoaded) (ht : t ∈ s.tasks)
    (henters : Player.Enters t.id s.player t.phase) :
    ∀ u ∈ s.tasks, u.phase.token? = none := by
  intro u hu
  cases htoken : u.phase.token? with
  | none => rfl
  | some T =>
    have hother := h.attentive.gate.holds u hu (by simp [Phase.holdsGate, htoken])
    obtain rfl : u = t := List.inj_on_of_nodup_map h.attentive.distinct hu ht
      (Lock.isHeldBy_unique hother henters.held)
    cases henters.unlined.2.symm.trans htoken

/-- Whoever passes the gate loads a script, or leaves no playback in progress. -/
lemma enters (h : s.ScriptLoaded) {x : Player × Progress} (hmoved : s.Moved s' t x)
    (henters : Player.Enters t.id s.player t.phase) :
    (∀ u ∈ s'.tasks, u.phase.token? = none) ∨ s'.player.context.script.isSome = true := by
  have huntokened := h.untokened hmoved.mem henters
  have hnone : (∀ next, x.2 ≠ .goes next) → ∀ u ∈ s'.tasks, u.phase.token? = none := by
    intro hends u hu
    rcases hmoved.cases h.attentive.distinct hu with ⟨hold, -⟩ | ⟨-, hgoes⟩
    · exact huntokened u hold
    · exact absurd hgoes (hends _)
  have hheld := henters.held
  have hstep := hmoved.step
  cases hphase : t.phase with
  | playGate script start bound =>
    have hx : Player.Enrolls script bound s.player x := by
      rw [← hstep, hphase]
      exact Player.enrolls_step hheld
    rcases hx.keepsCheckpoint with ⟨-, hends⟩ | ⟨hloaded, -⟩
    · exact .inl (hnone hends)
    · exact .inr (hmoved.player ▸ hloaded)
  | resetGate =>
    refine .inl (hnone fun next hgoes => ?_)
    rw [hphase] at hstep
    simp only [Player.step] at hstep
    rw [if_pos hheld] at hstep
    rw [← hstep] at hgoes
    cases hgoes
  | _ =>
    rw [hphase] at henters
    exact henters.elim

/-- This is so whatever is done. -/
lemma does (h : s.ScriptLoaded) (hdoes : s.Does a s') : s'.ScriptLoaded := by
  refine ⟨h.attentive.does hdoes, fun u hu htoken => ?_⟩
  cases a with
  | submit id r =>
    cases hdoes
    rcases List.mem_append.mp hu with hu | hu
    · exact h.loaded u hu htoken
    · rw [List.mem_singleton.mp hu] at htoken
      cases htoken
  | call c =>
    cases hdoes
    exact (Player.keepsCheckpoint_perform c).loaded (h.loaded u hu htoken)
  | wait now =>
    cases hdoes
    exact h.loaded u hu htoken
  | go id =>
    obtain ⟨t, x, rfl, hmoved⟩ := hdoes.moved
    by_cases henters : Player.Enters t.id s.player t.phase
    · rcases h.enters hmoved henters with hnone | hloaded
      · rw [hnone u hu] at htoken
        cases htoken
      · exact hloaded
    · have hready : (s.player.step t.id t.phase).2 ≠ .blocked := hmoved.step ▸ hmoved.ready
      have hp : s.player.context.script.isSome = true := by
        rcases hmoved.cases h.attentive.distinct hu with ⟨hold, -⟩ | ⟨-, hgoes⟩
        · exact h.loaded u hold htoken
        · rw [← hmoved.step] at hgoes
          exact h.loaded t hmoved.mem ((Player.next_step t.id hready hgoes).2 henters htoken)
      have hloaded := Player.loaded_step t.id hready henters (h.loaded t hmoved.mem) hp
      rw [hmoved.step] at hloaded
      rw [hmoved.player]
      exact hloaded

end ScriptLoaded

/-- The checkpoint belongs to the script while a playback is under way, and while a line is
executed. -/
structure CheckpointBelongs (s : Session) : Prop extends s.ScriptLoaded where
  underway : s.player.state.isUnderway = true → s.player.ground.Belongs
  lined : ∀ t ∈ s.tasks, t.phase.line?.isSome = true → s.player.ground.Belongs

namespace CheckpointBelongs

lemma created {host : Host} {bus : Bus} {store : Option Store} :
    CheckpointBelongs { player := .create host bus store } where
  toScriptLoaded := .created
  underway _ := rfl
  lined _ ht := absurd ht List.not_mem_nil

/-- Whenever a line is executed, the checkpoint belongs to the script. -/
lemma belongs (h : s.CheckpointBelongs) (ht : t ∈ s.tasks)
    (hexec : (s.player.execution? t.id t.phase).isSome = true) : s.player.ground.Belongs :=
  (Player.underway_of_execution? hexec).elim (h.lined t ht) h.underway

/-- Nothing happens to the requests in progress. -/
lemma of_keepsCheckpoint (h : s.CheckpointBelongs) {q : Player}
    (hmoors : Player.KeepsCheckpoint s.player q)
    (hladen : ScriptLoaded { s with player := q }) : CheckpointBelongs { s with player := q } where
  toScriptLoaded := hladen
  underway hunder := (hmoors.state hunder).elim (fun hp => hmoors.belongs (h.underway hp))
    fun hq => hq
  lined t ht hline := hmoors.belongs (h.lined t ht hline)

/-- A request goes on without passing the gate. -/
lemma go (h : s.CheckpointBelongs) {x : Player × Progress} (hmoved : s.Moved s' t x)
    (hladen : s'.ScriptLoaded)
    (hmoors : Player.KeepsCheckpoint s.player x.1) : s'.CheckpointBelongs := by
  have hcases := fun u => hmoved.cases (u := u) h.attentive.distinct
  have hready : (s.player.step t.id t.phase).2 ≠ .blocked := hmoved.step ▸ hmoved.ready
  have hnext : ∀ {next : Phase}, x.2 = .goes next → next.line?.isSome = true →
      (s.player.execution? t.id t.phase).isSome = true := by
    intro next hgoes
    rw [← hmoved.step] at hgoes
    exact (Player.next_step t.id hready hgoes).1
  refine ⟨hladen, fun hunder => ?_, fun u hu hline => ?_⟩
  · rw [hmoved.player] at hunder ⊢
    exact (hmoors.state hunder).elim (fun hp => hmoors.belongs (h.underway hp)) fun hq => hq
  · rw [hmoved.player]
    rcases hcases u hu with ⟨hold, -⟩ | ⟨-, hgoes⟩
    · exact hmoors.belongs (h.lined u hold hline)
    · exact hmoors.belongs (h.belongs hmoved.mem (hnext hgoes hline))

/-- A request passes the gate. -/
lemma enters (h : s.CheckpointBelongs) {x : Player × Progress} (hmoved : s.Moved s' t x)
    (hladen : s'.ScriptLoaded) (htidy : s.Tidy (.go t.id))
    (henters : Player.Enters t.id s.player t.phase) : s'.CheckpointBelongs := by
  have hcases := fun u => hmoved.cases (u := u) h.attentive.distinct
  have huntokened := h.untokened hmoved.mem henters
  have hheld := henters.held
  have hstep := hmoved.step
  cases hphase : t.phase with
  | playGate script start bound =>
    have hunlined : ∀ u ∈ s.tasks, u.phase.line? = none := by
      intro u hu
      have hstill := (htidy t hmoved.mem rfl).2 script start bound hphase u hu
      have hnone := huntokened u hu
      cases hu : u.phase with
      | playing play line =>
        rw [hu] at hnone
        cases hnone
      | stepping line => exact absurd hu (hstill line)
      | _ => rfl
    have hx : Player.Enrolls script bound s.player x := by
      rw [← hstep, hphase]
      exact Player.enrolls_step hheld
    rcases hx.keepsCheckpoint with ⟨hmoors, hends⟩ | ⟨-, hunder, hline⟩
    · refine ⟨hladen, fun hunder => ?_, fun u hu hline => ?_⟩
      · rw [hmoved.player] at hunder ⊢
        exact (hmoors.state hunder).elim (fun hp => hmoors.belongs (h.underway hp)) fun hq => hq
      · rcases hcases u hu with ⟨hold, -⟩ | ⟨-, hgoes⟩
        · rw [hunlined u hold] at hline
          cases hline
        · exact absurd hgoes (hends _)
    · refine ⟨hladen, ?_, fun u hu hsome => ?_⟩
      · rw [hmoved.player]
        exact hunder
      · rcases hcases u hu with ⟨hold, -⟩ | ⟨-, hgoes⟩
        · rw [hunlined u hold] at hsome
          cases hsome
        · rw [hline _ hgoes] at hsome
          cases hsome
  | resetGate =>
    have hx : x = s.player.resetAll := by
      rw [hphase] at hstep
      simp only [Player.step] at hstep
      rw [if_pos hheld] at hstep
      exact hstep.symm
    have hbelongs : s'.player.ground.Belongs := by
      rw [hmoved.player, hx]
      exact Player.belongs_resetAll
    exact ⟨hladen, fun _ => hbelongs, fun _ _ _ => hbelongs⟩
  | _ =>
    rw [hphase] at henters
    exact henters.elim

/-- Whatever is tidy keeps the checkpoint with the script. -/
lemma does (h : s.CheckpointBelongs) (htidy : s.Tidy a) (hdoes : s.Does a s') :
    s'.CheckpointBelongs := by
  have hladen := h.toScriptLoaded.does hdoes
  cases a with
  | submit id r =>
    cases hdoes
    refine ⟨hladen, h.underway, fun t ht hline => ?_⟩
    rcases List.mem_append.mp ht with ht | ht
    · exact h.lined t ht hline
    · rw [List.mem_singleton.mp ht] at hline
      cases hline
  | call c =>
    cases hdoes
    exact h.of_keepsCheckpoint (Player.keepsCheckpoint_perform c) hladen
  | wait now =>
    cases hdoes
    exact h.of_keepsCheckpoint (Player.keepsCheckpoint_of_eq rfl rfl fun hstate => hstate) hladen
  | go id =>
    obtain ⟨t, x, rfl, hmoved⟩ := hdoes.moved
    by_cases henters : Player.Enters t.id s.player t.phase
    · exact h.enters hmoved hladen htidy henters
    · have hready : (s.player.step t.id t.phase).2 ≠ .blocked := hmoved.step ▸ hmoved.ready
      have hmoors := Player.keepsCheckpoint_step t.id hready henters (h.loaded t hmoved.mem)
        (htidy t hmoved.mem rfl).1
      rw [hmoved.step] at hmoors
      exact h.go hmoved hladen hmoors

end CheckpointBelongs

/-- The checkpoint belongs to the script.  Make any requests to a new player, with any calls, and
let them go on in any order, as long as no save is done after its script was left and no single step
is executing its line when a playback passes the gate.  Then, whenever a line is executed, the
checkpoint was taken from the script that is loaded, and so was the snapshot that a rollback returns
to. -/
theorem rollback_keeps_to_script {host : Host} {bus : Bus} {store : Option Store}
    (hs : Reaches Tidy { player := .create host bus store } s) (ht : t ∈ s.tasks)
    (hexec : (s.player.execution? t.id t.phase).isSome = true) :
    s.player.recovery.checkpoint.map Snapshot.scriptName = s.player.context.scriptName? ∧
      ∀ c, s.player.stepRetreat? t.id t.phase = some c →
        s.player.context.scriptName? = some c.scriptName := by
  have hmoored : s.CheckpointBelongs := by
    clear ht hexec
    induction hs with
    | refl => exact .created
    | tail _ hmay ih =>
      obtain ⟨a, htidy, hdoes⟩ := hmay
      exact ih.does htidy hdoes
  have hbelongs : s.player.recovery.checkpoint.map Snapshot.scriptName =
      s.player.context.scriptName? := hmoored.belongs ht hexec
  refine ⟨hbelongs, fun c hretreat => ?_⟩
  rw [← hbelongs, Player.checkpoint_of_stepRetreat? hretreat]
  rfl

/-! ### A saved etude -/

/-- Fails whenever it is attempted. -/
def slip : Command := .custom "slip" false fun _ _ => { verdict := .error (.network "unreachable") }

/-- A text, and a line that returns to the checkpoint. -/
def etude : Script := ⟨"etude", [.text "one", .command "@slip" (some slip)]⟩

/-- A player that returns to the checkpoint after a fault, with a store. -/
def student : Session :=
  { player := .create { registry := { defaults := { onError := some .rollback } } }
      { capacity := 16 } (some (.memory {})) }

/-- The first line of the etude has been executed. -/
def midway : Session := (((student.submit 0 (.play etude .beginning false)).turn 0).turn 0).turn 0

/-- The etude was saved, and its second line is in flight. -/
def slipping : Session := (((midway.submit 1 .save).turn 1).turn 1).turn 0

/-- No single step is executing its line, and what is being saved is of the script that is
loaded. -/
def isTidy (s : Session) : Bool := s.tasks.all fun t =>
  match t.phase with
  | .stepping _ => false
  | .storing _ snapshot => s.player.context.scriptName? == some snapshot.scriptName
  | _ => true

lemma tidy_of_isTidy (h : s.isTidy = true) (id : Nat) : s.Tidy (.go id) := by
  refine fun t ht _ => ⟨fun key snapshot hphase => ?_, fun _ _ _ _ u hu line hline => ?_⟩
  · have hsaved := List.all_eq_true.mp h t ht
    rw [hphase] at hsaved
    exact beq_iff_eq.mp hsaved
  · have hstill := List.all_eq_true.mp h u hu
    rw [hline] at hstill
    cases hstill

/-- A request has its turn. -/
lemma Reaches.tidily (hs : Reaches Tidy s s') (h : s'.isTidy = true) (n : Nat) :
    Reaches Tidy s (s'.turn n) := by
  rcases s'.turn_eq_or_does n with heq | ⟨t, -, hdoes⟩
  · rw [heq]
    exact hs
  · exact hs.tail ⟨.go t.id, tidy_of_isTidy h t.id, hdoes⟩

/-- The second line of the etude returns to what was saved of it. -/
theorem etude_returns : Reaches Tidy student slipping ∧ ∃ t ∈ slipping.tasks,
    (slipping.player.execution? t.id t.phase).isSome = true ∧
      ∃ c, slipping.player.stepRetreat? t.id t.phase = some c ∧ c.cursor = 1 ∧
        slipping.player.recovery.checkpoint.map Snapshot.scriptName =
          slipping.player.context.scriptName? ∧
        slipping.player.context.scriptName? = some c.scriptName := by
  have hasked : Reaches Tidy student (student.submit 0 (.play etude .beginning false)) :=
    .single ⟨.submit 0 _, trivial, .submit fun _ ht => absurd ht List.not_mem_nil⟩
  have hmidway : Reaches Tidy student midway :=
    ((hasked.tidily rfl 0).tidily rfl 0).tidily rfl 0
  have hsaving : Reaches Tidy student (midway.submit 1 .save) := by
    refine hmidway.tail ⟨.submit 1 .save, trivial, .submit fun t ht => ?_⟩
    obtain rfl := List.mem_singleton.mp ht
    exact Nat.zero_ne_one
  have hslipping : Reaches Tidy student slipping :=
    ((hsaving.tidily rfl 1).tidily rfl 1).tidily rfl 0
  obtain ⟨t, ht, hexec, c, hretreat, hcursor⟩ : ∃ t, slipping.tasks[0]? = some t ∧
      (slipping.player.execution? t.id t.phase).isSome = true ∧
        ∃ c, slipping.player.stepRetreat? t.id t.phase = some c ∧ c.cursor = 1 :=
    ⟨_, rfl, rfl, _, rfl, rfl⟩
  have hmem := List.mem_of_getElem? ht
  obtain ⟨hcheckpoint, hback⟩ := rollback_keeps_to_script hslipping hmem hexec
  exact ⟨hslipping, t, hmem, hexec, c, hretreat, hcursor, hcheckpoint, hback c hretreat⟩

end Session

end Recital

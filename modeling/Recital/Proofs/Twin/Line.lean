import Recital.Proofs.Place.Line
import Recital.Proofs.Player.Bearing
import Recital.Proofs.Twin.Basic

/-!
# Lines of twins

Twins execute a line in the same way.  Phases of the line are the same but for the instants that
they wait for, each of which is later by as much as one clock shows more than the other, and but for
the state, which only one of the players may have changed to `waiting` (`LinePhase.Twin`).  There is
one lemma for each function that takes a line on: it leads twins to twins, in the same phase of the
line or at the same end of it (`Player.LineTwin`).
-/

namespace Recital

/-- The same attempt in flight, by the clocks of twins. -/
structure Flight.Twin (host : Host) (now k : Nat) (f g : Flight) : Prop where
  since : ∃ a ≤ now, f.since = host.stopwatch a ∧ g.since = host.stopwatch (a + k)
  doneAt : g.doneAt = f.doneAt.map (· + k)
  limit : g.limit = f.limit + k
  verdict : g.verdict = f.verdict

/-- The same phase of a line, by the clocks of twins. -/
inductive LinePhase.Twin (stepped : Bool) (host : Host) (now k : Nat) :
    LinePhase → LinePhase → Prop
  | flying {j : Job} {e : Bool} {f g : Flight}
    (hblind : stepped = true → j.command.Blind) (hflight : f.Twin host now k g) :
    Twin stepped host now k (.flying j f) (.flying { j with entered := e } g)
  | resting {j : Job} {e : Bool} {until_ : Nat}
    (hblind : stepped = true → j.command.Blind) :
    Twin stepped host now k (.resting j until_) (.resting { j with entered := e } (until_ + k))
  | presenting {w : Work} {until_ : Nat} {verdict : Except Failure Unit} :
    Twin stepped host now k (.presenting w until_ verdict) (.presenting w (until_ + k) verdict)
  | switching {w : Work} {caller : Run} {script : String} {recovered : Bool} :
    Twin stepped host now k (.switching w caller script recovered)
      (.switching w caller script recovered)

/-- The phase of a line stays the same while time passes. -/
lemma LinePhase.Twin.tick {stepped : Bool} {host : Host} {now k : Nat} {a b : LinePhase}
    (h : LinePhase.Twin stepped host now k a b) : LinePhase.Twin stepped host (now + 1) k a b := by
  cases h with
  | flying hblind hflight =>
    obtain ⟨⟨t, ht, hsince⟩, hdone, hlimit, hverdict⟩ := hflight
    exact .flying hblind ⟨⟨t, Nat.le_succ_of_le ht, hsince⟩, hdone, hlimit, hverdict⟩
  | resting hblind => exact .resting hblind
  | presenting => exact .presenting
  | switching => exact .switching

namespace Player

variable {stepped : Bool} {k : Nat} {p q : Player} {run : Run} {w : Work} {j : Job}
  {e : Bool} {f g : Flight}

/-- Twins in the same phase of a line, or at the same end of it. -/
inductive LineTwin (stepped : Bool) (k : Nat) :
    Player × LineProgress → Player × LineProgress → Prop
  | goes {p q : Player} {a b : LinePhase} (h : Twin stepped k p q)
    (hline : a.Twin stepped p.host p.now k b) : LineTwin stepped k (p, .goes a) (q, .goes b)
  | ends {p q : Player} {by_ : LineEnd} (h : Twin stepped k p q) :
    LineTwin stepped k (p, .ends by_) (q, .ends by_)

namespace Twin

/-- A timer goes off later for the twin. -/
lemma timer (h : Twin stepped k p q) (span : Span) : q.timer span = p.timer span + k := by
  simp only [Player.timer, h.later]
  omega

lemma policy (h : Twin stepped k p q) (type : String) :
    p.host.policy type = q.host.policy type := by
  rw [h.host_eq]

/-! ### The end of a line -/

lemma closeLine (h : Twin stepped k p q) (by_ : LineEnd) :
    LineTwin stepped k (p.closeLine w by_) (q.closeLine w by_) := by
  have hprogress : p.context.progress = q.context.progress :=
    (congrArg Context.progress h.context_eq :
      p.context.essence.progress = q.context.essence.progress)
  have hpublished : Twin stepped k p.publishProgress q.publishProgress := by
    unfold publishProgress
    rw [h.run_eq, hprogress]
    exact h.publish _
  exact .ends (hpublished.of_alike alike_applyPause alike_applyPause)

/-- The repetitions of a line that are used up are forgotten. -/
lemma forget (h : Twin stepped k p q) (index : Nat) :
    Twin stepped k { p with spent := p.spent.forget index }
      { q with spent := q.spent.forget index } where
  essence := congrArg (fun r : Player => { r with spent := r.spent.forget index }) h.essence
  story := h.story
  setting := h.setting

/-- Another repetition of a line is used up. -/
lemma bump (h : Twin stepped k p q) (index : Nat) :
    Twin stepped k { p with spent := p.spent.bump index }
      { q with spent := q.spent.bump index } where
  essence := congrArg (fun r : Player => { r with spent := r.spent.bump index }) h.essence
  story := h.story
  setting := h.setting

/-- A recovery has succeeded. -/
lemma recordSuccess (h : Twin stepped k p q) :
    Twin stepped k { p with recovery := p.recovery.recordSuccess }
      { q with recovery := q.recovery.recordSuccess } where
  essence :=
    congrArg (fun r : Player => { r with recovery := r.recovery.recordSuccess }) h.essence
  story := h.story
  setting := h.setting

/-- The line is counted as finished, and the cursor moves on. -/
lemma moveOn (h : Twin stepped k p q) (index next : Nat) :
    Twin stepped k { p with context := (p.context.lineFinished index).moveTo next }
      { q with context := (q.context.lineFinished index).moveTo next } := by
  have hmoved : ∀ c : Context,
      ((c.lineFinished index).moveTo next).essence = c.essence.moveTo next :=
    fun c => congrArg (·.moveTo next) (Context.essence_lineFinished (c := c) index)
  have hscene : ∀ c : Context, ((c.lineFinished index).moveTo next).scene = c.scene :=
    fun c => Context.scene_lineFinished (c := c) index
  refine h.withContext ?_ (hscene _) (hscene _)
  rw [hmoved, hmoved, h.context_eq]

lemma closeFailed (h : Twin stepped k p q) (fault : Fault) :
    LineTwin stepped k (p.closeFailed w fault) (q.closeFailed w fault) := by
  have hforgot := h.forget w.index
  unfold Player.closeFailed passOver
  dsimp only
  rw [hforgot.tolerance_eq]
  split
  · exact ((hforgot.publish (.lineFailed w.index fault)).moveOn w.index (w.index + 1)).closeLine _
  · exact hforgot.closeLine _

lemma closeDone (h : Twin stepped k p q) (recovered : Bool) (by_ : LineEnd) :
    LineTwin stepped k (p.closeDone w recovered by_) (q.closeDone w recovered by_) := by
  unfold Player.closeDone
  dsimp only
  split
  · exact h.recordSuccess.closeLine _
  · exact h.closeLine _

/-! ### Flow actions -/

lemma applyFlow (h : Twin stepped k p q) (flow : Flow) (recovered : Bool) :
    LineTwin stepped k (p.applyFlow w flow recovered) (q.applyFlow w flow recovered) := by
  have hresolve : (p.context.resolve flow).map (fun x => (x.1, x.2.essence)) =
      (q.context.resolve flow).map fun x => (x.1, x.2.essence) := by
    rw [← Context.essence_resolve, ← Context.essence_resolve, h.context_eq]
  unfold Player.applyFlow
  cases hp : p.context.resolve flow with
  | error fault =>
    cases hq : q.context.resolve flow with
    | error fault' =>
      rw [hp, hq] at hresolve
      cases hresolve
      exact h.closeFailed _
    | ok x =>
      rw [hp, hq] at hresolve
      cases hresolve
  | ok x =>
    cases hq : q.context.resolve flow with
    | error fault =>
      rw [hp, hq] at hresolve
      cases hresolve
    | ok y =>
      obtain ⟨resolution, c⟩ := x
      obtain ⟨resolution', d⟩ := y
      rw [hp, hq] at hresolve
      obtain ⟨rfl, hessence⟩ := Prod.mk.inj (Except.ok.inj hresolve)
      have hmoved : Twin stepped k { p with context := c } { q with context := d } :=
        h.withContext hessence (Context.scene_of_resolve hp) (Context.scene_of_resolve hq)
      dsimp only
      cases resolution with
      | advance =>
        have hessence' : c.advance.essence = d.advance.essence :=
          congrArg Context.advance hessence
        exact (hmoved.withContext hessence' rfl rfl).closeDone _ _
      | jumped | returned | stop | completed => exact hmoved.closeDone _ _
      | call script =>
        have hloader : p.host.loader = q.host.loader := by rw [h.host_eq]
        have hline : LinePhase.Twin stepped p.host p.now k (.switching w p.run script recovered)
            (.switching w q.run script recovered) := by
          rw [h.run_eq]
          exact .switching
        dsimp only
        rw [hloader]
        split
        · exact hmoved.closeFailed _
        · exact .goes hmoved hline

lemma finishLine (h : Twin stepped k p q) (flow : Flow) (recovered : Bool) :
    LineTwin stepped k (p.finishLine w flow recovered) (q.finishLine w flow recovered) := by
  have hforgot := h.forget w.index
  have hcounted : Twin stepped k
      { p with
        context := p.context.recordLine.lineFinished w.index
        spent := p.spent.forget w.index }
      { q with
        context := q.context.recordLine.lineFinished w.index
        spent := q.spent.forget w.index } := by
    refine hforgot.withContext ?_ ?_ ?_
    · rw [Context.essence_lineFinished, Context.essence_lineFinished]
      exact congrArg Context.recordLine h.context_eq
    · exact Context.scene_lineFinished _
    · exact Context.scene_lineFinished _
  exact (hcounted.publish _).applyFlow _ _


/-! ### Calls -/

/-- Twins continue in a script. -/
lemma enter {caller : Run} {name : String} {script : Script} {labels : Table Nat}
    (h : Twin stepped k p q) (hblind : stepped = true → script.Blind) :
    Twin stepped k (p.enter caller name script labels) (q.enter caller name script labels) := by
  have hswitched : Twin stepped k
      { p with context := p.context.switchTo script labels, attempts := {} }
      { q with context := q.context.switchTo script labels, attempts := {} } := by
    refine ⟨?_, h.story, ?_⟩
    · exact congrArg (fun r : Player =>
        { r with context := r.context.switchTo script labels, attempts := {} }) h.essence
    · exact
        { later := h.setting.later
          evenly := h.setting.evenly
          blind := fun hstepped =>
            ⟨fun s hs => Option.some.inj hs ▸ hblind hstepped, (h.setting.blind hstepped).loads⟩
          even := fun hunstepped => (h.setting.even hunstepped).of_eq rfl rfl rfl rfl rfl rfl }
  have hset := hswitched.setCheckpoint
  have hserial := congrArg Player.serial hset.essence
  unfold Player.enter
  dsimp only
  generalize Player.setCheckpoint
    { p with context := p.context.switchTo script labels, attempts := {} } = p' at hset hserial
  generalize Player.setCheckpoint
    { q with context := q.context.switchTo script labels, attempts := {} } = q' at hset hserial
  have hserial' : p'.serial = q'.serial := hserial
  have hnumbered : Twin stepped k
      { p' with spent := {}, run := caller.child p'.serial, serial := p'.serial + 1 }
      { q' with spent := {}, run := caller.child q'.serial, serial := q'.serial + 1 } := by
    refine ⟨?_, hset.story, hset.setting⟩
    exact congrArg (fun r : Player =>
      { r with spent := {}, run := caller.child r.serial, serial := r.serial + 1 }) hset.essence
  have hchild : caller.child p'.serial = caller.child q'.serial := by rw [hserial']
  have hpublished := hnumbered.publish (r := caller.child q'.serial) (.scriptStarted name)
  rw [← hchild] at hpublished ⊢
  exact hpublished

lemma switchScript {caller : Run} {script : String} (h : Twin stepped k p q) (recovered : Bool) :
    LineTwin stepped k (p.switchScript w caller script recovered)
      (q.switchScript w caller script recovered) := by
  have hfetch : p.fetch w script = q.fetch w script := by
    unfold fetch
    rw [h.host_eq, h.tolerance_eq]
  unfold Player.switchScript
  rw [hfetch]
  split
  · exact h.closeFailed _
  · next s labels hs =>
    refine (h.enter fun hstepped => ?_).closeDone _ _
    rw [← hfetch] at hs
    unfold fetch at hs
    split at hs
    · cases hs
    · next load hload =>
      split at hs
      · cases hs
      · next loaded hloaded =>
        dsimp only at hs
        split at hs
        · cases hs
        · cases hs
          exact (h.setting.blind hstepped).loads load hload _ _ hloaded

/-! ### Failures -/

lemma handleFault (h : Twin stepped k p q) (fault : Fault) (policy : Policy) :
    LineTwin stepped k (p.handleFault w fault policy) (q.handleFault w fault policy) := by
  have hcount : q.spent.count w.index = p.spent.count w.index :=
    (congrArg (·.spent.count w.index) h.essence : p.essence.spent.count w.index =
      q.essence.spent.count w.index).symm
  have hessence : p.recovery.essence = q.recovery.essence := congrArg Player.recovery h.essence
  obtain ⟨x, hx⟩ : ∃ x, x = p.recovery.plan fault policy (p.spent.count w.index)
    p.tolerance.maxRecoveries := ⟨_, rfl⟩
  obtain ⟨y, hy⟩ : ∃ y, y = q.recovery.plan fault policy (q.spent.count w.index)
    q.tolerance.maxRecoveries := ⟨_, rfl⟩
  have hxy : (x.1.essence, x.2.essence) = (y.1.essence, y.2.essence) := by
    rw [hx, hy, ← Recovery.essence_plan, ← Recovery.essence_plan, hessence, h.tolerance_eq, hcount]
  obtain ⟨hplan, hrecovery⟩ := Prod.mk.inj hxy
  obtain ⟨hpkept, hprollback⟩ := p.recovery.plan_spec fault policy (p.spent.count w.index)
    p.tolerance.maxRecoveries
  obtain ⟨hqkept, hqrollback⟩ := q.recovery.plan_spec fault policy (q.spent.count w.index)
    q.tolerance.maxRecoveries
  rw [← hx] at hpkept hprollback
  rw [← hy] at hqkept hqrollback
  have hplanned : Twin stepped k { p with recovery := x.2 } { q with recovery := y.2 } := by
    have hset : ∀ (r : Player) (z : Recovery), z.checkpoint = r.recovery.checkpoint →
        { r with recovery := z }.setting = r.setting := by
      intro r z hz
      simp only [Player.setting, hz]
    refine ⟨?_, h.story, ?_⟩
    · exact congrArg₂ (fun (r : Player) z => { r with recovery := z }) h.essence hrecovery
    · rw [hset p x.2 hpkept, hset q y.2 hqkept]
      exact h.setting
  unfold Player.handleFault
  rw [h.tolerance_eq] at hx ⊢
  split
  · exact h.closeFailed _
  · dsimp only
    rw [← hx, ← hy]
    obtain ⟨plan, recovery⟩ := x
    obtain ⟨plan', recovery'⟩ := y
    dsimp only at hplan hplanned hpkept hprollback hqkept hqrollback ⊢
    cases plan with
    | proceed flow =>
      cases plan' <;> cases hplan
      exact hplanned.finishLine _ _
    | again =>
      cases plan' <;> cases hplan
      exact (hplanned.bump w.index).recordSuccess.closeLine _
    | rollback s =>
      cases plan' with
      | rollback t =>
        have hst : s.essence = t.essence := Plan.rollback.inj hplan
        have hs : recovery.checkpoint = some s := hpkept.trans (hprollback s rfl)
        have ht : recovery'.checkpoint = some t := hqkept.trans (hqrollback t rfl)
        exact ((hplanned.restore hst hs ht).bump w.index).recordSuccess.closeLine _
      | _ => cases hplan
    | halt =>
      cases plan' <;> cases hplan
      exact (hplanned.forget w.index).recordSuccess.closeLine _
    | giveUp =>
      cases plan' <;> cases hplan
      exact hplanned.closeFailed _

/-! ### Commands -/

/-- What is blind sees the same of twins. -/
lemma look_eq {α : Type} {look : View → α} (h : Twin stepped k p q) (index : Nat) (script : String)
    (hblind : stepped = true → ∀ v b, look { v with stepMode := b } = look v) :
    look (p.context.view index script) = look (q.context.view index script) := by
  have hessence : p.context.essence.view index script = q.context.essence.view index script := by
    rw [h.context_eq]
  cases stepped with
  | true =>
    have hbare : ∀ c : Context, look (c.essence.view index script) = look (c.view index script) :=
      fun c => hblind rfl (c.view index script) false
    rw [← hbare p.context, ← hbare q.context, hessence]
  | false =>
    have hback : ∀ c : Context, c.view index script =
        { c.essence.view index script with stepMode := c.stepMode } := fun _ => rfl
    have hsame : q.context.stepMode = p.context.stepMode := (h.setting.even rfl).stepMode
    rw [hback p.context, hback q.context, hessence, hsame]

lemma setVariable (h : Twin stepped k p q) (name : String) (value : Json) :
    Twin stepped k (p.setVariable run name value) (q.setVariable run name value) := by
  have hessence : (p.context.assign name value).essence = (q.context.assign name value).essence :=
    congrArg (·.assign name value) h.context_eq
  exact (h.withContext hessence rfl rfl).publish _

lemma clearVariables (h : Twin stepped k p q) :
    Twin stepped k (p.clearVariables run) (q.clearVariables run) := by
  have hkeys : p.context.vars.keys = q.context.vars.keys :=
    (congrArg (·.vars.keys) h.context_eq :
      p.context.essence.vars.keys = q.context.essence.vars.keys)
  have hessence : p.context.clearVariables.essence = q.context.clearVariables.essence :=
    congrArg Context.clearVariables h.context_eq
  have hpublish : ∀ (names : List String) {p q : Player}, Twin stepped k p q → Twin stepped k
      (names.foldl (fun p name => p.publish run (.variableChanged name none)) p)
      (names.foldl (fun p name => p.publish run (.variableChanged name none)) q) := by
    intro names
    induction names with
    | nil => exact fun h => h
    | cons name names ih => exact fun h => ih (h.publish _)
  unfold Player.clearVariables
  rw [hkeys]
  exact hpublish _ (h.withContext hessence rfl rfl)

lemma applyEffect (h : Twin stepped k p q) (e : Effect) (hblind : stepped = true → e.Blind) :
    Twin stepped k (p.applyEffect w e) (q.applyEffect w e) := by
  cases e with
  | assign name value => exact h.setVariable _ _
  | observe name look =>
    simp only [Player.applyEffect]
    rw [h.look_eq w.index w.script hblind]
    exact h.setVariable _ _
  | clear => exact h.clearVariables
  | push line =>
    have hessence : (p.context.pushFrame ⟨line⟩).essence = (q.context.pushFrame ⟨line⟩).essence :=
      congrArg (·.pushFrame ⟨line⟩) h.context_eq
    exact h.withContext hessence rfl rfl
  | note message =>
    refine ⟨?_, h.story, h.setting⟩
    exact congrArg (fun r : Player =>
      { r with notes := r.notes.push ⟨w.script, w.index, message⟩ }) h.essence

lemma applyEffects (h : Twin stepped k p q) (effects : List Effect)
    (hblind : stepped = true → ∀ e ∈ effects, e.Blind) :
    Twin stepped k (effects.foldl (fun p e => p.applyEffect w e) p)
      (effects.foldl (fun p e => p.applyEffect w e) q) := by
  induction effects generalizing p q with
  | nil => exact h
  | cons e effects ih =>
    refine ih (h.applyEffect e fun hstepped => ?_) fun hstepped e' he' => ?_
    · exact hblind hstepped e List.mem_cons_self
    · exact hblind hstepped e' (List.mem_cons_of_mem _ he')

lemma countAttempt (h : Twin stepped k p q) :
    Twin stepped k (p.countAttempt j) (q.countAttempt { j with entered := e }) := by
  unfold Player.countAttempt
  split
  · refine ⟨?_, h.story, h.setting⟩
    exact congrArg (fun r : Player => { r with attempts := r.attempts.bump j.work.index }) h.essence
  · exact h

lemma launch (h : Twin stepped k p q) (hblind : stepped = true → j.command.Blind) :
    LineTwin stepped k (p.launch j) (q.launch { j with entered := e }) := by
  have hpublished := h.publish (r := j.work.run)
    (.commandExecuting j.work.index j.command.type)
  unfold Player.launch
  dsimp only
  generalize p.publish j.work.run (.commandExecuting j.work.index j.command.type) = p' at *
  generalize q.publish j.work.run (.commandExecuting j.work.index j.command.type) = q' at *
  have hsince : ∃ a ≤ p'.now, p'.stopwatch = p'.host.stopwatch a ∧
      q'.stopwatch = p'.host.stopwatch (a + k) := by
    refine ⟨p'.now, Nat.le_refl _, rfl, ?_⟩
    rw [hpublished.host_eq, ← hpublished.later]
    rfl
  rw [hpublished.isCancelled_eq]
  split
  · exact .goes hpublished (.flying hblind ⟨hsince, rfl, hpublished.later, rfl⟩)
  · have hcount : q'.attempts.count j.work.index = p'.attempts.count j.work.index :=
      (congrArg (·.attempts.count j.work.index) hpublished.essence :
        p'.essence.attempts.count j.work.index = q'.essence.attempts.count j.work.index).symm
    have hattempt : j.command.attempt (p'.attempts.count j.work.index)
          (q'.context.view j.work.index j.work.script) =
        j.command.attempt (p'.attempts.count j.work.index)
          (p'.context.view j.work.index j.work.script) :=
      (hpublished.look_eq _ _ fun hstepped v b => (hblind hstepped).attempt _ v b).symm
    rw [hcount, hattempt]
    have heffects : stepped = true → ∀ e ∈ (j.command.attempt (p'.attempts.count j.work.index)
        (p'.context.view j.work.index j.work.script)).effects, e.Blind :=
      fun hstepped => (hblind hstepped).effects _ _
    generalize j.command.attempt (p'.attempts.count j.work.index)
      (p'.context.view j.work.index j.work.script) = attempt at *
    have hdone := (hpublished.countAttempt (j := j) (e := e)).applyEffects
      (w := j.work) attempt.effects heffects
    have hbearing := bearing_foldl_applyEffect (p'.countAttempt j) j.work attempt.effects
    rw [bearing_countAttempt] at hbearing
    generalize attempt.effects.foldl (fun p e => p.applyEffect j.work e)
      (p'.countAttempt j) = r at *
    have hhost : r.host = p'.host := congrArg (fun b : Bearing => b.rest.host) hbearing
    have hnow : r.now = p'.now := congrArg (fun b : Bearing => b.rest.now) hbearing
    refine .goes hdone (.flying hblind ⟨?_, ?_, ?_, rfl⟩)
    · rw [hhost, hnow]
      exact hsince
    · dsimp only
      cases attempt.pace with
      | lasts span => exact congrArg some (hpublished.timer span)
      | endless => rfl
    · dsimp only
      rw [hpublished.policy]
      exact hpublished.timer _

/-- Attempts of twins end together, and in the same way. -/
lemma landing_eq (h : Twin stepped k p q) (hflight : f.Twin p.host p.now k g) :
    p.landing j f = q.landing { j with entered := e } g := by
  obtain ⟨a, ha, hsince, hsince'⟩ := hflight.since
  have hdone : g.doneAt.any (· ≤ q.now) = f.doneAt.any (· ≤ p.now) := by
    rw [hflight.doneAt, h.later]
    cases f.doneAt <;> simp
  have hlimit : g.limit ≤ q.now ↔ f.limit ≤ p.now := by
    rw [hflight.limit, h.later]
    omega
  have helapsed : q.stopwatch - g.since = p.stopwatch - f.since := by
    have hstopwatch : q.stopwatch = p.host.stopwatch (p.now + k) := by
      rw [h.host_eq, ← h.later]
      rfl
    have hevenly : p.host.RunsEvenly := h.setting.evenly
    rw [hstopwatch, hsince, hsince']
    exact hevenly a p.now ha k
  unfold landing
  rw [h.isCancelled_eq, hdone, helapsed, hflight.verdict]
  simp only [hlimit]

lemma recordAttempt (h : Twin stepped k p q) (result : Except Failure Flow) :
    Twin stepped k (p.recordAttempt j f result)
      (q.recordAttempt { j with entered := e } g result) := by
  have hrecorded : ∀ (r : Player) (ledger : Ledger), Alike r { r with ledger } :=
    fun _ _ => ⟨rfl, rfl, rfl⟩
  have hsampled : ∀ r : Player, Alike r
      (if r.host.measures then
        { r with
          samples := r.samples.push
            (.execution j.work.script j.work.index j.command.type result.toOption.isSome
              j.attempt) }
      else r) := by
    intro r
    split
    · exact ⟨rfl, rfl, rfl⟩
    · exact .refl r
  exact ((h.of_alike (hrecorded p _) (hrecorded q _)).publish _).of_alike (hsampled _) (hsampled _)

/-- A command is counted. -/
lemma recordCommand (h : Twin stepped k p q) :
    Twin stepped k { p with context := p.context.recordCommand }
      { q with context := q.context.recordCommand } :=
  h.withContext (congrArg Context.recordCommand h.context_eq) rfl rfl

/-- Twins draw the same random numbers. -/
lemma backoff (h : Twin stepped k p q) (policy : Policy) (attempt : Nat) :
    (p.backoff policy attempt).1 = (q.backoff policy attempt).1 ∧
      Twin stepped k (p.backoff policy attempt).2 (q.backoff policy attempt).2 := by
  have hdraws : p.draws = q.draws :=
    (congrArg Player.draws h.essence : p.essence.draws = q.essence.draws)
  unfold Player.backoff
  split
  · refine ⟨?_, ?_, h.story, h.setting⟩
    · simp only [h.host_eq, hdraws]
    · exact congrArg (fun r : Player => { r with draws := r.draws + 1 }) h.essence
  · exact ⟨rfl, h⟩

lemma attemptFailed (h : Twin stepped k p q) (hblind : stepped = true → j.command.Blind)
    (failure : Failure) :
    LineTwin stepped k (p.attemptFailed j failure)
      (q.attemptFailed { j with entered := e } failure) := by
  unfold Player.attemptFailed
  dsimp only
  rw [h.policy]
  split
  · obtain ⟨hdelay, hdrawn⟩ := h.backoff (q.host.policy j.command.type) j.attempt
    rw [hdelay]
    refine .goes (hdrawn.publish _) ?_
    have htimer := hdrawn.timer
      (.ofMillis (q.backoff (q.host.policy j.command.type) j.attempt).1)
    rw [htimer]
    exact .resting hblind
  · exact (h.of_alike alike_leaveWaiting alike_leaveWaiting).handleFault _ _

lemma land (h : Twin stepped k p q) (hblind : stepped = true → j.command.Blind)
    (verdict : Except Failure CommandResult) :
    LineTwin stepped k (p.land j f verdict) (q.land { j with entered := e } g verdict) := by
  have hrecorded := h.recordAttempt (j := j) (e := e) (f := f) (g := g)
    (j.command.conclude verdict)
  unfold Player.land
  dsimp only
  generalize p.recordAttempt j f (j.command.conclude verdict) = p' at *
  generalize q.recordAttempt { j with entered := e } g (j.command.conclude verdict) = q' at *
  split
  · exact (hrecorded.recordCommand.of_alike alike_leaveWaiting alike_leaveWaiting).finishLine _ _
  · rw [hrecorded.isCancelled_eq]
    split
    · exact .ends (hrecorded.of_alike alike_leaveWaiting alike_leaveWaiting)
    · exact hrecorded.recordCommand.attemptFailed hblind _

lemma beginCommand {command : Option Command} (h : Twin stepped k p q)
    (hblind : stepped = true → ∀ c, command = some c → c.Blind) :
    LineTwin stepped k (p.beginCommand w command) (q.beginCommand w command) := by
  unfold Player.beginCommand
  split
  · rw [h.policy]
    exact h.handleFault _ _
  · next command =>
    have hmoved := h.of_alike (alike_moveFrom (r := w.run) (a := .playing) (b := .waiting))
      (alike_moveFrom (r := w.run) (a := .playing) (b := .waiting))
    exact hmoved.launch
      (j := { work := w, command, entered := (p.moveFrom w.run .playing .waiting).1, attempt := 1 })
      (e := (q.moveFrom w.run .playing .waiting).1) fun hstepped => hblind hstepped _ rfl

/-! ### Text -/

lemma beginText (h : Twin stepped k p q) (text : String) :
    LineTwin stepped k (p.beginText w text) (q.beginText w text) := by
  have hrefused : (p.prompt && p.isCancelled w.token) = (q.prompt && q.isCancelled w.token) := by
    rw [h.isCancelled_eq, h.prompt_eq]
  have hshown : ∀ (r : Player) (trace : Array Trace), Alike r { r with trace } :=
    fun _ _ => ⟨rfl, rfl, rfl⟩
  have hpresenter : p.host.presenter = q.host.presenter := by rw [h.host_eq]
  unfold Player.beginText
  rw [hpresenter]
  split
  · next shown presenter _ _ =>
    rw [hrefused]
    split
    · exact .ends h
    · rw [h.timer]
      exact .goes (h.of_alike (hshown p _) (hshown q _)) .presenting
  · exact h.finishLine _ _

lemma presented (h : Twin stepped k p q) (verdict : Except Failure Unit) :
    LineTwin stepped k (p.presented w verdict) (q.presented w verdict) := by
  unfold Player.presented
  split
  · exact h.finishLine _ _
  · rw [h.isCancelled_eq]
    split
    · exact .ends h
    · dsimp only
      rw [h.policy]
      exact h.handleFault _ _

/-! ### Phases -/

/-- Twins begin the same line. -/
lemma beginLine (h : Twin stepped k p q) (token : Token) :
    LineTwin stepped k (p.beginLine token) (q.beginLine token) := by
  have hcontext : p.context.settleCursor.essence = q.context.settleCursor.essence := by
    rw [Context.essence_settleCursor, Context.essence_settleCursor, h.context_eq]
  have hsettled : Twin stepped k { p with context := p.context.settleCursor }
      { q with context := q.context.settleCursor } :=
    h.withContext hcontext Context.scene_settleCursor Context.scene_settleCursor
  have hcurrent : p.context.settleCursor.currentLine = q.context.settleCursor.currentLine :=
    (congrArg Context.currentLine hcontext :
      p.context.settleCursor.essence.currentLine = q.context.settleCursor.essence.currentLine)
  have hcursor : p.context.settleCursor.cursor = q.context.settleCursor.cursor :=
    (congrArg Context.cursor hcontext :
      p.context.settleCursor.essence.cursor = q.context.settleCursor.essence.cursor)
  have hname : p.context.settleCursor.scriptName = q.context.settleCursor.scriptName :=
    (congrArg Context.scriptName hcontext :
      p.context.settleCursor.essence.scriptName = q.context.settleCursor.essence.scriptName)
  unfold Player.beginLine
  dsimp only
  generalize { p with context := p.context.settleCursor } = p' at hsettled ⊢
  generalize { q with context := q.context.settleCursor } = q' at hsettled ⊢
  rw [hcursor, hname, h.run_eq]
  cases hline : q.context.settleCursor.currentLine with
  | none =>
    rw [hcurrent, hline]
    exact .ends hsettled
  | some line =>
    have hpline : p.context.settleCursor.currentLine = some line := hcurrent.trans hline
    rw [hpline]
    cases line with
    | command source command =>
      refine (hsettled.publish _).beginCommand fun hstepped c hc => ?_
      obtain ⟨script, hscript, hget⟩ := Option.bind_eq_some_iff.mp hpline
      have hloaded : p.context.script = some script := by
        rw [← hscript]
        exact (congrArg Prod.fst Context.scene_settleCursor).symm
      have hblind := (h.setting.blind hstepped).script script hloaded _
        (List.mem_of_getElem? hget)
      rw [hc] at hblind
      exact hblind
    | text text => exact (hsettled.publish _).beginText _

/-- Twins take a line on together. -/
lemma stepLine {a b : LinePhase} (h : Twin stepped k p q)
    (hline : a.Twin stepped p.host p.now k b) :
    p.stepLine a = (p, .blocked) ∧ q.stepLine b = (q, .blocked) ∨
      LineTwin stepped k (p.stepLine a) (q.stepLine b) := by
  cases hline with
  | @flying j e f g hblind hflight =>
    simp only [Player.stepLine]
    rw [← h.landing_eq (j := j) (e := e) hflight]
    split
    · exact .inr (h.land hblind _)
    · exact .inl ⟨rfl, rfl⟩
  | @resting j e until_ hblind =>
    have htime : until_ + k ≤ q.now ↔ until_ ≤ p.now := by
      rw [h.later]
      omega
    simp only [Player.stepLine]
    rw [h.isCancelled_eq]
    simp only [htime]
    split
    · exact .inr (.ends (h.of_alike alike_leaveWaiting alike_leaveWaiting))
    · split
      · exact .inr (h.launch (j := { j with attempt := Word.next 32 j.attempt }) hblind)
      · exact .inl ⟨rfl, rfl⟩
  | @presenting w until_ verdict =>
    have htime : until_ + k ≤ q.now ↔ until_ ≤ p.now := by
      rw [h.later]
      omega
    have hcancelled : (q.isCancelled w.token && (q.prompt || decide (q.now < until_ + k))) =
        (p.isCancelled w.token && (p.prompt || decide (p.now < until_))) := by
      rw [h.isCancelled_eq, h.prompt_eq, h.later]
      simp only [Nat.add_lt_add_iff_right]
    simp only [Player.stepLine]
    rw [hcancelled]
    simp only [htime]
    split
    · exact .inr (.ends h)
    · split
      · exact .inr (h.presented _)
      · exact .inl ⟨rfl, rfl⟩
  | switching => exact .inr (h.switchScript _)

end Twin

end Player

end Recital

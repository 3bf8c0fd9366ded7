import Recital.Proofs.Player.StateFollows
import Recital.Proofs.Player.RequestStep
import Recital.Proofs.Session.Isolation
import Recital.Proofs.Session.Locks

/-!
# Checks before a wait

Some requests look at the player when they are taken up, wait for the line lock or for the store,
and have their effect without looking again.  A request to skip to a label waits with an index of
the script that was loaded then, a request to restore a snapshot expects the pause that it has
found, and a request to step back expects a playback.

What they have found still holds if nothing happens meanwhile that does away with it: no other
script is put in the place of the loaded one (`Session.KeepsScript`), the playback is neither
stopped nor replaced and does not end (`Session.KeepsPlayback`), or it is moreover neither resumed
nor roused by a single step that comes to the end of the script (`Session.KeepsPause`).  All else
may happen: lines are executed, by the playback or by single steps, snapshots are saved and
restored, the cursor and variables are changed, and other requests come and go.  And if something
does away with it, but it holds again later, as when a playback is resumed and paused again or the
same script is played anew, then it is enough that nothing does so from then on.
-/

namespace Recital

/-! ### Labels -/

/-- The labels are those of the script. -/
def Ground.Indexed (g : Ground) : Prop :=
  ∀ label index, g.labels.get? label = some index →
    ∃ script, g.script = some script ∧ script.survey.labels.get? label = some index

lemma Ground.indexed_of_survey {g : Ground} {script : Script} (hscript : g.script = some script)
    (hlabels : g.labels = ∅ ∨ g.labels = script.survey.labels) : g.Indexed := by
  intro label index hindex
  rcases hlabels with hnone | hsurvey
  · rw [hnone] at hindex
    cases hindex
  · exact ⟨script, hscript, hsurvey ▸ hindex⟩

lemma Ground.Indexed.of_eq {g h : Ground} (hg : g.Indexed) (hscript : h.script = g.script)
    (hlabels : h.labels = g.labels) : h.Indexed := by
  intro label index hindex
  rw [hlabels] at hindex
  rw [hscript]
  exact hg label index hindex

/-- A script is called. -/
def Remark.isCall : Remark → Bool
  | .called _ => true
  | _ => false

section Courses

variable {w : Work} {σ τ : Stage} {g h : Ground} {news : List Event} {remarks : List Remark}

lemma Course.indexed (hcourse : Course w σ g news remarks τ h) (hg : g.Indexed) : h.Indexed := by
  induction hcourse with
  | done => exact hg
  | next hdeed _ ih =>
    refine ih ?_
    cases hdeed with
    | enters => exact Ground.indexed_of_survey rfl (.inr rfl)
    | _ => exact hg

/-- As long as no script is called, the script stays with its labels. -/
lemma Course.uncalled (hcourse : Course w σ g news remarks τ h)
    (hcalls : remarks.any Remark.isCall = false) : h.script = g.script ∧ h.labels = g.labels := by
  induction hcourse with
  | done => exact ⟨rfl, rfl⟩
  | next hdeed _ ih =>
    rw [List.any_append, Bool.or_eq_false_iff] at hcalls
    obtain ⟨hscript, hlabels⟩ := ih hcalls.2
    cases hdeed with
    | enters => cases hcalls.1
    | _ => exact ⟨hscript, hlabels⟩

end Courses

namespace Player

variable {p q r : Player} {id : Nat} {phase : Phase} {x : Player × Progress} {called : Bool}

/-- A script is called in the next step of a request. -/
def calls (p : Player) (id : Nat) (phase : Phase) : Bool :=
  (p.stepRemarks id phase).any Remark.isCall

/-- The labels stay those of the script, and if none is called, script and labels stay the same. -/
structure Shelves (called : Bool) (p q : Player) : Prop where
  indexed : p.ground.Indexed → q.ground.Indexed
  same : called = false →
    q.context.script = p.context.script ∧ q.context.labels = p.context.labels

lemma shelves_of_eq (hscript : q.context.script = p.context.script)
    (hlabels : q.context.labels = p.context.labels) : Shelves called p q :=
  ⟨fun h => h.of_eq hscript hlabels, fun _ => ⟨hscript, hlabels⟩⟩

lemma Shelves.trans (hpq : Shelves called p q) (hqr : Shelves called q r) : Shelves called p r := by
  refine ⟨fun h => hqr.indexed (hpq.indexed h), fun hcalled => ?_⟩
  obtain ⟨hscript, hlabels⟩ := hpq.same hcalled
  obtain ⟨hscript', hlabels'⟩ := hqr.same hcalled
  exact ⟨hscript'.trans hscript, hlabels'.trans hlabels⟩

lemma PublishesPlain.shelves (h : PublishesPlain p q) : Shelves called p q :=
  shelves_of_eq ((congrArg Ground.script h.ground).trans rfl)
    ((congrArg Ground.labels h.ground).trans rfl)

lemma Finished.shelves {report : Report} (h : Finished report p x) : Shelves called p x.1 :=
  shelves_of_eq (congrArg Ground.script h.ground) (congrArg Ground.labels h.ground)

lemma PlaysNoLine.shelves {token : Token} (h : PlaysNoLine token p x) : Shelves called p x.1 := by
  cases h with
  | goes _ _ _ hq => exact hq.shelves
  | ends hx => exact hx.shelves

lemma Introduces.shelves {run : Run} {name : String} (h : Introduces run name p q) :
    Shelves called p q :=
  shelves_of_eq ((congrArg Ground.script h.ground).trans rfl)
    ((congrArg Ground.labels h.ground).trans rfl)

lemma Pursues.shelves {w : Work} {σ τ : Stage} {remarks : List Remark}
    (h : Pursues w σ p remarks τ q) : Shelves (remarks.any Remark.isCall) p q := by
  obtain ⟨news, hcourse, -⟩ := h.course
  exact ⟨hcourse.indexed, hcourse.uncalled⟩

/-- Who has passed the gate to play gets the labels of the script. -/
lemma Prepares.indexed {script : Script} (h : Prepares script p q) : q.ground.Indexed :=
  Ground.indexed_of_survey h.script h.labels

/-- Script and labels after a step that does not pass the gate. -/
lemma shelves_step (id : Nat) (hready : (p.step id phase).2 ≠ .blocked)
    (hgate : ¬ Enters id p phase) : Shelves (p.calls id phase) p (p.step id phase).1 := by
  obtain ⟨σ, hproceeds⟩ := exists_proceeds_step id phase p hready
  generalize p.step id phase = x at hproceeds
  cases hproceeds with
  | flies _ hq => exact hq.shelves
  | plays _ hq => exact hq.shelves.trans playsNoLine_afterLine.shelves
  | steps _ hq _ hr => exact hq.shelves.trans hr.shelves
  | playsNoLine _ _ _ hx => exact hx.shelves
  | @starts token run name until_ hphase =>
    rcases p.startLines_cases id token run name with ⟨r, hr⟩ | ⟨q, hq, hx⟩
    · exact hr.shelves
    · exact hq.shelves.trans hx.shelves
  | enrolls hphase hheld =>
    refine absurd ?_ hgate
    rw [hphase]
    exact hheld
  | resets hphase hheld =>
    refine absurd ?_ hgate
    rw [hphase]
    exact hheld
  | tends _ _ hx =>
    cases hx with
    | goes hq | ends hq | stores _ hq => exact hq.shelves
    | restores _ _ _ _ _ hground =>
      exact shelves_of_eq ((congrArg Ground.script hground).trans rfl)
        ((congrArg Ground.labels hground).trans rfl)
    | closes => exact shelves_of_eq rfl rfl

/-- The labels are those of the script after every step. -/
lemma indexed_step (id : Nat) (hready : (p.step id phase).2 ≠ .blocked)
    (h : p.ground.Indexed) : (p.step id phase).1.ground.Indexed := by
  by_cases hgate : Enters id p phase
  · cases phase with
    | playGate script start bound =>
      have hheld : p.gate.isHeldBy id = true := hgate
      have hx : Enrolls script bound p (p.step id (.playGate script start bound)) :=
        enrolls_step hheld
      generalize p.step id (.playGate script start bound) = x at hx
      cases hx with
      | refused => exact h
      | ends hq _ hx =>
        have hshelves : Shelves true _ _ := hx.shelves
        exact hshelves.indexed hq.indexed
      | waits hq => exact hq.indexed
      | starts hq _ hr hx =>
        have hshelves : Shelves true _ _ := hr.shelves.trans hx.shelves
        exact hshelves.indexed hq.indexed
    | resetGate =>
      have hheld : p.gate.isHeldBy id = true := hgate
      simp only [step]
      rw [if_pos hheld]
      intro _ _ hnone
      cases hnone
    | _ => exact hgate.elim
  · exact (shelves_step id hready hgate).indexed h

/-- A call leaves script and labels alone. -/
lemma shelves_perform (c : Call) : Shelves false p (p.perform c) :=
  (pursues_perform (w := ⟨0, "", "", p.run, ⟨0, false⟩⟩) (σ := .started) c).shelves

/-! ### Effects -/

/-- The cursor was moved to the index, and the script is the same. -/
lemma skip_done {index : Nat} (h : (p.step id (.skipLock index)).2 = .ends .done) :
    (p.step id (.skipLock index)).1.context = p.context.moveTo index := by
  simp only [step] at h ⊢
  split at h
  · next hheld =>
    rw [if_pos hheld]
    unfold skip at h ⊢
    split at h
    · cases h
    · next hloaded =>
      rw [if_neg hloaded]
      split at h
      · cases h
      · next hlt =>
        rw [if_neg hlt]
        rfl
  · cases h

/-- The snapshot was restored. -/
lemma restore_done {s : Snapshot} (h : (p.step id (.restoreLock s)).2 = .ends .done) :
    (p.step id (.restoreLock s)).1.context = p.context.restore s := by
  simp only [step] at h ⊢
  split at h
  · next hheld =>
    rw [if_pos hheld]
    unfold restoreSnapshot at h ⊢
    split at h
    · cases h
    · split at h
      · cases h
      · next hsame =>
        split at h
        · cases h
        · next hlt =>
          rw [if_neg hsame, if_neg hlt]
          rfl
  · cases h

end Player

namespace Session

variable {s₀ s s' : Session} {a : Action} {t u : Task} {n : Nat} {answer : Answer}
  {allowed : Session → Action → Prop}

/-! ### Sessions -/

/-- Who has a line has the line lock. -/
lemma isHeldBy_of_line {line : LinePhase} (hs : s.Attentive) (ht : t ∈ s.tasks)
    (hline : t.phase.line? = some line) : s.player.lineLock.isHeldBy t.id = true := by
  refine hs.line.holds t ht ?_
  unfold Phase.holdsLine
  rw [hline]
  rfl

/-- The locks are in order, the state is `waiting` for a line in flight, and the labels are those of
the script. -/
structure Composed (s : Session) : Prop where
  attentive : s.Attentive
  waiting : s.player.state = .waiting →
    ∃ t ∈ s.tasks, ∃ line, t.phase.line? = some line ∧ line.entered = true
  indexed : s.player.ground.Indexed

namespace Composed

lemma created {host : Host} {bus : Bus} {store : Option Store} :
    Composed { player := .create host bus store } where
  attentive := .created
  waiting h := State.noConfusion h
  indexed _ _ hnone := nomatch hnone

/-- A step of a request. -/
lemma go (h : s.Composed) {x : Player × Progress} (hmoved : s.Moved s' t x)
    (hattentive : s'.Attentive) : s'.Composed := by
  have hready : (s.player.step t.id t.phase).2 ≠ .blocked := hmoved.step ▸ hmoved.ready
  have hindexed := Player.indexed_step t.id hready h.indexed
  have hfollows := Player.stateFollows_step t.id t.phase s.player hready
  rw [hmoved.step] at hindexed hfollows
  refine ⟨hattentive, fun hwaiting => ?_, hmoved.player ▸ hindexed⟩
  rw [hmoved.player] at hwaiting
  rcases hfollows.waiting hwaiting with ⟨next, line, hgoes, hline, hentered⟩ | ⟨hbefore, hown⟩
  · exact ⟨_, hmoved.mem_next hgoes, line, hline, hentered⟩
  · -- Another request has the line in flight.
    obtain ⟨u, hu, line, hline, hentered⟩ := h.waiting hbefore
    have hne : u ≠ t := by
      rintro rfl
      cases hentered.symm.trans (hown line hline)
    exact ⟨u, hmoved.mem_of_ne hu hne, line, hline, hentered⟩

lemma does (h : s.Composed) (hdoes : s.Does a s') : s'.Composed := by
  have hattentive := h.attentive.does hdoes
  cases a with
  | submit id r =>
    cases hdoes
    refine ⟨hattentive, fun hwaiting => ?_, h.indexed⟩
    obtain ⟨t, ht, hline⟩ := h.waiting hwaiting
    exact ⟨t, List.mem_append_left _ ht, hline⟩
  | call c =>
    cases hdoes
    refine ⟨hattentive, fun hwaiting => ?_, (Player.shelves_perform c).indexed h.indexed⟩
    refine h.waiting ?_
    have hsteers := Player.steers_perform (p := s.player) (c := c)
    have hwaits : (s.player.perform c).state = .waiting := hwaiting
    generalize s.player.perform c = q at hsteers hwaits
    cases hsteers with
    | pauses _ hq | resumes _ hq | stops hq => cases hq.symm.trans hwaits
    | asks hstate => exact hstate
    | unasks hq | keeps hq => exact hq.symm.trans hwaits
  | go id =>
    obtain ⟨t, x, -, hmoved⟩ := hdoes.moved
    exact h.go hmoved hattentive
  | wait now =>
    cases hdoes
    exact ⟨hattentive, h.waiting, h.indexed⟩

lemma evolves {allowed : Action → Prop} (h : s.Composed) (hs : s.Evolves allowed s') :
    s'.Composed := by
  induction hs with
  | refl => exact h
  | tail _ hmay ih =>
    obtain ⟨a, -, hdoes⟩ := hmay
    exact ih.does hdoes

lemma reaches (h : s.Composed) (hs : s.Reaches allowed s') : s'.Composed := by
  induction hs with
  | refl => exact h
  | tail _ hmay ih =>
    obtain ⟨a, -, hdoes⟩ := hmay
    exact ih.does hdoes

/-- Who has the line lock without a line finds no command in flight. -/
lemma ne_waiting (h : s.Composed) (ht : t ∈ s.tasks) (hline : t.phase.line? = none)
    (hheld : s.player.lineLock.isHeldBy t.id = true) : s.player.state ≠ .waiting := by
  intro hwaiting
  obtain ⟨u, hu, line, hother, -⟩ := h.waiting hwaiting
  obtain rfl : u = t := List.inj_on_of_nodup_map h.attentive.distinct hu ht
    (Lock.isHeldBy_unique (isHeldBy_of_line h.attentive hu hother) hheld)
  cases hline.symm.trans hother

end Composed

/-! ### Waits -/

/-- No other script is put in the place of the loaded one: no line calls one, and no request passes
the gate to play or to reset. -/
def KeepsScript (s : Session) : Action → Prop
  | .go id => ∀ t ∈ s.tasks, t.id = id →
    ¬ Player.Enters id s.player t.phase ∧ s.player.calls id t.phase = false
  | _ => True

/-- The playback is neither stopped nor replaced, and it does not end. -/
def KeepsPlayback (s : Session) : Action → Prop
  | .go id => ∀ t ∈ s.tasks, t.id = id → Player.Abides id s.player t.phase
  | .call .stop => False
  | _ => True

/-- The playback is neither stopped nor replaced, it does not end, and it is neither resumed nor
roused by a single step. -/
def KeepsPause (s : Session) : Action → Prop
  | .go id => ∀ t ∈ s.tasks, t.id = id →
    Player.Abides id s.player t.phase ∧ s.player.defers id t.phase = false
  | .call .stop | .call .resume => False
  | _ => True

/-- The request with a number is not answered. -/
def Leaves (n : Nat) (s : Session) : Action → Prop
  | .go id => id = n → ∀ t ∈ s.tasks, t.id = n →
    ∀ answer, (s.player.step n t.phase).2 ≠ .ends answer
  | _ => True

/-- What is allowed happens while the request with a number waits. -/
def Awaits (n : Nat) (allowed : Session → Action → Prop) : Session → Session → Prop :=
  Reaches fun s a => Leaves n s a ∧ allowed s a

/-- The request with a number makes its last step. -/
def Answers (s : Session) (n : Nat) (answer : Answer) (s' : Session) : Prop :=
  s.Does (.go n) s' ∧ s'.ended = s.ended.push ⟨n, s'.player.now, answer⟩

/-- The last step of a request gives the answer. -/
lemma Answers.step (h : s.Answers n answer s') (hdistinct : s.Distinct) (hu : u ∈ s.tasks)
    (hid : u.id = n) : s.player.step n u.phase = (s'.player, .ends answer) := by
  obtain ⟨hdoes, hended⟩ := h
  obtain ⟨t, x, ht, hmoved⟩ := hdoes.moved
  obtain rfl : u = t := List.inj_on_of_nodup_map hdistinct hu hmoved.mem (hid.trans ht.symm)
  have hstep := hmoved.step
  have hsame := hmoved.ended.symm.trans hended
  have hplayer := hmoved.player
  rw [hid] at hstep hsame
  rw [hstep, hplayer]
  obtain ⟨q, progress⟩ := x
  have hnone : s.ended ≠ s.ended.push ⟨n, s'.player.now, answer⟩ := fun heq => by
    simpa using congrArg Array.size heq
  cases progress with
  | blocked => exact absurd hsame hnone
  | goes next => exact absurd hsame hnone
  | ends given =>
    have hgiven := (Array.push_eq_push.mp hsame).1
    rw [show given = answer from congrArg Ending.answer hgiven]

/-- What a request has found is kept while it waits, if it is kept by all that is allowed and by its
own steps. -/
lemma Awaits.keeps (found : Player → Phase → Prop)
    (hallowed : ∀ {s s' : Session} {a : Action} {phase : Phase}, allowed s a → s.Does a s' →
      found s.player phase → found s'.player phase)
    (hgoes : ∀ {p : Player} {phase next : Phase}, found p phase →
      (p.step n phase).2 = .goes next → found (p.step n phase).1 next)
    (hs : s₀.Awaits n allowed s) (ht : t ∈ s₀.tasks) (hid : t.id = n)
    (hfound : found s₀.player t.phase) : ∃ u ∈ s.tasks, u.id = n ∧ found s.player u.phase := by
  induction hs with
  | refl => exact ⟨t, ht, hid, hfound⟩
  | @tail s s' _ hmay ih =>
    obtain ⟨u, hu, hnumber, hfinds⟩ := ih
    obtain ⟨a, ⟨hleaves, hallows⟩, hdoes⟩ := hmay
    have hkept := hallowed hallows hdoes hfinds
    cases a with
    | submit =>
      cases hdoes
      exact ⟨u, List.mem_append_left _ hu, hnumber, hkept⟩
    | call =>
      cases hdoes
      exact ⟨u, hu, hnumber, hkept⟩
    | wait =>
      cases hdoes
      exact ⟨u, hu, hnumber, hkept⟩
    | go id =>
      obtain ⟨v, x, hv, hmoved⟩ := hdoes.moved
      by_cases hne : u = v
      · obtain rfl := hne
        have hstep := hmoved.step
        rw [hnumber] at hstep
        have hready : (s.player.step n u.phase).2 ≠ .blocked := hstep ▸ hmoved.ready
        cases hprogress : (s.player.step n u.phase).2 with
        | blocked => exact absurd hprogress hready
        | ends answer =>
          exact absurd hprogress (hleaves (hv.symm.trans hnumber) u hu hnumber answer)
        | goes next =>
          have hgone : x.2 = .goes next := hstep ▸ hprogress
          refine ⟨_, hmoved.mem_next hgone, hnumber, ?_⟩
          rw [hmoved.player, ← hstep]
          exact hgoes hfinds hprogress
      · exact ⟨u, hmoved.mem_of_ne hu hne, hnumber, hkept⟩

/-! ### What is kept -/

/-- The labels are the same. -/
lemma KeepsScript.labels (h : s.KeepsScript a) (hdoes : s.Does a s') :
    s'.player.context.labels = s.player.context.labels := by
  cases a with
  | submit | wait =>
    cases hdoes
    rfl
  | call c =>
    cases hdoes
    exact ((Player.shelves_perform c).same rfl).2
  | go id =>
    obtain ⟨t, x, ht, hmoved⟩ := hdoes.moved
    obtain ⟨hgate, hcalls⟩ := h t hmoved.mem ht
    have hready : (s.player.step t.id t.phase).2 ≠ .blocked := hmoved.step ▸ hmoved.ready
    rw [← ht] at hgate hcalls
    have hshelves := Player.shelves_step t.id hready hgate
    rw [hmoved.step] at hshelves
    rw [hmoved.player]
    exact (hshelves.same hcalls).2

/-- A step that keeps the playback. -/
lemma lasts_of_abides {x : Player × Progress} (hmoved : s.Moved s' t x)
    (habides : Player.Abides t.id s.player t.phase) :
    State.Lasts (s.player.defers t.id t.phase) s.player.state s'.player.state := by
  have hready : (s.player.step t.id t.phase).2 ≠ .blocked := hmoved.step ▸ hmoved.ready
  have hlasts := (Player.stateFollows_step t.id t.phase s.player hready).lasts habides.1 habides.2.1
    habides.2.2
  rwa [hmoved.step, ← hmoved.player] at hlasts

/-- The playback stays under way. -/
lemma KeepsPlayback.underway (h : s.KeepsPlayback a) (hdoes : s.Does a s')
    (hunder : s.player.state.isUnderway = true) : s'.player.state.isUnderway = true := by
  cases a with
  | submit | wait =>
    cases hdoes
    exact hunder
  | call c =>
    cases hdoes
    have hsteers := Player.steers_perform (p := s.player) (c := c)
    show (s.player.perform c).state.isUnderway = true
    generalize s.player.perform c = q at hsteers
    cases hsteers with
    | pauses _ hq | asks _ hq | resumes _ hq => rw [hq]; rfl
    | stops => exact h.elim
    | unasks hq | keeps hq => rw [hq]; exact hunder
  | go id =>
    obtain ⟨t, x, ht, hmoved⟩ := hdoes.moved
    have habides := h t hmoved.mem ht
    rw [← ht] at habides
    exact (lasts_of_abides hmoved habides).underway hunder

/-- The playback stays paused. -/
lemma KeepsPause.paused (h : s.KeepsPause a) (hdoes : s.Does a s')
    (hpaused : s.player.state = .paused) : s'.player.state = .paused := by
  cases a with
  | submit | wait =>
    cases hdoes
    exact hpaused
  | call c =>
    cases hdoes
    have hsteers := Player.steers_perform (p := s.player) (c := c)
    show (s.player.perform c).state = .paused
    generalize s.player.perform c = q at hsteers
    cases hsteers with
    | pauses _ hq => exact hq
    | asks hstate => cases hpaused.symm.trans hstate
    | stops | resumes | unasks => exact h.elim
    | keeps hq => exact hq.trans hpaused
  | go id =>
    obtain ⟨t, x, ht, hmoved⟩ := hdoes.moved
    obtain ⟨habides, hcalm⟩ := h t hmoved.mem ht
    rw [← ht] at habides hcalm
    exact (lasts_of_abides hmoved habides).paused hcalm hpaused

/-! ### What has been found -/

/-- A request to skip to a label is to be taken up, or it waits with the index that the label
has. -/
def FindsLabel (label : String) (p : Player) (phase : Phase) : Prop :=
  phase = .entering (.skipToLabel label) ∨
    ∃ index, phase = .skipLock index ∧ p.context.labels.get? label = some index

/-- A request to restore a snapshot is to be taken up, or it waits in a pause. -/
def FindsPause (key : String) (p : Player) (phase : Phase) : Prop :=
  phase = .entering (.loadState key) ∨
    p.state = .paused ∧ (phase = .fetching key true ∨ ∃ s, phase = .restoreLock s)

/-- A request to step back is to be taken up, or it waits in a playback. -/
def FindsPlayback (p : Player) (phase : Phase) : Prop :=
  phase = .entering .stepBackward ∨ p.state.isUnderway = true ∧ phase = .backLock

lemma FindsLabel.of_labels {label : String} {p q : Player} {phase : Phase}
    (h : FindsLabel label p phase) (hlabels : q.context.labels = p.context.labels) :
    FindsLabel label q phase := by
  unfold FindsLabel
  rw [hlabels]
  exact h

lemma FindsPause.of_paused {key : String} {p q : Player} {phase : Phase}
    (h : FindsPause key p phase)
    (hpaused : p.state = .paused → q.state = .paused) : FindsPause key q phase :=
  h.imp_right fun hfound => ⟨hpaused hfound.1, hfound.2⟩

lemma FindsPlayback.of_underway {p q : Player} {phase : Phase} (h : FindsPlayback p phase)
    (hunder : p.state.isUnderway = true → q.state.isUnderway = true) : FindsPlayback q phase :=
  h.imp_right fun hfound => ⟨hunder hfound.1, hfound.2⟩

lemma FindsLabel.goes {label : String} {p : Player} {phase next : Phase}
    (h : FindsLabel label p phase) (hgoes : (p.step n phase).2 = .goes next) :
    FindsLabel label (p.step n phase).1 next := by
  rcases h with rfl | ⟨index, rfl, -⟩
  · simp only [Player.step, Player.accept, Player.requestLabel] at hgoes ⊢
    split at hgoes
    · cases hgoes
    · next hloaded =>
      rw [if_neg hloaded]
      split at hgoes
      · cases hgoes
      · next index hindex =>
        cases hgoes
        exact .inr ⟨index, rfl, hindex⟩
  · simp only [Player.step] at hgoes
    split at hgoes
    · unfold Player.skip at hgoes
      split at hgoes
      · cases hgoes
      · split at hgoes <;> cases hgoes
    · cases hgoes

lemma FindsPause.goes {key : String} {p : Player} {phase next : Phase}
    (h : FindsPause key p phase) (hgoes : (p.step n phase).2 = .goes next) :
    FindsPause key (p.step n phase).1 next := by
  rcases h with rfl | ⟨hpaused, rfl | ⟨s, rfl⟩⟩
  · simp only [Player.step, Player.accept] at hgoes ⊢
    split at hgoes
    · cases hgoes
    · next hstate =>
      have hpaused : p.state = .paused := by simpa using hstate
      rw [if_neg hstate]
      unfold Player.requestSnapshot at hgoes ⊢
      split at hgoes
      · cases hgoes
      · next hstore =>
        rw [if_neg hstore]
        cases hgoes
        exact .inr ⟨hpaused, .inl rfl⟩
  · simp only [Player.step, Player.fetchSnapshot] at hgoes ⊢
    split at hgoes
    · cases hgoes
    · next s _ =>
      cases hgoes
      exact .inr ⟨hpaused, .inr ⟨s, rfl⟩⟩
  · simp only [Player.step] at hgoes
    split at hgoes
    · unfold Player.restoreSnapshot at hgoes
      split at hgoes
      · cases hgoes
      · split at hgoes
        · cases hgoes
        · split at hgoes <;> cases hgoes
    · cases hgoes

lemma FindsPlayback.goes {p : Player} {phase next : Phase} (h : FindsPlayback p phase)
    (hgoes : (p.step n phase).2 = .goes next) : FindsPlayback (p.step n phase).1 next := by
  rcases h with rfl | ⟨-, rfl⟩
  · simp only [Player.step, Player.accept, Player.stepRefusal?] at hgoes ⊢
    split at hgoes
    · cases hgoes
    · next hrefusal =>
      cases hgoes
      refine .inr ⟨?_, rfl⟩
      split at hrefusal
      · next hstate => exact congrArg State.isUnderway hstate
      · next hstate => exact congrArg State.isUnderway hstate
      · cases hrefusal
  · simp only [Player.step] at hgoes
    split at hgoes <;> cases hgoes

/-- A request to skip to a label that is done has moved the cursor to the index of the label. -/
lemma FindsLabel.done {label : String} {p : Player} {phase : Phase} (h : FindsLabel label p phase)
    (hdone : (p.step n phase).2 = .ends .done) : ∃ index,
      p.context.labels.get? label = some index ∧
        (p.step n phase).1.context = p.context.moveTo index := by
  rcases h with rfl | ⟨index, rfl, hindex⟩
  · simp only [Player.step, Player.accept, Player.requestLabel] at hdone
    split at hdone
    · cases hdone
    · split at hdone <;> cases hdone
  · exact ⟨index, hindex, Player.skip_done hdone⟩

/-- A request to restore a snapshot that is done has restored it in a pause. -/
lemma FindsPause.done {key : String} {p : Player} {phase : Phase} (h : FindsPause key p phase)
    (hdone : (p.step n phase).2 = .ends .done) : p.state = .paused ∧
      ∃ s, (p.step n phase).1.context = p.context.restore s := by
  rcases h with rfl | ⟨hpaused, rfl | ⟨s, rfl⟩⟩
  · simp only [Player.step, Player.accept, Player.requestSnapshot] at hdone
    split at hdone
    · cases hdone
    · split at hdone <;> cases hdone
  · simp only [Player.step, Player.fetchSnapshot] at hdone
    split at hdone <;> cases hdone
  · exact ⟨hpaused, s, Player.restore_done hdone⟩

/-- A request to step back that moves the cursor does so in a playback, having the line lock. -/
lemma FindsPlayback.moves {p : Player} {phase : Phase} (h : FindsPlayback p phase)
    (hmoves : (p.step n phase).1.context.cursor ≠ p.context.cursor ∨
      ∃ index, (p.step n phase).2 = .ends (.cursor index)) :
    p.state.isUnderway = true ∧ phase.line? = none ∧ p.lineLock.isHeldBy n = true := by
  rcases h with rfl | ⟨hunder, rfl⟩
  · simp only [Player.step, Player.accept] at hmoves
    split at hmoves
    · rcases hmoves with hcursor | ⟨index, hindex⟩
      · exact absurd rfl hcursor
      · cases hindex
    · rcases hmoves with hcursor | ⟨index, hindex⟩
      · exact absurd rfl hcursor
      · cases hindex
  · refine ⟨hunder, rfl, ?_⟩
    simp only [Player.step] at hmoves
    split at hmoves
    · next hheld => exact hheld
    · rcases hmoves with hcursor | ⟨index, hindex⟩
      · exact absurd rfl hcursor
      · cases hindex

/-- What a request has found when it was taken up still holds when it has its effect.  Take any
moment in the life of a player at which a request has been made, or at which what it has found
holds, if only again; and take any later moment at which it is answered.  If the script was kept
meanwhile, a request to skip to a label that is done has put the cursor where the label is in the
script that is loaded.  If the pause was kept, a request to restore a snapshot that is done has
restored one while the playback was paused.  If the playback was kept, a request to step back that
has moved the cursor has done so while the playback was playing or paused. -/
theorem checks_outlast_waits {host : Host} {bus : Bus} {store : Option Store}
    (hs₀ : Evolves (fun _ => True) { player := .create host bus store } s₀) (ht : t ∈ s₀.tasks)
    (hanswers : s.Answers t.id answer s') :
    (∀ label, FindsLabel label s₀.player t.phase → s₀.Awaits t.id KeepsScript s →
      answer = .done → ∃ script index, s'.player.context.script = some script ∧
        script.survey.labels.get? label = some index ∧ s'.player.context.cursor = index) ∧
    (∀ key, FindsPause key s₀.player t.phase → s₀.Awaits t.id KeepsPause s →
      answer = .done → s.player.state = .paused ∧
        ∃ snapshot, s'.player.context = s.player.context.restore snapshot) ∧
    (FindsPlayback s₀.player t.phase → s₀.Awaits t.id KeepsPlayback s →
      s'.player.context.cursor ≠ s.player.context.cursor ∨ (∃ index, answer = .cursor index) →
        s.player.state = .playing ∨ s.player.state = .paused) := by
  have hcomposed : s₀.Composed := Composed.created.evolves hs₀
  refine ⟨fun label hfound hs hdone => ?_, fun key hfound hs hdone => ?_,
    fun hfound hs hmoves => ?_⟩
  · obtain ⟨u, hu, hid, hfinds⟩ := Awaits.keeps (FindsLabel label)
      (fun hkeeps hdoes h => h.of_labels (hkeeps.labels hdoes)) (fun h hgoes => h.goes hgoes)
      hs ht rfl hfound
    have hlast : s.Composed := hcomposed.reaches hs
    have hstep := hanswers.step hlast.attentive.distinct hu hid
    obtain ⟨index, hindex, hmoved⟩ := hfinds.done (n := t.id) (by rw [hstep, hdone])
    obtain ⟨script, hscript, hsurvey⟩ := hlast.indexed label index hindex
    rw [hstep] at hmoved
    refine ⟨script, index, ?_, hsurvey, ?_⟩
    · rw [hmoved]
      exact hscript
    · rw [hmoved]
      rfl
  · obtain ⟨u, hu, hid, hfinds⟩ := Awaits.keeps (FindsPause key)
      (fun hkeeps hdoes h => h.of_paused (hkeeps.paused hdoes)) (fun h hgoes => h.goes hgoes)
      hs ht rfl hfound
    have hlast : s.Composed := hcomposed.reaches hs
    have hstep := hanswers.step hlast.attentive.distinct hu hid
    obtain ⟨hpaused, snapshot, hrestored⟩ := hfinds.done (n := t.id) (by rw [hstep, hdone])
    rw [hstep] at hrestored
    exact ⟨hpaused, snapshot, hrestored⟩
  · obtain ⟨u, hu, hid, hfinds⟩ := Awaits.keeps FindsPlayback
      (fun hkeeps hdoes h => h.of_underway (hkeeps.underway hdoes)) (fun h hgoes => h.goes hgoes)
      hs ht rfl hfound
    have hlast : s.Composed := hcomposed.reaches hs
    have hstep := hanswers.step hlast.attentive.distinct hu hid
    obtain ⟨hunder, hline, hheld⟩ := hfinds.moves (n := t.id) (by
      rw [hstep]
      exact hmoves.imp_right fun ⟨index, hindex⟩ => ⟨index, by rw [hindex]⟩)
    have hfree := hlast.ne_waiting hu hline (hid ▸ hheld)
    cases hstate : s.player.state with
    | playing => exact .inl rfl
    | paused => exact .inr rfl
    | waiting => exact absurd hstate hfree
    | _ =>
      rw [hstate] at hunder
      cases hunder

/-! ### A sonata -/

/-- A text, and another one after a label. -/
def sonata : Script := ⟨"sonata", [.text "one", .text "#coda", .text "two"]⟩

/-- Texts are shown for a while, and there is a store. -/
def foyer : Session :=
  { player := .create { presenter := some { span := .ofMillis 10 } }
      { capacity := 16 } (some (.memory {})) }

/-- The first text of the sonata is being shown. -/
def opening : Session := (((foyer.submit 0 (.play sonata .beginning false)).turn 0).turn 0).turn 0

/-- The coda is asked for. -/
def seeking : Session := opening.submit 1 (.skipToLabel "coda")

/-- The first text has been shown, and the coda has waited for it. -/
def sought : Session := ((seeking.turn 1).setClock 10).turn 0

/-- The sonata is paused and is to be saved. -/
def saving : Session :=
  submit { opening with player := opening.player.perform .pause } 1 .save

/-- The sonata was saved, and what was saved is asked for. -/
def recalling : Session :=
  ((saving.turn 1).turn 1).submit 2 (.loadState "save.00000000000000000000000002")

/-- The first text has been shown, and what was saved has waited for it. -/
def recalled : Session := (((recalling.turn 1).turn 1).setClock 10).turn 0

/-- A step back is asked for. -/
def receding : Session := opening.submit 1 .stepBackward

/-- The step back waits, and the sonata is paused. -/
def stilled : Session :=
  { receding.turn 1 with player := (receding.turn 1).player.perform .pause }

/-- The first text has been shown, and the step back has waited for it. -/
def receded : Session := (stilled.setClock 10).turn 0

/-- A request has its turn while one waits, and is not over. -/
lemma Awaits.turn {i : Nat} {next : Phase} (hs : s₀.Awaits n allowed s) (hcomposed : s.Composed)
    (ht : s.tasks[i]? = some t) (hgoes : (s.player.step t.id t.phase).2 = .goes next)
    (hallowed : (∀ u ∈ s.tasks, u.id = t.id → u = t) → allowed s (.go t.id)) :
    s₀.Awaits n allowed (s.turn i) := by
  have honly : ∀ u ∈ s.tasks, u.id = t.id → u = t := fun u hu hid =>
    List.inj_on_of_nodup_map hcomposed.attentive.distinct hu (List.mem_of_getElem? ht) hid
  have hready : (s.player.step t.id t.phase).2 ≠ .blocked := by
    rw [hgoes]
    exact Progress.noConfusion
  refine hs.tail ⟨.go t.id, ⟨fun hid u hu hnumber answer hends => ?_, hallowed honly⟩,
    does_turn ht hready⟩
  obtain rfl := honly u hu (hnumber.trans hid.symm)
  rw [← hid, hgoes] at hends
  cases hends

lemma keepsScript_go (hgate : ¬ Player.Enters t.id s.player t.phase)
    (hcalls : s.player.calls t.id t.phase = false)
    (honly : ∀ u ∈ s.tasks, u.id = t.id → u = t) : s.KeepsScript (.go t.id) := by
  intro u hu hid
  obtain rfl := honly u hu hid
  exact ⟨hgate, hcalls⟩

lemma keepsPlayback_go {next : Phase} (hstops : t.phase.stops = false)
    (hgate : ¬ Player.Enters t.id s.player t.phase)
    (hgoes : (s.player.step t.id t.phase).2 = .goes next)
    (honly : ∀ u ∈ s.tasks, u.id = t.id → u = t) : s.KeepsPlayback (.go t.id) := by
  intro u hu hid
  obtain rfl := honly u hu hid
  refine ⟨hstops, hgate, fun r hends => ?_⟩
  rw [hgoes] at hends
  cases hends

lemma keepsPause_go {next : Phase} (hstops : t.phase.stops = false)
    (hgate : ¬ Player.Enters t.id s.player t.phase)
    (hgoes : (s.player.step t.id t.phase).2 = .goes next)
    (hcalm : s.player.defers t.id t.phase = false)
    (honly : ∀ u ∈ s.tasks, u.id = t.id → u = t) : s.KeepsPause (.go t.id) := by
  intro u hu hid
  have habides := keepsPlayback_go hstops hgate hgoes honly u hu hid
  obtain rfl := honly u hu hid
  exact ⟨habides, hcalm⟩

/-- The request that makes its last step is answered. -/
lemma answers_turn {i : Nat} (ht : s.tasks[i]? = some t) (hid : t.id = n)
    (hends : (s.player.step t.id t.phase).2 = .ends answer)
    (hended : (s.turn i).ended = s.ended.push ⟨n, (s.turn i).player.now, answer⟩) :
    s.Answers n answer (s.turn i) := by
  refine ⟨hid ▸ does_turn ht ?_, hended⟩
  rw [hends]
  exact Progress.noConfusion

lemma evolves_opening : Evolves (fun _ => True) foyer opening := by
  have hasked : Evolves (fun _ => True) foyer (foyer.submit 0 (.play sonata .beginning false)) :=
    .single ⟨.submit 0 _, trivial, .submit fun _ ht => absurd ht List.not_mem_nil⟩
  exact ((hasked.turn (fun _ => trivial) 0).turn (fun _ => trivial) 0).turn (fun _ => trivial) 0

lemma evolves_submit {r : Request} (hs : Evolves (fun _ => True) foyer s)
    (hn : s.tasks.all (·.id != n) = true) : Evolves (fun _ => True) foyer (s.submit n r) := by
  refine hs.tail (a := .submit n r) trivial (.submit fun t ht => ?_)
  simpa using List.all_eq_true.mp hn t ht

lemma evolves_recalling : Evolves (fun _ => True) foyer recalling := by
  have hpaused := evolves_opening.tail (a := .call .pause) trivial .call
  have hsaving : Evolves (fun _ => True) foyer saving := evolves_submit hpaused rfl
  exact evolves_submit ((hsaving.turn (fun _ => trivial) 1).turn (fun _ => trivial) 1) rfl

lemma awaits_sought : seeking.Awaits 1 KeepsScript sought := by
  have hseeking : seeking.Composed := Composed.created.evolves (evolves_submit evolves_opening rfl)
  have hasked : seeking.Awaits 1 KeepsScript (seeking.turn 1) :=
    Awaits.turn .refl hseeking rfl rfl (keepsScript_go id rfl)
  have hclock := hasked.tail ⟨.wait 10, ⟨trivial, trivial⟩, .wait (Nat.zero_le _)⟩
  exact Awaits.turn hclock (hseeking.reaches hclock) rfl rfl (keepsScript_go id rfl)

lemma awaits_recalled : recalling.Awaits 2 KeepsPause recalled := by
  have hrecalling : recalling.Composed := Composed.created.evolves evolves_recalling
  have hasked : recalling.Awaits 2 KeepsPause (recalling.turn 1) :=
    Awaits.turn .refl hrecalling rfl rfl (keepsPause_go rfl id rfl rfl)
  have hread : recalling.Awaits 2 KeepsPause ((recalling.turn 1).turn 1) :=
    Awaits.turn hasked (hrecalling.reaches hasked) rfl rfl (keepsPause_go rfl id rfl rfl)
  have hclock := hread.tail ⟨.wait 10, ⟨trivial, trivial⟩, .wait (Nat.zero_le _)⟩
  exact Awaits.turn hclock (hrecalling.reaches hclock) rfl rfl (keepsPause_go rfl id rfl rfl)

lemma awaits_receded : receding.Awaits 1 KeepsPlayback receded := by
  have hreceding : receding.Composed :=
    Composed.created.evolves (evolves_submit evolves_opening rfl)
  have hasked : receding.Awaits 1 KeepsPlayback (receding.turn 1) :=
    Awaits.turn .refl hreceding rfl rfl (keepsPlayback_go rfl id rfl)
  have hpaused : receding.Awaits 1 KeepsPlayback stilled :=
    hasked.tail ⟨.call .pause, ⟨trivial, trivial⟩, .call⟩
  have hclock := hpaused.tail ⟨.wait 10, ⟨trivial, trivial⟩, .wait (Nat.zero_le _)⟩
  exact Awaits.turn hclock (hreceding.reaches hclock) rfl rfl (keepsPlayback_go rfl id rfl)

/-- The coda is found where the sonata has it, and both the snapshot and the step back come in a
pause. -/
theorem sonata_waits :
    (seeking.Awaits 1 KeepsScript sought ∧ sought.Answers 1 .done (sought.turn 1) ∧
      ∃ script index, (sought.turn 1).player.context.script = some script ∧
        script.survey.labels.get? "coda" = some index ∧
          (sought.turn 1).player.context.cursor = index) ∧
    (recalling.Awaits 2 KeepsPause recalled ∧ recalled.Answers 2 .done (recalled.turn 1) ∧
      recalled.player.state = .paused ∧
        ∃ snapshot, (recalled.turn 1).player.context = recalled.player.context.restore snapshot) ∧
    (receding.Awaits 1 KeepsPlayback receded ∧ receded.Answers 1 (.cursor 0) (receded.turn 1) ∧
      (receded.player.state = .playing ∨ receded.player.state = .paused)) := by
  have hseeking : Evolves (fun _ => True) foyer seeking := evolves_submit evolves_opening rfl
  have hreceding : Evolves (fun _ => True) foyer receding := evolves_submit evolves_opening rfl
  have hsought : sought.Answers 1 .done (sought.turn 1) := answers_turn rfl rfl rfl rfl
  have hrecalled : recalled.Answers 2 .done (recalled.turn 1) := answers_turn rfl rfl rfl rfl
  have hreceded : receded.Answers 1 (.cursor 0) (receded.turn 1) := answers_turn rfl rfl rfl rfl
  have hmem : ∀ {s : Session} {t : Task}, s.tasks[1]? = some t → t ∈ s.tasks := fun ht =>
    List.mem_of_getElem? ht
  refine ⟨⟨awaits_sought, hsought, ?_⟩, ⟨awaits_recalled, hrecalled, ?_⟩,
    ⟨awaits_receded, hreceded, ?_⟩⟩
  · exact (checks_outlast_waits hseeking (hmem rfl) hsought).1 "coda" (.inl rfl) awaits_sought rfl
  · exact (checks_outlast_waits evolves_recalling (hmem rfl) hrecalled).2.1 _ (.inl rfl)
      awaits_recalled rfl
  · exact (checks_outlast_waits hreceding (hmem rfl) hreceded).2.2 (.inl rfl) awaits_receded
      (.inr ⟨0, rfl⟩)

/-- A step back that waits while the playback is stopped is made nevertheless. -/
example :
    let s : Session := receding.turn 1
    let s : Session := { s with player := s.player.perform .stop }
    let s := (s.turn 0).turn 0
    s.player.state = .stopped ∧
      (match s.answer? 1 with | some (.cursor _) => true | _ => false) = true := by
  decide

end Session

end Recital

import Recital.Proofs.Player.RequestChanges
import Recital.Proofs.Session.Locks
import Recital.Proofs.Store.Documents

/-!
# Requests that are refused

A request is refused only in phases in which it has not done anything yet: it has asked for a lock,
it has drawn an identifier, or a save has left a temporary file behind (`Player.Untouched`).  From
which phases a request may still be refused, and how, is read off the phase (`Phase.Risks`), and a
step that leads to one of them leaves everything else as it was.

There is one exception.  A request to play stops the playback in progress before it waits for the
gate, and when the player is shut down meanwhile it is refused all the same.
-/

namespace Recital

/-- Everybody who uses a lock but one task, the holder first. -/
def Lock.others (l : Lock) (task : Nat) : List Nat := l.members.filter (· != task)

namespace Lock

variable {l : Lock} {id : Nat}

/-- Asking for a lock puts nobody else in another place. -/
@[simp] lemma others_request : (l.request id).others id = l.others id := by
  unfold others request
  split
  · next hfree =>
    have hnone : l.holder = none := Option.isNone_iff_eq_none.mp hfree
    simp [members, hnone]
  · simp [members]

/-- Nor does releasing it. -/
lemma others_release (h : l.isHeldBy id = true) : l.release.others id = l.others id := by
  unfold others
  rw [members_release h]
  simp

end Lock

namespace Player

/-- A request has changed nothing but its own place in the locks and the next identifier, and the
documents in the store are the same. -/
structure Untouched (id : Nat) (p q : Player) : Prop where
  rest : q = { p with
    gate := q.gate, lineLock := q.lineLock, serial := q.serial, store := q.store }
  gate : q.gate.others id = p.gate.others id
  line : q.lineLock.others id = p.lineLock.others id
  store : Option.Rel Store.Agrees p.store q.store

variable {p q : Player} {id : Nat} {r : Refusal} {play : Play}

/-- All that a store shows is the same as before. -/
lemma agrees_refl (store : Option Store) : Option.Rel Store.Agrees store store := by
  cases store with
  | none => exact .none
  | some store => exact .some (.refl store)

lemma Untouched.refl (id : Nat) (p : Player) : Untouched id p p :=
  ⟨rfl, rfl, rfl, agrees_refl _⟩

/-- Asking for the line lock. -/
lemma untouched_requestLine {next : Phase} : Untouched id p (p.requestLine id next).1 :=
  ⟨rfl, rfl, Lock.others_request, agrees_refl _⟩

/-- Letting go of the line lock. -/
lemma untouched_unlock {answer : Answer} (hheld : p.lineLock.isHeldBy id = true) :
    Untouched id p (p.unlock answer).1 :=
  ⟨rfl, rfl, Lock.others_release hheld, agrees_refl _⟩

end Player

/-! ### Phases in which a request may be refused -/

/-- How a request may still be refused. -/
def Phase.Risks : Phase → Refusal → Prop
  | .entering _, _ | .loading _, _ | .stepLock, _ | .skipLock _, _ | .storing .., _
  | .fetching .., _ | .restoreLock _, _ => True
  | .playGate .., r => r = .shutDown
  | _, _ => False

/-- How a request that has got this far may still be refused, or has been. -/
def Progress.Risks : Progress → Refusal → Prop
  | .goes next, r => next.Risks r
  | .ends (.refused s), r => s = r
  | _, _ => False

namespace Player

variable {p q : Player} {id : Nat} {r : Refusal} {play : Play}

lemma not_risks_finish {f : Finish} : ¬ (p.finish f).2.Risks r := id

lemma not_risks_playOn : ¬ (p.playOn id play).2.Risks r := by
  unfold playOn
  split
  · exact not_risks_finish
  · split
    · exact not_risks_finish
    · split
      · exact False.elim
      · exact False.elim
      · exact False.elim
      · exact not_risks_finish
      · exact not_risks_finish

lemma not_risks_continuePlay : ¬ (p.continuePlay id play).2.Risks r := by
  unfold continuePlay
  split
  · exact False.elim
  · exact not_risks_playOn

lemma not_risks_autosave : ¬ (p.autosave id play).2.Risks r := by
  unfold autosave
  split
  · exact False.elim
  · exact not_risks_continuePlay

/-- A playback that executes a line is not refused any more. -/
lemma not_risks_followPlay {x : Player × LineProgress} :
    ¬ (followPlay id play x).2.Risks r := by
  obtain ⟨q, progress⟩ := x
  cases progress with
  | blocked | goes => exact False.elim
  | ends by_ =>
    simp only [followPlay, afterLine]
    cases by_ with
    | finished f => exact not_risks_finish
    | next =>
      dsimp only
      split
      · exact not_risks_autosave
      · exact False.elim

lemma not_risks_playLine : ¬ (p.playLine id play).2.Risks r := by
  have hengages := p.engages_playLine id play
  generalize p.playLine id play = x at hengages ⊢
  cases hengages with
  | yields | pauses => exact not_risks_continuePlay
  | begins => exact not_risks_followPlay

lemma not_risks_startLines {token : Token} {run : Run} {script : String} :
    ¬ (p.startLines id token run script).2.Risks r := by
  unfold startLines
  split
  · exact not_risks_finish
  · dsimp only
    split
    · exact not_risks_continuePlay
    · exact not_risks_finish

/-- Having the gate, a playback is refused only by a player that was shut down. -/
lemma risks_beginPlay {script : Script} {start : Start} {bound : Bool}
    (h : (p.beginPlay id script start bound).2.Risks r) : p.isShutDown = true ∧ r = .shutDown := by
  unfold beginPlay at h
  split at h
  · next hshut => exact ⟨hshut, h.symm⟩
  · dsimp only at h
    split at h
    · exact absurd h not_risks_finish
    · split at h
      · split at h
        · exact absurd h not_risks_finish
        · exact h.elim
      · exact absurd h not_risks_startLines

lemma not_risks_followStep {x : Player × LineProgress} : ¬ (followStep x).2.Risks r := by
  obtain ⟨q, progress⟩ := x
  cases progress with
  | blocked | goes => exact False.elim
  | ends by_ => cases by_ <;> exact False.elim

/-- A request that cannot be refused any more stays so. -/
lemma risks_of_step {phase : Phase} (h : (p.step id phase).2.Risks r) : phase.Risks r := by
  cases phase with
  | entering | loading | stepLock | skipLock | storing | fetching | restoreLock => trivial
  | playGate script start bound =>
    simp only [step] at h
    split at h
    · exact (risks_beginPlay h).2
    · exact h.elim
  | preloading token run script until_ =>
    simp only [step] at h
    split at h
    · exact absurd h not_risks_startLines
    · exact h.elim
  | paused play =>
    simp only [step] at h
    split at h
    · exact absurd h not_risks_finish
    · split at h
      · exact h.elim
      · exact absurd h not_risks_playOn
  | playLock play =>
    simp only [step] at h
    split at h
    · exact absurd h not_risks_playLine
    · exact h.elim
  | playing play line => exact absurd h not_risks_followPlay
  | delaying play until_ =>
    simp only [step] at h
    split at h
    · exact absurd h not_risks_finish
    · split at h
      · exact absurd h not_risks_autosave
      · exact h.elim
  | autosaving play s => exact absurd h not_risks_continuePlay
  | resetGate | closeGate =>
    simp only [step] at h
    split at h <;> exact h.elim
  | stepping line => exact absurd h not_risks_followStep
  | backLock =>
    simp only [step] at h
    split at h <;> exact h.elim

/-! ### What has been done when a request is refused -/

/-- Nothing was changed, or the playback was stopped by a request to play that waits for the
gate. -/
def Harmless (id : Nat) (r : Refusal) (p : Player) (x : Player × Progress) : Prop :=
  Untouched id p x.1 ∨
    r = .shutDown ∧ (∃ script start bound, x.2 = .goes (.playGate script start bound)) ∧
      x.1 = { p.stop with gate := x.1.gate } ∧ x.1.gate.others id = p.gate.others id

lemma harmless_refl {progress : Progress} : Harmless id r p (p, progress) := .inl (.refl id p)

/-- Stopping leaves the gate alone. -/
lemma gate_stop : p.stop.gate = p.gate := by
  obtain ⟨cell, bus, stopRequested, cancelled, hstop⟩ := p.exists_stop_eq
  rw [hstop]

lemma harmless_requestPlay {script : Script} {start : Start} {bound : Bool}
    (h : (p.requestPlay id script start bound).2.Risks r) :
    Harmless id r p (p.requestPlay id script start bound) := by
  unfold requestPlay at h ⊢
  split
  · exact harmless_refl
  · next hstart =>
    split
    · exact harmless_refl
    · next hup =>
      simp only [hstart, hup] at h
      refine .inr ⟨h, ⟨script, start, bound, rfl⟩, rfl, ?_⟩
      dsimp only
      rw [gate_stop, Lock.others_request]

lemma harmless_accept {request : Request} (h : (p.accept id request).2.Risks r) :
    Harmless id r p (p.accept id request) := by
  cases request with
  | play => exact harmless_requestPlay h
  | playNamed =>
    simp only [accept]
    split <;> exact harmless_refl
  | reset | shutDown => exact h.elim
  | stepForward =>
    simp only [accept]
    split
    · exact harmless_refl
    · exact .inl untouched_requestLine
  | stepBackward =>
    simp only [accept] at h ⊢
    split
    · exact harmless_refl
    · next hnone =>
      rw [hnone] at h
      exact h.elim
  | skipToLine => exact .inl untouched_requestLine
  | skipToLabel =>
    simp only [accept, requestLabel]
    split
    · exact harmless_refl
    · split
      · exact harmless_refl
      · exact .inl untouched_requestLine
  | save =>
    simp only [accept, requestSave]
    split
    · exact harmless_refl
    · exact harmless_refl
    · exact .inl ⟨rfl, rfl, rfl, agrees_refl _⟩
  | loadSnapshot =>
    simp only [accept, requestSnapshot]
    split <;> exact harmless_refl
  | loadState =>
    simp only [accept, requestSnapshot]
    split
    · exact harmless_refl
    · split <;> exact harmless_refl

/-- A save that fails leaves the documents as they were. -/
lemma harmless_storeSnapshot {key : String} {s : Snapshot}
    (hstore : ∀ store, p.store = some store → store.IsSound)
    (h : (p.storeSnapshot key s).2.Risks r) : Harmless id r p (p.storeSnapshot key s) := by
  unfold storeSnapshot write at h ⊢
  cases hcase : p.store with
  | none =>
    rw [hcase] at h
    exact h.elim
  | some store =>
    rw [hcase] at h
    dsimp only at h ⊢
    cases hsave : store.save key s.toJson.normalize with
    | mk result later =>
      rw [hsave] at h
      cases result with
      | ok => exact h.elim
      | error e =>
        have hagrees : Store.Agrees store (store.save key s.toJson.normalize).2 :=
          Store.agrees_of_save_error (hstore store hcase) (congrArg Prod.fst hsave)
        rw [hsave] at hagrees
        refine .inl ⟨rfl, rfl, rfl, ?_⟩
        rw [hcase]
        exact .some hagrees

lemma harmless_restoreSnapshot {s : Snapshot} (hheld : p.lineLock.isHeldBy id = true)
    (h : (p.restoreSnapshot s).2.Risks r) : Harmless id r p (p.restoreSnapshot s) := by
  unfold restoreSnapshot at h ⊢
  split
  · exact .inl (untouched_unlock hheld)
  · next name hname =>
    rw [hname] at h
    dsimp only at h
    split
    · exact .inl (untouched_unlock hheld)
    · next hsame =>
      rw [if_neg hsame] at h
      split
      · exact .inl (untouched_unlock hheld)
      · next hwithin =>
        rw [if_neg hwithin] at h
        exact h.elim

lemma harmless_skip {index : Nat} (hheld : p.lineLock.isHeldBy id = true)
    (h : (p.skip index).2.Risks r) : Harmless id r p (p.skip index) := by
  unfold skip at h ⊢
  split
  · exact .inl (untouched_unlock hheld)
  · next hscript =>
    rw [if_neg hscript] at h
    split
    · exact .inl (untouched_unlock hheld)
    · next hwithin =>
      rw [if_neg hwithin] at h
      exact h.elim

/-- A step after which a request may be refused, or has been, is harmless. -/
lemma harmless_step {phase : Phase} (hstore : ∀ store, p.store = some store → store.IsSound)
    (h : (p.step id phase).2.Risks r) : Harmless id r p (p.step id phase) := by
  have hphase : phase.Risks r := risks_of_step h
  cases phase with
  | entering request => exact harmless_accept h
  | loading name =>
    simp only [step, loadAndPlay] at h ⊢
    split
    · exact harmless_refl
    · next load hload =>
      rw [hload] at h
      dsimp only at h
      split
      · exact harmless_refl
      · next script hscript =>
        rw [hscript] at h
        exact harmless_requestPlay h
  | playGate script start bound =>
    simp only [step] at h ⊢
    split
    · next hheld =>
      rw [if_pos hheld] at h
      unfold beginPlay
      rw [if_pos (risks_beginPlay h).1]
      exact .inl ⟨rfl, Lock.others_release hheld, rfl, agrees_refl _⟩
    · exact harmless_refl
  | stepLock =>
    simp only [step] at h ⊢
    split
    · next hheld =>
      rw [if_pos hheld] at h
      unfold beginStep at h ⊢
      split
      · exact .inl (untouched_unlock hheld)
      · exact .inl (untouched_unlock hheld)
      · next hnone htoken =>
        rw [hnone, htoken] at h
        exact absurd h not_risks_followStep
    · exact harmless_refl
  | skipLock index =>
    simp only [step] at h ⊢
    split
    · next hheld =>
      rw [if_pos hheld] at h
      exact harmless_skip hheld h
    · exact harmless_refl
  | storing key s => exact harmless_storeSnapshot hstore h
  | fetching key restoring =>
    simp only [step, fetchSnapshot]
    split
    · exact harmless_refl
    · split
      · exact .inl untouched_requestLine
      · exact harmless_refl
  | restoreLock s =>
    simp only [step] at h ⊢
    split
    · next hheld =>
      rw [if_pos hheld] at h
      exact harmless_restoreSnapshot hheld h
    · exact harmless_refl
  | preloading | paused | playLock | playing | delaying | autosaving | resetGate | closeGate
  | stepping | backLock => exact hphase.elim

end Player

/-! ### Calls that are refused -/

/-- The store is sound, and no pause is asked for before the first line. -/
structure LastingPart.IsCalm (b : LastingPart) : Prop where
  store : ∀ store, b.store = some store → store.IsSound
  quiet : b.cell.current = .idle ∨ b.cell.current = .loading → b.pauseRequested = false

lemma State.eq_of_allows {s t : State} (h : s.allows t = true) (ht : t = .idle ∨ t = .loading) :
    s = .idle := by
  cases s <;> cases t <;> simp_all [State.allows]

/-- One lasting change keeps the store sound, and a pause is asked for only while a command is in
flight. -/
lemma LastingChange.isCalm {P : Json → Prop} {K : String → Prop} {b c : LastingPart}
    (h : LastingChange P K b c)
    (hb : b.IsCalm) : c.IsCalm := by
  cases h with
  | moves hallowed =>
    exact { hb with quiet := fun hmoved => hb.quiet (.inl (State.eq_of_allows hallowed hmoved)) }
  | resets _ hquiet => exact { hb with quiet := fun _ => hquiet }
  | asks hwaiting =>
    refine { hb with quiet := fun hearly => ?_ }
    rcases hearly with hearly | hearly <;> cases hwaiting.symm.trans hearly
  | forgets => exact { hb with quiet := fun _ => rfl }
  | writes hstore =>
    refine { hb with store := fun store hs => ?_ }
    rw [← Option.some.inj hs]
    exact (hb.store _ hstore).save _ _
  | tells | closes | assigns | clears | loads | marks | restores | keeps | drops =>
    exact { hb with }

lemma Player.LastingChanges.isCalm {P : Json → Prop} {K : String → Prop} {p q : Player}
    (h : LastingChanges P K p q) (hp : p.lastingPart.IsCalm) : q.lastingPart.IsCalm := by
  unfold LastingChanges at h
  generalize q.lastingPart = c at h
  induction h with
  | refl => exact hp
  | tail _ hchange ih => exact hchange.isCalm ih

namespace Session

variable {s s' : Session} {a : Action} {id : Nat} {r : Refusal}

/-! ### Runs -/

/-- A request is answered once. -/
lemma Moved.answer?_of_some {t : Task} {x : Player × Progress} {n : Nat} {answer : Answer}
    (h : s.Moved s' t x) (hanswer : s.answer? n = some answer) : s'.answer? n = some answer := by
  have hended := h.ended
  unfold answer? at hanswer ⊢
  obtain ⟨e, he, heq⟩ := Option.map_eq_some_iff.mp hanswer
  split at hended
  · rw [hended, Array.find?_push, he]
    exact congrArg some heq
  · rw [hended, he]
    exact congrArg some heq

/-- The request with a number is not going to be refused like this: it has been answered, or it is
past that. -/
def Spares (id : Nat) (r : Refusal) (s : Session) : Prop :=
  (∃ answer, s.answer? id = some answer ∧ answer ≠ .refused r) ∨
    (s.answer? id = none ∧ ∃ t ∈ s.tasks, t.id = id) ∧
      ∀ t ∈ s.tasks, t.id = id → ¬ t.phase.Risks r

/-- A request that has made a step is refused in the end only if it may still be refused after it,
or has been. -/
lemma Moved.spares {t : Task} {x : Player × Progress} (h : s.Moved s' t x) (hdistinct : s.Distinct)
    (hnone : s.answer? t.id = none) (hx : ¬ x.2.Risks r) : Spares t.id r s' := by
  cases hprogress : x.2 with
  | blocked => exact absurd hprogress h.ready
  | goes next =>
    rw [hprogress] at hx
    refine .inr ⟨⟨(h.answer?_of_goes hprogress).trans hnone, _, h.mem_next hprogress, rfl⟩,
      fun u hu hid => ?_⟩
    rcases h.cases hdistinct hu with ⟨-, hne⟩ | ⟨-, hgoes⟩
    · exact absurd hid hne
    · cases hprogress.symm.trans hgoes
      exact hx
  | ends answer =>
    refine .inl ⟨answer, h.answer?_of_ends hprogress hnone, ?_⟩
    rintro rfl
    rw [hprogress] at hx
    exact hx rfl

lemma Spares.does (h : Spares id r s) (hdistinct : s.Distinct) (hdoes : s.Does a s') :
    Spares id r s' := by
  cases a with
  | submit n request =>
    cases hdoes with
    | submit hnew =>
      rcases h with hanswered | ⟨⟨hnone, t, ht, hid⟩, hpast⟩
      · exact .inl hanswered
      · refine .inr ⟨⟨hnone, t, List.mem_append_left _ ht, hid⟩, fun u hu huid => ?_⟩
        rcases List.mem_append.mp hu with hu | hu
        · exact hpast u hu huid
        · rw [List.mem_singleton.mp hu] at huid
          exact absurd (hid.trans huid.symm) (hnew t ht)
  | call =>
    cases hdoes
    exact h
  | wait =>
    cases hdoes
    exact h
  | go n =>
    obtain ⟨t, x, hn, hmoved⟩ := hdoes.moved
    rcases h with ⟨answer, hanswer, hne⟩ | ⟨⟨hnone, u, hu, huid⟩, hpast⟩
    · exact .inl ⟨answer, hmoved.answer?_of_some hanswer, hne⟩
    · by_cases hid : t.id = id
      · rw [← hid] at hnone ⊢
        refine hmoved.spares hdistinct hnone fun hrisks => ?_
        rw [← hmoved.step] at hrisks
        exact hpast t hmoved.mem hid (Player.risks_of_step hrisks)
      · refine .inr ⟨⟨(hmoved.answer?_of_ne hid).trans hnone, u, ?_, huid⟩, fun v hv hvid => ?_⟩
        · exact hmoved.mem_of_ne hu fun heq => hid (heq ▸ huid)
        · rcases hmoved.cases hdistinct hv with ⟨hv, -⟩ | ⟨hv, -⟩
          · exact hpast v hv hvid
          · exact absurd (hv.symm.trans hvid) hid

/-- A request that is past it is not refused. -/
lemma Spares.evolves {allowed : Action → Prop} (h : Spares id r s) (hdistinct : s.Distinct)
    (hs : s.Evolves allowed s') : Spares id r s' ∧ s'.Distinct := by
  induction hs with
  | refl => exact ⟨h, hdistinct⟩
  | tail _ hmay ih =>
    obtain ⟨a, -, hdoes⟩ := hmay
    exact ⟨ih.1.does ih.2 hdoes, hdoes.distinct ih.2⟩

lemma Spares.answer?_ne (h : Spares id r s) : s.answer? id ≠ some (.refused r) := by
  intro hrefused
  rcases h with ⟨answer, hanswer, hne⟩ | ⟨⟨hnone, -⟩, -⟩
  · rw [hanswer] at hrefused
    exact hne (Option.some.inj hrefused)
  · cases hnone.symm.trans hrefused

/-- Whatever is done, the store stays sound and requests keep their numbers. -/
lemma Evolves.isCalm {allowed : Action → Prop} (hs : s.Evolves allowed s')
    (h : s.player.lastingPart.IsCalm)
    (hdistinct : s.Distinct) : s'.player.lastingPart.IsCalm ∧ s'.Distinct := by
  induction hs with
  | refl => exact ⟨h, hdistinct⟩
  | tail _ hmay ih =>
    obtain ⟨a, -, hdoes⟩ := hmay
    exact ⟨hdoes.lastingChanges_any.isCalm ih.1, hdoes.distinct ih.2⟩

/-- What is refused changes nothing.  Make any requests to a new player whose store is sound, with
any calls, and let them go on in any order.  A step of a request that is refused in the end changes
nothing but the place of the request in the locks and the next identifier: the state, the context,
the checkpoint, what recovery has used up, the speed, the documents in the store and the playback in
progress are as before, and nothing is published.  Only a request to play that is refused because
the player was shut down while it waited for the gate has stopped the playback in progress before.
A call to pause, to resume or to set the speed that is refused changes nothing either, except that a
player without a playback in progress forgets that a pause was asked for. -/
theorem refused_changes_nothing {host : Host} {bus : Bus} {store : Option Store}
    (hstore : ∀ found, store = some found → found.IsSound)
    (hs : Evolves (fun _ => True) { player := .create host bus store } s) :
    (∀ id s₁ s₂ r, s.answer? id = none → s.Does (.go id) s₁ → s₁.Evolves (fun _ => True) s₂ →
      s₂.answer? id = some (.refused r) →
        Player.Untouched id s.player s₁.player ∨
          r = .shutDown ∧
            (∃ script start bound, ⟨id, .playGate script start bound⟩ ∈ s₁.tasks) ∧
            s₁.player = { s.player.stop with gate := s₁.player.gate } ∧
            s₁.player.gate.others id = s.player.gate.others id) ∧
      (∀ r, s.player.pause.1 = .error r → s.player.pause.2 = s.player) ∧
      (∀ r, s.player.resume.1 = .error r →
        s.player.resume.2 = { s.player with pauseRequested := false } ∧
          (s.player.state.isActive = true → s.player.pauseRequested = false)) ∧
      ∀ speed r, (s.player.setSpeed speed).1 = .error r →
        (s.player.setSpeed speed).2 = s.player := by
  have hnew : (Player.create host bus store).lastingPart.IsCalm := ⟨hstore, fun _ => rfl⟩
  obtain ⟨hcalm, hdistinct⟩ := hs.isCalm hnew List.nodup_nil
  refine ⟨fun id s₁ s₂ r hnone hdoes hlater hrefused => ?_, fun r h => ?_, fun r h => ?_,
    fun speed r h => ?_⟩
  · obtain ⟨t, x, rfl, hmoved⟩ := hdoes.moved
    have hrisks : x.2.Risks r := by
      by_contra hpast
      have hspares := hmoved.spares hdistinct hnone hpast
      exact (hspares.evolves (hdoes.distinct hdistinct) hlater).1.answer?_ne hrefused
    rw [← hmoved.step] at hrisks
    have hharmless := Player.harmless_step hcalm.store hrisks
    rw [hmoved.step] at hharmless
    rw [hmoved.player]
    refine hharmless.imp_right fun ⟨hshut, ⟨script, start, bound, hgoes⟩, hrest⟩ => ?_
    exact ⟨hshut, ⟨script, start, bound, hmoved.mem_next hgoes⟩, hrest⟩
  · unfold Player.pause at h ⊢
    split <;> simp_all
  · unfold Player.resume at h ⊢
    dsimp only at h ⊢
    have hquiet := hcalm.quiet
    change (s.player.state = _ ∨ s.player.state = _) → s.player.pauseRequested = _ at hquiet
    cases hstate : s.player.state <;> simp_all [State.isActive, Player.state]
  · unfold Player.setSpeed at h ⊢
    split <;> simp_all

/-! ### A madrigal -/

/-- A song of two lines. -/
def madrigal : Script := ⟨"madrigal", [.text "one", .text "two"]⟩

/-- Nothing has been sung; what is saved goes to an empty directory. -/
def chamber : Session :=
  { player := .create {} { capacity := 16 } (some (.directory ⟨[]⟩ ⟨[]⟩)) }

/-- The song is being sung, and comes to its first line. -/
def singing : Session :=
  ((chamber.submit 0 (.play madrigal .beginning false)).turn 0).turn 0

/-- Somebody asks for a line that the song does not have. -/
def astray : Session := singing.submit 1 (.skipToLine 7)

/-- Somebody else wants to sing the song from its first line. -/
def rivalled : Session := singing.submit 1 (.play madrigal (.line 0) false)

/-- It is not sung any more, as everything is shut down before the gate opens. -/
def evicted : Session := ((((rivalled.turn 1).submit 2 .shutDown).turn 2).turn 0).turn 0

lemma isSound_chamber (found : Store) (h : chamber.player.store = some found) : found.IsSound := by
  cases h
  refine ⟨List.nodup_nil, fun l name hentry => ?_⟩
  rw [FileTree.entry?_of_ne_nil (by simp)] at hentry
  exact absurd rfl hentry

/-- A request that is new may be made. -/
lemma Evolves.request {n : Nat} {request : Request} (hs : chamber.Evolves (fun _ => True) s)
    (hn : s.tasks.all (·.id != n) = true) :
    chamber.Evolves (fun _ => True) (s.submit n request) := by
  refine hs.tail (a := .submit n request) trivial (.submit fun t ht => ?_)
  simpa using List.all_eq_true.mp hn t ht

lemma evolves_singing : chamber.Evolves (fun _ => True) singing :=
  ((Evolves.request .refl rfl).turn (fun _ => trivial) 0).turn (fun _ => trivial) 0

/-- The one who asked for the missing line had to wait for the first one, and was refused in the
end; asking has left the song alone. -/
theorem astray_is_refused :
    (∀ found, chamber.player.store = some found → found.IsSound) ∧
      chamber.Evolves (fun _ => True) astray ∧ astray.answer? 1 = none ∧
      astray.Does (.go 1) (astray.turn 1) ∧
      (astray.turn 1).Evolves (fun _ => True) (((astray.turn 1).turn 0).turn 1) ∧
      (((astray.turn 1).turn 0).turn 1).answer? 1 = some (.refused (.lineOutOfRange 7 2)) ∧
      Player.Untouched 1 astray.player (astray.turn 1).player := by
  have hastray : chamber.Evolves (fun _ => True) astray := evolves_singing.request rfl
  have hdoes : astray.Does (.go 1) (astray.turn 1) :=
    does_turn (t := ⟨1, .entering (.skipToLine 7)⟩) rfl Progress.noConfusion
  have hlater : (astray.turn 1).Evolves (fun _ => True) (((astray.turn 1).turn 0).turn 1) :=
    (Evolves.turn .refl (fun _ => trivial) 0).turn (fun _ => trivial) 1
  refine ⟨isSound_chamber, hastray, rfl, hdoes, hlater, rfl, ?_⟩
  rcases (refused_changes_nothing isSound_chamber hastray).1 1 _ _ _ rfl hdoes hlater rfl with
    huntouched | ⟨hshut, -⟩
  · exact huntouched
  · cases hshut

/-- The rival was refused, and has stopped the song nevertheless. -/
theorem rival_stops_the_song :
    chamber.Evolves (fun _ => True) rivalled ∧ rivalled.answer? 1 = none ∧
      rivalled.Does (.go 1) (rivalled.turn 1) ∧
      (rivalled.turn 1).Evolves (fun _ => True) evicted ∧
      evicted.answer? 1 = some (.refused .shutDown) ∧
      rivalled.player.state = .playing ∧ (rivalled.turn 1).player.state = .stopped ∧
      (rivalled.turn 1).player.bus.log ≠ rivalled.player.bus.log := by
  have hrivalled : chamber.Evolves (fun _ => True) rivalled := evolves_singing.request rfl
  have hdoes : rivalled.Does (.go 1) (rivalled.turn 1) :=
    does_turn (t := ⟨1, .entering (.play madrigal (.line 0) false)⟩) rfl Progress.noConfusion
  have hshut : (rivalled.turn 1).Evolves (fun _ => True)
      ((rivalled.turn 1).submit 2 .shutDown) := by
    refine .single ⟨.submit 2 .shutDown, trivial, .submit fun t ht => ?_⟩
    simpa using List.all_eq_true.mp (show (rivalled.turn 1).tasks.all (·.id != 2) = true from rfl)
      t ht
  have hlater : (rivalled.turn 1).Evolves (fun _ => True) evicted :=
    ((hshut.turn (fun _ => trivial) 2).turn (fun _ => trivial) 0).turn (fun _ => trivial) 0
  refine ⟨hrivalled, rfl, hdoes, hlater, rfl, rfl, rfl, fun heq => ?_⟩
  have hsize : (rivalled.turn 1).player.bus.log.size = rivalled.player.bus.log.size :=
    congrArg Array.size heq
  cases hsize

end Session

end Recital

import Recital.Proofs.Player.RequestStep
import Recital.Proofs.Session.Isolation
import Recital.Proofs.Session.Locks

/-!
# Playbacks are heard

The bus is closed once the player has been shut down, by a request that has the gate.  A playback
holds the gate all the time, and no playback starts on a player that was shut down.  So while a
playback is in progress the bus is open, and every event of it is kept (`Session.Voiced`).
-/

namespace Recital

/-- A line of no script, for what is done beside all lines. -/
def Work.nowhere : Work := ⟨0, "", "", .numbered 0, ⟨0, false⟩⟩

/-- Nothing that is done for a line shuts the player down or lets it start again. -/
lemma Course.shut {w : Work} {σ τ : Stage} {g h : Ground} {news : List Event}
    {remarks : List Remark} (hcourse : Course w σ g news remarks τ h) :
    h.isShutDown = g.isShutDown := by
  induction hcourse with
  | done => rfl
  | next hdeed _ ih => cases hdeed <;> exact ih

namespace Player

variable {p q r : Player} {id : Nat} {phase : Phase} {x : Player × Progress} {σ : Stage}

/-- The bus is as open as before, and what was shut down is still shut down. -/
structure KeepsBus (p q : Player) : Prop where
  closed : q.bus.closed = p.bus.closed
  shut : p.isShutDown = true → q.isShutDown = true

lemma KeepsBus.refl (p : Player) : KeepsBus p p := ⟨rfl, fun h => h⟩

lemma KeepsBus.trans (hpq : KeepsBus p q) (hqr : KeepsBus q r) : KeepsBus p r :=
  ⟨hqr.closed.trans hpq.closed, fun h => hqr.shut (hpq.shut h)⟩

lemma Pursues.keepsBus {w : Work} {τ : Stage} {remarks : List Remark}
    (h : Pursues w σ p remarks τ q) : KeepsBus p q := by
  obtain ⟨news, hcourse, hbus⟩ := h.course
  have hshut : q.isShutDown = p.isShutDown := hcourse.shut
  exact ⟨by rw [hbus, Bus.closed_tell], fun h => hshut.trans h⟩

lemma PublishesPlain.keepsBus (h : PublishesPlain p q) : KeepsBus p q := by
  obtain ⟨news, -, hbus⟩ := h.news
  exact ⟨by rw [hbus, Bus.closed_tell], h.shut⟩

lemma Finished.keepsBus {report : Report} (h : Finished report p x) : KeepsBus p x.1 := by
  obtain ⟨news, at_, -, hbus⟩ := h.news
  have hshut : x.1.isShutDown = p.isShutDown := congrArg Ground.isShutDown h.ground
  exact ⟨by rw [hbus, Bus.closed_tell], fun h => hshut.trans h⟩

lemma Introduces.keepsBus {run : Run} {name : String} (h : Introduces run name p q) :
    KeepsBus p q := by
  obtain ⟨news, at_, -, hbus⟩ := h.news
  have hshut : q.isShutDown = p.isShutDown := (congrArg Ground.isShutDown h.ground).trans rfl
  exact ⟨by rw [hbus, Bus.closed_tell], fun h => hshut.trans h⟩

lemma Prepares.keepsBus {script : Script} (h : Prepares script p q) : KeepsBus p q := by
  obtain ⟨news, -, hbus⟩ := h.news
  exact ⟨by rw [hbus, Bus.closed_tell], fun hp => h.shut.trans hp⟩

lemma PlaysNoLine.keepsBus {token : Token} (h : PlaysNoLine token p x) : KeepsBus p x.1 := by
  cases h with
  | goes _ _ _ hq => exact hq.keepsBus
  | ends hx => exact hx.keepsBus

lemma keepsBus_perform (c : Call) : KeepsBus p (p.perform c) :=
  (pursues_perform (w := .nowhere) (σ := .started) c).keepsBus

/-- What a step means for those who listen. -/
structure Voices (p : Player) (phase : Phase) (x : Player × Progress) : Prop where
  keepsBus : KeepsBus p x.1
  /-- A playback starts on a player only that was not shut down. -/
  playing : ∀ next, x.2 = .goes next → next.token?.isSome = true →
    phase.token?.isSome = true ∨ p.isShutDown = false
  /-- Who is about to close the bus has shut the player down. -/
  closing : x.2 = .goes .closeGate → x.1.isShutDown = true

/-- A playback goes on, or it ends. -/
lemma KeepsBus.voices (h : KeepsBus p x.1)
    (hnext : ∀ next, x.2 = .goes next → next.token?.isSome = true ∨ next.line?.isSome = true)
    (hplaying : phase.token?.isSome = true ∨ p.isShutDown = false) : Voices p phase x := by
  refine ⟨h, fun _ _ _ => hplaying, fun hgate => ?_⟩
  rcases hnext _ hgate with htoken | hline
  · cases htoken
  · cases hline

lemma PlaysNoLine.voices {token : Token} (h : PlaysNoLine token q x) (hpq : KeepsBus p q)
    (hplaying : phase.token?.isSome = true ∨ p.isShutDown = false) : Voices p phase x :=
  (hpq.trans h.keepsBus).voices (fun _ hnext => .inl (by rw [(h.next hnext).1]; rfl)) hplaying

/-- The request has ended. -/
lemma KeepsBus.voices_of_ends {answer : Answer} (h : KeepsBus p x.1) (hends : x.2 = .ends answer) :
    Voices p phase x :=
  ⟨h, fun _ hnext => (nomatch hends.symm.trans hnext),
    fun hgate => (nomatch hends.symm.trans hgate)⟩

lemma Finished.voices {report : Report} (h : Finished report q x) (hpq : KeepsBus p q) :
    Voices p phase x :=
  (hpq.trans h.keepsBus).voices_of_ends h.ends

lemma keepsBus_resetAll : KeepsBus p p.resetAll.1 := by
  obtain ⟨q, hq⟩ : ∃ q, q = p.resetState p.run := ⟨_, rfl⟩
  have hreset : TellsPlain p.run p q := hq ▸ tellsPlain_resetState
  have hrest : KeepsBus q p.resetAll.1 := by
    unfold resetAll
    rw [← hq]
    exact ⟨rfl, fun h => h⟩
  exact hreset.publishesPlain.keepsBus.trans hrest

/-- Only a request to shut down that has the gate closes the bus. -/
lemma voices_step (id : Nat) (phase : Phase) (hready : (p.step id phase).2 ≠ .blocked) :
    Voices p phase (p.step id phase) ∨
      phase = .closeGate ∧ p.gate.isHeldBy id = true ∧ p.step id phase = p.close := by
  obtain ⟨σ, hproceeds⟩ := exists_proceeds_step id phase p hready
  generalize p.step id phase = x at hproceeds
  cases hproceeds with
  | flies _ hq _ _ _ _ hline htoken =>
    refine .inl ⟨hq.keepsBus, fun n hn hsome => ?_, fun hgate => ?_⟩
    · cases hn
      exact .inl (htoken ▸ hsome)
    · cases hgate
      cases hline
  | plays _ hq _ _ _ htoken =>
    exact .inl (playsNoLine_afterLine.voices hq.keepsBus (.inl (by rw [htoken]; rfl)))
  | steps _ hq _ hr =>
    exact .inl ((hq.keepsBus.trans hr.keepsBus).voices_of_ends rfl)
  | playsNoLine htoken _ _ hx =>
    exact .inl (hx.voices (.refl p) (.inl (by rw [htoken]; rfl)))
  | @starts token run name until_ hphase =>
    have hplaying : phase.token?.isSome = true := by rw [hphase]; rfl
    rcases p.startLines_cases id token run name with ⟨r, hr⟩ | ⟨q, hq, hx⟩
    · exact .inl (hr.voices (.refl p))
    · exact .inl (hx.voices hq.keepsBus (.inl hplaying))
  | enrolls _ _ hx =>
    cases hx with
    | refused =>
      have hsame : KeepsBus p { p with gate := p.gate.release } := ⟨rfl, fun h => h⟩
      exact .inl (hsame.voices_of_ends rfl)
    | ends hq _ hx => exact .inl (hx.voices hq.keepsBus)
    | waits hq hopen =>
      exact .inl (hq.keepsBus.voices (fun _ h => by cases h; exact .inl rfl) (.inr hopen))
    | starts hq hopen hr hx => exact .inl (hx.voices (hq.keepsBus.trans hr.keepsBus) (.inr hopen))
  | resets => exact .inl (keepsBus_resetAll.voices_of_ends rfl)
  | tends _ _ hx =>
    cases hx with
    | goes hq _ htoken _ hclose =>
      refine .inl ⟨hq.keepsBus, fun n hn hsome => ?_, fun hgate => ?_⟩
      · cases hn
        rw [htoken] at hsome
        cases hsome
      · cases hgate
        exact hclose rfl
    | ends hq | stores _ hq => exact .inl (hq.keepsBus.voices_of_ends rfl)
    | @restores q s _ _ _ _ hnews hground =>
      obtain ⟨news, -, hbus⟩ := hnews
      have hshut : q.isShutDown = p.isShutDown := (congrArg Ground.isShutDown hground).trans rfl
      have hrings : KeepsBus p q := ⟨by rw [hbus, Bus.closed_tell], fun h => hshut.trans h⟩
      exact .inl (hrings.voices_of_ends rfl)
    | closes hphase hheld => exact .inr ⟨hphase, hheld, rfl⟩

end Player

namespace Session

variable {s s' : Session} {a : Action}

/-- A bus that was closed is not opened again. -/
lemma Does.closed (hdoes : s.Does a s') (hclosed : s.player.bus.closed = true) :
    s'.player.bus.closed = true := by
  cases a with
  | submit id r =>
    cases hdoes
    exact hclosed
  | wait now =>
    cases hdoes
    exact hclosed
  | call c =>
    cases hdoes
    exact (Player.keepsBus_perform c).closed.trans hclosed
  | go id =>
    obtain ⟨t, x, -, hmoved⟩ := hdoes.moved
    have hready : (s.player.step t.id t.phase).2 ≠ .blocked := hmoved.step ▸ hmoved.ready
    rw [hmoved.player, ← hmoved.step]
    rcases Player.voices_step t.id t.phase hready with hvoices | ⟨-, -, hclose⟩
    · exact hvoices.keepsBus.closed.trans hclosed
    · rw [hclose]
      rfl

/-- The bus is closed after the player was shut down only, and never during a playback. -/
structure Voiced (s : Session) : Prop where
  attentive : s.Attentive
  shut : s.player.bus.closed = true → s.player.isShutDown = true
  closing : ∀ t ∈ s.tasks, t.phase = .closeGate → s.player.isShutDown = true
  playing : ∀ t ∈ s.tasks, t.phase.token?.isSome = true → s.player.bus.closed = false

namespace Voiced

lemma created {host : Host} {bus : Bus} {store : Option Store} (hopen : bus.closed = false) :
    Voiced { player := .create host bus store } where
  attentive := .created
  shut h := by
    rw [show (Player.create host bus store).bus.closed = bus.closed from rfl, hopen] at h
    cases h
  closing t ht := absurd ht List.not_mem_nil
  playing t ht := absurd ht List.not_mem_nil

/-- A player on which nothing is requested. -/
lemma of_keepsBus (h : s.Voiced) {q : Player} (hrings : Player.KeepsBus s.player q)
    (hattentive : Attentive { s with player := q }) : Voiced { s with player := q } where
  attentive := hattentive
  shut hclosed := hrings.shut (h.shut (hrings.closed ▸ hclosed))
  closing t ht hphase := hrings.shut (h.closing t ht hphase)
  playing t ht htoken := hrings.closed.trans (h.playing t ht htoken)

lemma does (h : s.Voiced) (hdoes : s.Does a s') : s'.Voiced := by
  have hattentive := h.attentive.does hdoes
  cases a with
  | submit id r =>
    cases hdoes
    refine ⟨hattentive, h.shut, fun t ht hphase => ?_, fun t ht htoken => ?_⟩
    · rcases List.mem_append.mp ht with ht | ht
      · exact h.closing t ht hphase
      · rw [List.mem_singleton.mp ht] at hphase
        cases hphase
    · rcases List.mem_append.mp ht with ht | ht
      · exact h.playing t ht htoken
      · rw [List.mem_singleton.mp ht] at htoken
        cases htoken
  | call c =>
    cases hdoes
    exact h.of_keepsBus (Player.keepsBus_perform c) hattentive
  | wait now =>
    cases hdoes
    exact h.of_keepsBus ⟨rfl, fun h => h⟩ hattentive
  | go id =>
    obtain ⟨t, x, -, hmoved⟩ := hdoes.moved
    have hcases := fun u => hmoved.cases (u := u) h.attentive.distinct
    have hready : (s.player.step t.id t.phase).2 ≠ .blocked := hmoved.step ▸ hmoved.ready
    rcases Player.voices_step t.id t.phase hready with hvoices | ⟨hphase, hheld, hclose⟩
    · rw [hmoved.step] at hvoices
      refine ⟨hattentive, fun hclosed => ?_, fun u hu hphase => ?_, fun u hu htoken => ?_⟩
      · rw [hmoved.player] at hclosed ⊢
        exact hvoices.keepsBus.shut (h.shut (hvoices.keepsBus.closed ▸ hclosed))
      · rw [hmoved.player]
        rcases hcases u hu with ⟨hold, -⟩ | ⟨-, hgoes⟩
        · exact hvoices.keepsBus.shut (h.closing u hold hphase)
        · exact hvoices.closing (hphase ▸ hgoes)
      · rw [hmoved.player, hvoices.keepsBus.closed]
        rcases hcases u hu with ⟨hold, -⟩ | ⟨-, hgoes⟩
        · exact h.playing u hold htoken
        · rcases hvoices.playing _ hgoes htoken with hplaying | hup
          · exact h.playing t hmoved.mem hplaying
          · cases hclosed : s.player.bus.closed with
            | false => rfl
            | true => cases hup.symm.trans (h.shut hclosed)
    · have hx : x = s.player.close := hmoved.step.symm.trans hclose
      have hshut : s'.player.isShutDown = true := by
        rw [hmoved.player, hx]
        exact h.closing t hmoved.mem hphase
      refine ⟨hattentive, fun _ => hshut, fun _ _ _ => hshut, fun u hu htoken => ?_⟩
      rcases hcases u hu with ⟨hold, hne⟩ | ⟨-, hgoes⟩
      · have hother : s.player.gate.isHeldBy u.id = true := h.attentive.gate.holds u hold htoken
        exact absurd (Lock.isHeldBy_unique hother hheld) hne
      · rw [hx] at hgoes
        cases hgoes

lemma evolves {allowed : Action → Prop} (h : s.Voiced) (hs : s.Evolves allowed s') :
    s'.Voiced := by
  induction hs with
  | refl => exact h
  | tail _ hmay ih =>
    obtain ⟨a, -, hdoes⟩ := hmay
    exact ih.does hdoes

end Voiced

end Session

end Recital

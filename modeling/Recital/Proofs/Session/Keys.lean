import Recital.Proofs.Player.RequestStep
import Recital.Proofs.Player.Scene
import Recital.Proofs.Session.Ownership

/-!
# The keys of saved snapshots

A snapshot that is saved on request gets a key of its own, made of the next identifier.  Identifiers
are given in order (`Player.serial_le_step`), so as long as they last no two requests write to the
same key, and a request that waits to write is the only one that knows its key (`Session.Keyed`).
-/

namespace Recital

namespace Course

variable {w : Work} {σ τ : Stage} {g h : Ground} {news : List Event} {remarks : List Remark}

/-- A line may use identifiers up. -/
lemma serial_le (hcourse : Course w σ g news remarks τ h) : g.serial ≤ h.serial := by
  induction hcourse with
  | done => exact Nat.le_refl _
  | next hdeed _ ih =>
    refine Nat.le_trans ?_ ih
    cases hdeed with
    | enters => exact Nat.le_succ _
    | _ => exact Nat.le_refl _

end Course

/-- The key under which a snapshot is saved that gets the given number. -/
def Snapshot.key (n : Nat) : String := "save." ++ Run.serial n

/-- As long as there are identifiers, keys differ. -/
lemma Snapshot.key_inj {m n : Nat} (hm : m < 32 ^ 26) (hn : n < 32 ^ 26) (h : key m = key n) :
    m = n := by
  refine Run.serial_inj hm hn (String.toList_inj.mp ?_)
  have happend := congrArg String.toList h
  unfold key at happend
  rw [String.toList_append, String.toList_append] at happend
  exact List.append_cancel_left happend

namespace Player

variable {p q : Player} {id : Nat} {phase : Phase} {token : Token} {x : Player × Progress}
  {report : Report} {script : Script} {bound : Bool}

lemma Pursues.serial_le {w : Work} {σ τ : Stage} {noted : List Remark}
    (h : Pursues w σ p noted τ q) : p.serial ≤ q.serial := by
  obtain ⟨news, hcourse, -⟩ := h.course
  exact hcourse.serial_le

lemma Finished.serial_eq (h : Finished report p x) : x.1.serial = p.serial :=
  congrArg Ground.serial h.ground

lemma PlaysNoLine.serial_le (h : PlaysNoLine token p x) : p.serial ≤ x.1.serial := by
  cases h with
  | goes _ _ _ hq => exact hq.serial
  | ends hx => exact Nat.le_of_eq hx.serial_eq.symm

/-- Identifiers are given in order. -/
lemma serial_le_step (id : Nat) (phase : Phase) (p : Player)
    (hready : (p.step id phase).2 ≠ .blocked) : p.serial ≤ (p.step id phase).1.serial := by
  obtain ⟨σ, hproceeds⟩ := exists_proceeds_step id phase p hready
  generalize p.step id phase = x at hproceeds
  cases hproceeds with
  | flies _ hq => exact hq.serial_le
  | plays _ hq => exact Nat.le_trans hq.serial_le playsNoLine_afterLine.serial_le
  | steps _ hq _ hr => exact Nat.le_trans hq.serial_le hr.serial
  | playsNoLine _ _ _ hx => exact hx.serial_le
  | @starts token run name =>
    rcases p.startLines_cases id token run name with ⟨r, hr⟩ | ⟨q, hq, hx⟩
    · exact Nat.le_of_eq hr.serial_eq.symm
    · have hserial : q.serial = p.serial := congrArg Ground.serial hq.ground
      exact hserial ▸ hx.serial_le
  | enrolls _ _ hx =>
    cases hx with
    | refused => exact Nat.le_refl _
    | ends hq _ hx =>
      rw [hx.serial_eq, hq.serial]
      exact Nat.le_succ _
    | waits hq =>
      rw [hq.serial]
      exact Nat.le_succ _
    | @starts q r x hq _ hr hx =>
      have hserial : r.serial = q.serial := congrArg Ground.serial hr.ground
      have hnext := hx.serial_le
      rw [hserial, hq.serial] at hnext
      exact Nat.le_of_succ_le hnext
  | resets =>
    have hreset : TellsPlain p.run p (p.resetState p.run) := tellsPlain_resetState
    have hserial : p.resetAll.1.serial = (p.resetState p.run).serial := rfl
    rw [hserial]
    exact hreset.publishesPlain.serial
  | tends _ _ hx =>
    cases hx with
    | goes hq => exact hq.serial
    | ends hq => exact hq.serial
    | stores _ hq => exact hq.serial
    | restores _ _ _ _ _ hground =>
      exact Nat.le_of_eq (congrArg Ground.serial hground).symm
    | closes => exact Nat.le_refl _

/-- A request that belongs to no playback goes on to save a snapshot when it is taken up to do so,
under the next key. -/
lemma storing_of_tends {key : String} {s : Snapshot} (htoken : phase.token? = none)
    (hline : phase.line? = none) (henters : ¬ Enters id p phase)
    (h : p.step id phase = (q, .goes (.storing key s))) :
    phase = .entering .save ∧ key = Snapshot.key p.serial ∧
      p.context.snapshot? (Instant.ofMillis p.now) = some s ∧
      q = { p with serial := p.serial + 1 } := by
  have hplay : ∀ {r : Player} {script start bound},
      (r.requestPlay id script start bound) ≠ (q, .goes (.storing key s)) := fun {_ _ _ _} heq => by
    unfold requestPlay at heq
    split at heq
    · cases heq
    · split at heq <;> cases heq
  cases phase with
  | entering r =>
    cases r with
    | save =>
      simp only [step, accept, requestSave] at h
      split at h
      · cases h
      · cases h
      · next hsnap =>
        cases h
        exact ⟨rfl, rfl, hsnap, rfl⟩
    | play => exact absurd h hplay
    | reset | shutDown | skipToLine => cases h
    | playNamed | stepForward | stepBackward =>
      simp only [step, accept] at h
      split at h <;> cases h
    | skipToLabel =>
      simp only [step, accept, requestLabel] at h
      split at h
      · cases h
      · split at h <;> cases h
    | loadSnapshot =>
      simp only [step, accept, requestSnapshot] at h
      split at h <;> cases h
    | loadState =>
      simp only [step, accept, requestSnapshot] at h
      split at h
      · cases h
      · split at h <;> cases h
  | loading name =>
    simp only [step, loadAndPlay] at h
    split at h
    · cases h
    · split at h
      · cases h
      · exact absurd h hplay
  | playGate | resetGate =>
    have hheld : ¬ p.gate.isHeldBy id = true := henters
    simp only [step] at h
    rw [if_neg hheld] at h
    cases h
  | closeGate | backLock =>
    simp only [step] at h
    split at h <;> cases h
  | stepLock =>
    simp only [step] at h
    split at h
    · unfold beginStep at h
      split at h
      · cases h
      · cases h
      · next token _ _ =>
        generalize { p with context := { p.context with stepMode := true } }.beginLine
          token = x at h
        obtain ⟨r, progress⟩ := x
        cases progress with
        | ends by_ => cases by_ <;> cases h
        | _ => cases h
    · cases h
  | skipLock index =>
    simp only [step, skip] at h
    split at h
    · split at h
      · cases h
      · split at h <;> cases h
    · cases h
  | storing key' s' =>
    simp only [step, storeSnapshot] at h
    split at h <;> cases h
  | fetching key' restoring =>
    simp only [step, fetchSnapshot] at h
    split at h
    · cases h
    · split at h <;> cases h
  | restoreLock s' =>
    simp only [step, restoreSnapshot] at h
    split at h
    · split at h
      · cases h
      · split at h
        · cases h
        · split at h <;> cases h
    · cases h
  | playing | stepping => cases hline
  | _ => cases htoken

/-- Nothing else goes on to save a snapshot under a key. -/
lemma storing_of_step {key : String} {s : Snapshot}
    (h : p.step id phase = (q, .goes (.storing key s))) :
    phase = .entering .save ∧ key = Snapshot.key p.serial ∧
      p.context.snapshot? (Instant.ofMillis p.now) = some s ∧
      q = { p with serial := p.serial + 1 } := by
  have hready : (p.step id phase).2 ≠ .blocked := by
    rw [h]
    exact Progress.noConfusion
  have hnone : ∀ {T : Token} {r : Player}, ¬ PlaysNoLine T r (q, .goes (.storing key s)) :=
    fun hx => by cases (hx.next rfl).1
  have hreport : ∀ {r : Report} {e : Player}, ¬ Finished r e (q, .goes (.storing key s)) :=
    fun hx => by cases hx.ends
  by_cases henters : Enters id p phase
  · cases phase with
    | playGate script start bound =>
      have hheld : p.gate.isHeldBy id = true := henters
      have hx : Enrolls script bound p (q, .goes (.storing key s)) := h ▸ enrolls_step hheld
      cases hx with
      | ends _ _ hx => exact absurd hx hreport
      | starts _ _ _ hx => exact absurd hx hnone
    | resetGate =>
      have hheld : p.gate.isHeldBy id = true := henters
      simp only [step] at h
      rw [if_pos hheld] at h
      cases h
    | _ => exact henters.elim
  · obtain ⟨σ, hproceeds⟩ := exists_proceeds_step id phase p hready
    generalize hx : p.step id phase = x at hproceeds
    rw [h] at hx
    cases hproceeds with
    | flies _ _ _ _ _ _ hline =>
      cases hx
      cases hline
    | plays => exact absurd (hx ▸ playsNoLine_afterLine) hnone
    | steps => cases hx
    | playsNoLine _ _ _ hy => exact absurd (hx ▸ hy) hnone
    | @starts token run name =>
      rcases p.startLines_cases id token run name with ⟨r, hr⟩ | ⟨e, -, he⟩
      · exact absurd (hx ▸ hr) hreport
      · exact absurd (hx ▸ he) hnone
    | enrolls hphase hheld =>
      subst hphase
      exact absurd hheld henters
    | resets => cases hx
    | tends htoken hline => exact storing_of_tends htoken hline henters h

end Player

namespace Session

variable {s s' : Session} {a : Action} {t : Task}

/-- Identifiers are given in order. -/
lemma Does.serial_le (h : s.Does a s') : s.player.serial ≤ s'.player.serial := by
  cases a with
  | submit | wait =>
    cases h
    exact Nat.le_refl _
  | call c =>
    cases h
    exact Nat.le_of_eq (congrArg Player.Estate.serial Player.estate_perform).symm
  | go id =>
    obtain ⟨t, x, -, hmoved⟩ := h.moved
    have hready : (s.player.step t.id t.phase).2 ≠ .blocked := hmoved.step ▸ hmoved.ready
    rw [hmoved.player, ← hmoved.step]
    exact Player.serial_le_step t.id t.phase s.player hready

/-- A request that waits to write did so before, or it has just got the next key. -/
lemma Does.storing (h : s.Does a s') (hdistinct : s.Distinct) (ht : t ∈ s'.tasks) {key : String}
    {x : Snapshot} (hphase : t.phase = .storing key x) :
    t ∈ s.tasks ∨ key = Snapshot.key s.player.serial ∧ s.player.serial < s'.player.serial := by
  cases a with
  | submit id r =>
    cases h
    rcases List.mem_append.mp ht with ht | ht
    · exact .inl ht
    · rw [List.mem_singleton.mp ht] at hphase
      cases hphase
  | call | wait =>
    cases h
    exact .inl ht
  | go id =>
    obtain ⟨u, y, -, hmoved⟩ := h.moved
    rcases hmoved.cases hdistinct ht with ⟨hold, -⟩ | ⟨-, hgoes⟩
    · exact .inl hold
    · obtain ⟨q, progress⟩ := y
      have hstep : s.player.step u.id u.phase = (q, .goes (.storing key x)) := by
        rw [hmoved.step, ← hphase]
        exact congrArg (Prod.mk q) hgoes
      obtain ⟨-, hkey, -, hq⟩ := Player.storing_of_step hstep
      refine .inr ⟨hkey, ?_⟩
      rw [hmoved.player, hq]
      exact Nat.lt_succ_self _

/-- The keys that requests wait to write to were given before. -/
def Keyed (s : Session) : Prop :=
  ∀ t ∈ s.tasks, ∀ key x, t.phase = .storing key x → ∃ n < s.player.serial, key = Snapshot.key n

lemma Keyed.does (h : s.Keyed) (hdistinct : s.Distinct) (hdoes : s.Does a s') : s'.Keyed := by
  intro t ht key x hphase
  rcases hdoes.storing hdistinct ht hphase with hold | ⟨hkey, hlt⟩
  · obtain ⟨n, hn, hkey⟩ := h t hold key x hphase
    exact ⟨n, Nat.lt_of_lt_of_le hn hdoes.serial_le, hkey⟩
  · exact ⟨_, hlt, hkey⟩

end Session

end Recital

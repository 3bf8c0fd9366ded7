import Recital.Proofs.Player.LineFrame
import Recital.Proofs.Session.Finish
import Mathlib.Data.List.DropRight

/-!
# Breakpoints

A playback looks for a breakpoint each time before it begins a line.  If there is one where the
cursor stands, the playback pauses and marks the breakpoint as released, and when it comes back to
the same place, it lets the line through and takes the mark away.  So between two lines one of two
things is true (`Player.Watched`): nothing was said of a breakpoint since the last line, and none is
released; or the playback was paused once, by the breakpoint that is released, and stands there
still.

The look goes to the cursor, and the line that is begun is found only after it: at the end of the
script it is the one at the latest return address, whose breakpoint was not looked for.
-/

namespace Recital

/-- What was published after the first `n` events and after the last line that was begun. -/
def Bus.sinceLine (b : Bus) (n : Nat) : List Event.Payload :=
  ((b.log.toList.drop n).map (·.payload)).rtakeWhile (·.begins?.isNone)

namespace Event.Payload

/-- The events say nothing of lines that were begun or breakpoints that were hit. -/
def Unmarked (events : List Event.Payload) : Prop := ∀ e ∈ events, e.isSignpost = false

/-- The events say that the breakpoint of a line has paused the playback, once, and nothing of
others or of lines. -/
def MarkedOnce (index : Nat) (events : List Event.Payload) : Prop :=
  ∃ before after, events =
      before ++ breakpointHit index :: stateChanged .playing .paused :: after ∧
    Unmarked before ∧ Unmarked after

variable {e : Event.Payload} {events news : List Event.Payload} {index : Nat}

lemma begins?_of_isSignpost (h : e.isSignpost = false) : e.begins? = none := by
  cases e with
  | lineExecuting => cases h
  | _ => rfl

lemma Unmarked.append (h : Unmarked events) (hnews : Unmarked news) : Unmarked (events ++ news) :=
  fun e he => (List.mem_append.mp he).elim (h e) (hnews e)

lemma MarkedOnce.append (h : MarkedOnce index events) (hnews : Unmarked news) :
    MarkedOnce index (events ++ news) := by
  obtain ⟨before, after, rfl, hbefore, hafter⟩ := h
  exact ⟨before, after ++ news, by simp, hbefore, hafter.append hnews⟩

end Event.Payload

open Event.Payload

namespace Bus

variable {b c : Bus} {e : Event} {n : Nat}

/-- The lines that were begun show no difference between a bus and one that extends it. -/
lemma Extends.begun (h : b.Extends c) : c.begun = b.begun := by
  obtain ⟨news, hnews, hplain⟩ := h.log
  have hnone : news.filterMap (·.payload.begins?) = [] :=
    List.filterMap_eq_nil_iff.mpr fun e he => begins?_of_isSignpost (hplain e he)
  unfold Bus.begun
  rw [hnews, List.filterMap_append, hnone, List.append_nil]

lemma Extends.size_le (h : b.Extends c) : b.log.size ≤ c.log.size := by
  obtain ⟨news, hnews, -⟩ := h.log
  have hlength := congrArg List.length hnews
  simp only [Array.length_toList, List.length_append] at hlength
  omega

/-- What says nothing of lines is added to what was published since the last one. -/
lemma Extends.sinceLine (h : b.Extends c) (hn : n ≤ b.log.size) :
    ∃ news, c.sinceLine n = b.sinceLine n ++ news ∧ Unmarked news := by
  obtain ⟨news, hnews, hplain⟩ := h.log
  refine ⟨news.map (·.payload), ?_, fun e he => ?_⟩
  · have hdrop : c.log.toList.drop n = b.log.toList.drop n ++ news := by
      rw [hnews, List.drop_append_of_le_length (by simpa using hn)]
    unfold Bus.sinceLine List.rtakeWhile
    rw [hdrop, List.map_append, List.reverse_append, List.takeWhile_append_of_pos,
      List.reverse_append, List.reverse_reverse]
    intro e he
    obtain ⟨event, hevent, rfl⟩ := List.mem_map.mp (List.mem_reverse.mp he)
    rw [begins?_of_isSignpost (hplain event hevent)]
    rfl
  · obtain ⟨event, hevent, rfl⟩ := List.mem_map.mp he
    exact hplain event hevent

lemma Extends.unmarked (h : b.Extends c) (hn : n ≤ b.log.size) (hb : Unmarked (b.sinceLine n)) :
    Unmarked (c.sinceLine n) := by
  obtain ⟨news, hnews, hplain⟩ := h.sinceLine hn
  rw [hnews]
  exact hb.append hplain

@[simp] lemma closed_publish (b : Bus) (e : Event) : (b.publish e).closed = b.closed := by
  unfold publish
  split <;> rfl

lemma begun_publish (he : e.payload.begins? = none) : (b.publish e).begun = b.begun := by
  unfold publish
  split
  · rfl
  · simp [begun, he]

lemma size_publish (b : Bus) (e : Event) : b.log.size ≤ (b.publish e).log.size := by
  unfold publish
  split
  · exact Nat.le_refl _
  · simp

/-- Nothing else was published since a line that is just being begun. -/
lemma sinceLine_publish_of_begins (hopen : b.closed = false) (he : e.payload.begins? ≠ none)
    (hn : n ≤ b.log.size) : (b.publish e).sinceLine n = [] := by
  have hlog : (b.publish e).log.toList = b.log.toList ++ [e] := by simp [publish, hopen]
  have hdrop : (b.publish e).log.toList.drop n = b.log.toList.drop n ++ [e] := by
    rw [hlog, List.drop_append_of_le_length (by simpa using hn)]
  unfold Bus.sinceLine
  rw [hdrop, List.map_append, List.map_cons, List.map_nil, List.rtakeWhile_concat_neg]
  simpa using he

/-- An event that begins no line is added to what was published since the last one. -/
lemma sinceLine_publish (hopen : b.closed = false) (he : e.payload.begins? = none)
    (hn : n ≤ b.log.size) : (b.publish e).sinceLine n = b.sinceLine n ++ [e.payload] := by
  have hlog : (b.publish e).log.toList = b.log.toList ++ [e] := by simp [publish, hopen]
  have hdrop : (b.publish e).log.toList.drop n = b.log.toList.drop n ++ [e] := by
    rw [hlog, List.drop_append_of_le_length (by simpa using hn)]
  unfold Bus.sinceLine
  rw [hdrop, List.map_append, List.map_cons, List.map_nil, List.rtakeWhile_concat_pos]
  rw [he]
  rfl

end Bus

namespace Player

variable {p q : Player} {id n : Nat} {play : Play} {phase next : Phase} {x : Player × Progress}
  {index : Nat}

/-! ### Between two lines -/

/-- A playback that goes on between two lines publishes nothing. -/
def Idles (p : Player) (x : Player × Progress) : Prop :=
  ∀ next, x.2 = .goes next → next.isBetween = true ∧ x.1.bus = p.bus ∧ x.1.context = p.context

lemma idles_finish (f : Finish) : Idles q (p.finish f) := fun _ h => Progress.noConfusion h

lemma idles_playOn : Idles p (p.playOn id play) := by
  unfold playOn
  split
  · exact idles_finish _
  · split
    · exact idles_finish _
    · split
      · intro next h
        cases h
        exact ⟨rfl, rfl, rfl⟩
      · intro next h
        cases h
        exact ⟨rfl, rfl, rfl⟩
      · intro next h
        cases h
        exact ⟨rfl, rfl, rfl⟩
      · exact idles_finish _
      · exact idles_finish _

lemma idles_continuePlay : Idles p (p.continuePlay id play) := by
  unfold continuePlay
  split
  · intro next h
    cases h
    exact ⟨rfl, rfl, rfl⟩
  · exact idles_playOn

lemma idles_autosave : Idles p (p.autosave id play) := by
  unfold autosave
  split
  · intro next h
    cases h
    exact ⟨rfl, rfl, rfl⟩
  · exact idles_continuePlay

lemma idles_afterLine {by_ : LineEnd} : Idles p (p.afterLine id play by_) := by
  unfold afterLine
  dsimp only
  split
  · exact idles_finish _
  · split
    · exact fun next h => idles_autosave next h
    · intro next h
      cases h
      exact ⟨rfl, rfl, rfl⟩

/-- A playback that waits between two lines, but for the line lock, stays there. -/
lemma idles_step (hphase : phase.isBetween = true) (hlock : ∀ play, phase ≠ .playLock play) :
    Idles p (p.step id phase) := by
  cases phase with
  | paused play =>
    simp only [step]
    split
    · exact idles_finish _
    · split
      · exact fun _ h => Progress.noConfusion h
      · exact idles_playOn
  | delaying play until_ =>
    simp only [step]
    split
    · exact idles_finish _
    · split
      · exact idles_autosave
      · exact fun _ h => Progress.noConfusion h
  | autosaving play s =>
    have hmeasure : ∀ q : Player, q.measureMemory.bus = q.bus ∧
        q.measureMemory.context = q.context := by
      intro q
      unfold measureMemory
      dsimp only
      split
      · split <;> exact ⟨rfl, rfl⟩
      · exact ⟨rfl, rfl⟩
    have hwrite : ∀ key, (p.write key s).2.bus = p.bus ∧ (p.write key s).2.context = p.context := by
      intro key
      unfold write
      split <;> exact ⟨rfl, rfl⟩
    have hidles : ∀ q : Player, q.bus = p.bus → q.context = p.context →
        Idles p (q.measureMemory.continuePlay id play) := by
      intro q hbus hcontext next hnext
      obtain ⟨hbetween, hb, hc⟩ := idles_continuePlay next hnext
      exact ⟨hbetween, hb.trans ((hmeasure q).1.trans hbus),
        hc.trans ((hmeasure q).2.trans hcontext)⟩
    simp only [step]
    split
    · exact hidles p rfl rfl
    · exact hidles _ (hwrite _).1 (hwrite _).2
  | playLock play => exact absurd rfl (hlock play)
  | _ => cases hphase

/-! ### Before the lines -/

/-- A playback begins no line between two lines. -/
lemma begun_of_between {token : Token} (h : Between id token p x) :
    x.1.bus.begun = p.bus.begun := by
  cases h with
  | goes _ _ hbearing => exact congrArg Bearing.begun hbearing
  | ends hended => exact hended.begun

lemma extends_stop : p.bus.Extends p.stop.bus := by
  obtain ⟨q, hq⟩ : ∃ q : Player, q = { p with stopRequested := true } := ⟨_, rfl⟩
  have hbus : q.bus = p.bus := by rw [hq]
  have hmoved : q.bus.Extends (q.moveIfAllowed p.run .stopped).bus := extends_moveIfAllowed
  rw [hbus] at hmoved
  unfold stop
  split
  · rw [← hq, cancelRun_eq]
    exact hmoved
  · exact .refl _

/-- Getting ready for a playback says nothing of lines, and no breakpoint is released then. -/
lemma extends_prepare (p : Player) (script : Script) (bound : Bool) :
    p.bus.Extends (p.prepare script bound).2.bus ∧
      (p.prepare script bound).2.context.released = none := by
  obtain ⟨q, hq⟩ : ∃ q, q = { p with
    token := some ⟨p.serial, bound⟩
    run := .numbered p.serial
    serial := p.serial + 1 }.clearLeftovers := ⟨_, rfl⟩
  have hbus : q.bus = p.bus := by rw [hq]; rfl
  obtain ⟨r, hr⟩ : ∃ r, r = q.resetState (.numbered p.serial) := ⟨_, rfl⟩
  have hreset : p.bus.Extends r.bus := by
    rw [← hbus, hr]
    exact extends_resetState
  have hmoved : r.bus.Extends (r.moveFrom (.numbered p.serial) .idle .loading).2.bus :=
    extends_moveFrom
  unfold prepare
  dsimp only
  rw [← hq, ← hr]
  exact ⟨hreset.trans hmoved, rfl⟩

lemma released_startAt {c : Context} {start : Start} (h : c.released = none) :
    (startAt c start).released = none := by
  cases start with
  | beginning | line => exact h
  | snapshot => rfl

/-- What a step before the lines does: it begins none, and once the playback has the gate, no
breakpoint is released. -/
structure Quiets (p : Player) (x : Player × Progress) : Prop where
  begun : x.1.bus.begun = p.bus.begun
  goes : ∀ next, x.2 = .goes next → p.bus.Extends x.1.bus ∧
    (next.isFresh = true ∨ next.line? = none ∧ x.1.context.released = none)

lemma quiets_answer {answer : Answer} (h : q.bus.begun = p.bus.begun) :
    Quiets p (q, .ends answer) :=
  ⟨h, fun _ h => Progress.noConfusion h⟩

lemma quiets_blocked : Quiets p (p, .blocked) := ⟨rfl, fun _ h => Progress.noConfusion h⟩

lemma quiets_goes (hbus : p.bus.Extends q.bus)
    (hnext : next.isFresh = true ∨ next.line? = none ∧ q.context.released = none) :
    Quiets p (q, .goes next) := by
  refine ⟨hbus.begun, fun n hn => ?_⟩
  cases hn
  exact ⟨hbus, hnext⟩

lemma quiets_finish (hbus : p.bus.Extends q.bus) (f : Finish) : Quiets p (q.finish f) :=
  ⟨(ended_finish q f).begun.trans hbus.begun, fun _ h => Progress.noConfusion h⟩

lemma quiets_startLines {token : Token} {run : Run} {script : String}
    (hbus : p.bus.Extends q.bus) (hreleased : q.context.released = none) :
    Quiets p (q.startLines id token run script) := by
  obtain ⟨r, hr⟩ : ∃ r, r = (q.publish run (.scriptStarted script)).setCheckpoint := ⟨_, rfl⟩
  have hfurthers : Furthers q r := by
    rw [hr]
    exact (furthers_publish rfl).trans furthers_setCheckpoint
  obtain ⟨e, he⟩ : ∃ e, e = r.moveFrom run .loading .playing := ⟨_, rfl⟩
  have hmoved : Furthers q e.2 := he ▸ hfurthers.trans furthers_moveFrom
  have hstarted : p.bus.Extends e.2.bus := hbus.trans hmoved.bus
  unfold startLines
  split
  · exact quiets_finish hbus _
  · dsimp only
    rw [← hr, ← he]
    split
    · obtain ⟨play, hplay⟩ : ∃ play : Play, play = ⟨token, e.2.stopwatch⟩ := ⟨_, rfl⟩
      rw [← hplay]
      have hbegun : (e.2.continuePlay id play).1.bus.begun = e.2.bus.begun :=
        begun_of_between between_continuePlay
      refine ⟨hbegun.trans hstarted.begun, fun next hnext => ?_⟩
      obtain ⟨hbetween, hb, hc⟩ := idles_continuePlay next hnext
      have hnot : next.line? = none := by
        cases next with
        | playing | stepping => cases hbetween
        | _ => rfl
      rw [hb, hc]
      exact ⟨hstarted, .inr ⟨hnot, hmoved.released hreleased⟩⟩
    · exact quiets_finish hstarted _

lemma quiets_beginPlay {script : Script} {start : Start} {bound : Bool} :
    Quiets p (p.beginPlay id script start bound) := by
  obtain ⟨hbus, hreleased⟩ := extends_prepare p script bound
  unfold beginPlay
  split
  · exact quiets_answer rfl
  · dsimp only
    generalize (p.prepare script bound).2 = q at hbus hreleased
    split
    · exact quiets_finish (hbus.trans extends_moveFrom) _
    · have hstart : (startAt { q.context with labels := script.survey.labels } start).released =
          none := released_startAt hreleased
      split
      · split
        · refine quiets_finish ?_ _
          exact hbus
        · exact quiets_goes hbus (.inr ⟨rfl, hstart⟩)
      · exact quiets_startLines hbus hstart

lemma quiets_requestPlay {script : Script} {start : Start} {bound : Bool} :
    Quiets p (p.requestPlay id script start bound) := by
  unfold requestPlay
  split
  · exact quiets_answer rfl
  · split
    · exact quiets_answer rfl
    · exact quiets_goes extends_stop (.inl rfl)

lemma quiets_step (id : Nat) (hphase : phase.isEarly = true)
    (hreleased : phase.isFresh = false → p.context.released = none) :
    Quiets p (p.step id phase) := by
  cases phase with
  | entering r =>
    cases r with
    | play script start bound => exact quiets_requestPlay
    | playNamed name =>
      simp only [step, accept]
      split
      · exact quiets_answer rfl
      · exact quiets_goes (.refl _) (.inl rfl)
    | _ => cases hphase
  | loading name =>
    simp only [step, loadAndPlay]
    split
    · exact quiets_answer rfl
    · split
      · exact quiets_answer rfl
      · exact quiets_requestPlay
  | playGate script start bound =>
    simp only [step]
    split
    · exact quiets_beginPlay
    · exact quiets_blocked
  | preloading token run script until_ =>
    simp only [step]
    split
    · exact quiets_startLines (.refl _) (hreleased rfl)
    · exact quiets_blocked
  | _ => cases hphase

/-! ### What was said of breakpoints -/

/-- What was said of breakpoints since the last line goes with the one that is released. -/
inductive Watched (n : Nat) (p : Player) (phase : Phase) : Prop
  /-- The playback has not got the gate, and nothing was said. -/
  | fresh (hphase : phase.isFresh = true) (hsince : Unmarked (p.bus.sinceLine n))
  /-- Nothing was said, and no breakpoint is released. -/
  | clear (hreleased : p.context.released = none) (hsince : Unmarked (p.bus.sinceLine n))
  /-- The playback was paused once, by the breakpoint that is released, where it stands still. -/
  | caught (hphase : phase.isBetween = true)
      (hreleased : p.context.released = some p.context.cursor)
    (hbreak : p.context.breakpoints.contains p.context.cursor = true)
    (hsince : MarkedOnce p.context.cursor (p.bus.sinceLine n))

/-- Nothing was said of breakpoints before a playback has come to its lines, nor is said in a
line. -/
lemma Watched.unmarked (h : Watched n p phase) (hphase : phase.isBetween = false) :
    Unmarked (p.bus.sinceLine n) := by
  cases h with
  | fresh _ hsince | clear _ hsince => exact hsince
  | caught hbetween => exact absurd (hphase.symm.trans hbetween) Bool.false_ne_true

lemma Watched.released (h : Watched n p phase) (hphase : phase.isBetween = false)
    (hfresh : phase.isFresh = false) : p.context.released = none := by
  cases h with
  | fresh h => exact absurd (hfresh.symm.trans h) Bool.false_ne_true
  | clear hreleased => exact hreleased
  | caught hbetween => exact absurd (hphase.symm.trans hbetween) Bool.false_ne_true

/-- The same was said of breakpoints where nothing but plain events were published. -/
lemma Watched.of_extends (h : Watched n p phase) (hn : n ≤ p.bus.log.size)
    (hbus : p.bus.Extends q.bus) (hphase : phase.isBetween = true → next.isBetween = true)
    (hfresh : phase.isFresh = true → next.isFresh = true)
    (hreleased : q.context.released = p.context.released)
    (hcursor : q.context.cursor = p.context.cursor)
    (hbreak : ∀ index, p.context.breakpoints.contains index = true →
      q.context.breakpoints.contains index = true) : Watched n q next := by
  cases h with
  | fresh h hsince => exact .fresh (hfresh h) (hbus.unmarked hn hsince)
  | clear h hsince => exact .clear (hreleased.trans h) (hbus.unmarked hn hsince)
  | caught h hmark hset hsince =>
    obtain ⟨news, hnews, hplain⟩ := hbus.sinceLine hn
    refine .caught (hphase h) ?_ ?_ ?_
    · rw [hreleased, hcursor]
      exact hmark
    · rw [hcursor]
      exact hbreak _ hset
    · rw [hcursor, hnews]
      exact hsince.append hplain

/-- A player with an open bus that has shown at least `n` events, and is watched since. -/
structure Tracked (n : Nat) (p : Player) (phase : Phase) : Prop where
  size : n ≤ p.bus.log.size
  isOpen : p.bus.closed = false
  watched : Watched n p phase

/-- Between two lines a playback is tracked as before. -/
lemma Tracked.idles (h : Tracked n p phase) (hphase : phase.isFresh = false)
    (hx : Idles p x) (hnext : x.2 = .goes next) : Tracked n x.1 next := by
  obtain ⟨hbetween, hbus, hcontext⟩ := hx next hnext
  refine ⟨hbus ▸ h.size, hbus ▸ h.isOpen, h.watched.of_extends h.size ?_ (fun _ => hbetween)
    (fun hfresh => ?_) ?_ ?_ ?_⟩
  · rw [hbus]
    exact .refl _
  · exact absurd (hphase.symm.trans hfresh) Bool.false_ne_true
  · rw [hcontext]
  · rw [hcontext]
  · rw [hcontext]
    exact fun _ h => h

/-- What becomes of a line leaves nothing to be said of breakpoints if the line does not. -/
lemma Tracked.followPlay {y : Player × LineProgress} (h : Tracked n y.1 (.paused play))
    (hreleased : y.1.context.released = none) (hsince : Unmarked (y.1.bus.sinceLine n))
    (hnext : (followPlay id play y).2 = .goes next) :
    Tracked n (followPlay id play y).1 next := by
  obtain ⟨q, progress⟩ := y
  cases progress with
  | blocked => cases hnext
  | goes line => exact ⟨h.size, h.isOpen, .clear hreleased hsince⟩
  | ends by_ => exact h.idles rfl idles_afterLine hnext

/-- The breakpoint at the cursor, if it is not the one that is released, or else nothing. -/
lemma takeBreakpoint_cases (c : Context) :
    (c.takeBreakpoint = (some c.cursor, { c with released := some c.cursor }) ∧
        c.breakpoints.contains c.cursor = true ∧ c.released ≠ some c.cursor) ∨
      (c.takeBreakpoint = (none, { c with released := none }) ∧
        c.breakpoints.contains c.cursor = true ∧ c.released = some c.cursor) ∨
      c.takeBreakpoint = (none, c) ∧ c.breakpoints.contains c.cursor = false := by
  unfold Context.takeBreakpoint
  by_cases hset : c.breakpoints.contains c.cursor = true
  · rw [if_neg (by rw [hset]; decide)]
    by_cases hreleased : c.released = some c.cursor
    · rw [if_pos hreleased]
      exact .inr (.inl ⟨rfl, hset, hreleased⟩)
    · rw [if_neg hreleased]
      exact .inl ⟨rfl, hset, hreleased⟩
  · rw [if_pos (by rw [Bool.not_eq_true _ |>.mp hset]; decide)]
    exact .inr (.inr ⟨rfl, Bool.not_eq_true _ |>.mp hset⟩)

/-- What is done with a playback that has the line lock: it goes on between two lines, a breakpoint
pauses it, or a line is begun. -/
inductive Plays (n id : Nat) (play : Play) (p : Player) : Player × Progress → Prop
  | idles {x : Player × Progress} (hx : Idles p x) (hbegun : x.1.bus.begun = p.bus.begun) :
    Plays n id play p x
  | hits {q : Player} (hbreak : p.context.breakpoints.contains p.context.cursor = true)
    (hreleased : p.context.released ≠ some p.context.cursor)
    (hcontext : q.context = { p.context with released := some p.context.cursor })
    (hbegun : q.bus.begun = p.bus.begun) (hclosed : q.bus.closed = p.bus.closed)
    (hn : n ≤ q.bus.log.size)
    (hsince : p.bus.closed = false → q.bus.sinceLine n =
      p.bus.sinceLine n ++ [.breakpointHit p.context.cursor, .stateChanged .playing .paused]) :
    Plays n id play p (q, .goes (.paused play))
  | begins {context : Context} (hcontext : p.context.takeBreakpoint = (none, context)) :
    Plays n id play p (followPlay id play ({ p with context }.beginLine play.token))

lemma plays_playLine (id : Nat) (play : Play) (hn : n ≤ p.bus.log.size) :
    Plays n id play p (p.playLine id play) := by
  have hengages := p.engages_playLine id play
  generalize p.playLine id play = x at hengages ⊢
  cases hengages with
  | yields =>
    have hbetween : Between id play.token { p with lineLock := p.lineLock.release }
        ({ p with lineLock := p.lineLock.release }.continuePlay id play) := between_continuePlay
    have hbegun := begun_of_between hbetween
    exact .idles (fun next h => idles_continuePlay next h) hbegun
  | @pauses r q index context _ hstate htaken hr hq =>
    obtain ⟨hset, hreleased, hindex, hcontext⟩ :
        p.context.breakpoints.contains p.context.cursor = true ∧
          p.context.released ≠ some p.context.cursor ∧ index = p.context.cursor ∧
          context = { p.context with released := some p.context.cursor } := by
      rcases takeBreakpoint_cases p.context with ⟨heq, hset, hreleased⟩ | ⟨heq, -⟩ | ⟨heq, -⟩
      · cases heq.symm.trans htaken
        exact ⟨hset, hreleased, rfl, rfl⟩
      · cases heq.symm.trans htaken
      · cases heq.symm.trans htaken
    have hrstate : r.state = .playing := by rw [hr]; exact hstate
    have hrcontext : r.context = context := by rw [hr]; rfl
    have hrbus : r.bus =
        p.bus.publish ⟨.breakpointHit index, Instant.ofMillis p.now, p.run⟩ := by
      rw [hr]
      rfl
    rw [moveFrom_eq _ _ hrstate rfl] at hq
    have hqstate : { q with lineLock := q.lineLock.release }.state = .paused := by rw [hq]; rfl
    have hqcontext : q.context = r.context := by rw [hq]; rfl
    have hqbus : q.bus =
        r.bus.publish ⟨.stateChanged .playing .paused, Instant.ofMillis r.now, r.run⟩ := by
      rw [hq, ← hrstate]
      rfl
    have hrn : n ≤ r.bus.log.size := hrbus ▸ Nat.le_trans hn (Bus.size_publish _ _)
    have hclosed : q.bus.closed = p.bus.closed := by
      rw [hqbus, hrbus, Bus.closed_publish, Bus.closed_publish]
    rw [continuePlay, if_pos hqstate]
    refine .hits hset hreleased ((hqcontext.trans hrcontext).trans hcontext) ?_ hclosed ?_
      fun hopen => ?_
    · show q.bus.begun = _
      rw [hqbus, Bus.begun_publish rfl, hrbus, Bus.begun_publish rfl]
    · show n ≤ q.bus.log.size
      rw [hqbus]
      exact Nat.le_trans hrn (Bus.size_publish _ _)
    · have hropen : r.bus.closed = false := by rw [hrbus, Bus.closed_publish, hopen]
      show q.bus.sinceLine n = _
      rw [hqbus, Bus.sinceLine_publish hropen rfl hrn, hrbus,
        Bus.sinceLine_publish hopen rfl hn, List.append_assoc, hindex]
      rfl
  | begins _ _ htaken => exact .begins htaken

/-- When a breakpoint lets a line through, or there is none, no breakpoint is released. -/
lemma Watched.released_of_take {context : Context} (h : Watched n p phase)
    (hfresh : phase.isFresh = false) (htake : p.context.takeBreakpoint = (none, context)) :
    context.released = none ∧ context.settleCursor.cursor = p.context.settleCursor.cursor ∧
      (if p.context.breakpoints.contains p.context.cursor = true then
        MarkedOnce p.context.cursor (p.bus.sinceLine n)
      else Unmarked (p.bus.sinceLine n)) := by
  have hcursor : ∀ released,
      { p.context with released }.settleCursor.cursor = p.context.settleCursor.cursor := by
    intro released
    have hessence : { p.context with released }.settleCursor.essence =
        p.context.settleCursor.essence := by
      rw [Context.essence_settleCursor, Context.essence_settleCursor]
      rfl
    exact (congrArg Context.cursor hessence :)
  rcases takeBreakpoint_cases p.context with ⟨heq, -⟩ | ⟨heq, hset, hreleased⟩ | ⟨heq, hset⟩
  · cases heq.symm.trans htake
  · cases heq.symm.trans htake
    rw [if_pos hset]
    refine ⟨rfl, hcursor none, ?_⟩
    cases h with
    | fresh h => exact absurd (hfresh.symm.trans h) Bool.false_ne_true
    | clear h => cases h.symm.trans hreleased
    | caught _ _ _ hsince => exact hsince
  · cases heq.symm.trans htake
    rw [if_neg (by rw [hset]; exact Bool.false_ne_true)]
    cases h with
    | fresh h => exact absurd (hfresh.symm.trans h) Bool.false_ne_true
    | clear hreleased hsince => exact ⟨hreleased, rfl, hsince⟩
    | caught _ _ h => exact absurd (hset.symm.trans h) Bool.false_ne_true

/-- A line that is served leaves nothing to be said of breakpoints if nothing was said before. -/
lemma tracked_of_serves {w : Work} {y : Player × LineProgress} (hserves : Serves w p y)
    (hsize : n ≤ p.bus.log.size) (hopen : p.bus.closed = false)
    (hreleased : p.context.released = none) (hsince : Unmarked (p.bus.sinceLine n))
    (hnext : (followPlay id play y).2 = .goes next) :
    Tracked n (followPlay id play y).1 next := by
  have hbus := hserves.furthers.bus
  have hlate : y.1.context.released = none := hserves.furthers.released hreleased
  have hunmarked := hbus.unmarked hsize hsince
  exact Tracked.followPlay ⟨Nat.le_trans hsize hbus.size_le, hbus.closed.trans hopen,
    .clear hlate hunmarked⟩ hlate hunmarked hnext

/-- What is said of breakpoints after a step of a playback goes with the one that is released. -/
lemma Tracked.step (id : Nat) (h : Tracked n p phase) (hphase : phase.isPlayback = true)
    (hnext : (p.step id phase).2 = .goes next) : Tracked n (p.step id phase).1 next := by
  have hwatched := h.watched
  cases hearly : phase.isEarly with
  | true =>
    have hbetween : phase.isBetween = false := by cases phase <;> first | rfl | cases hearly
    obtain ⟨hbus, hcases⟩ :=
      (quiets_step id hearly (hwatched.released hbetween)).goes next hnext
    have hsince := hbus.unmarked h.size (hwatched.unmarked hbetween)
    refine ⟨Nat.le_trans h.size hbus.size_le, hbus.closed.trans h.isOpen, ?_⟩
    rcases hcases with hfresh | ⟨-, hreleased⟩
    · exact .fresh hfresh hsince
    · exact .clear hreleased hsince
  | false =>
    cases phase with
    | paused play => exact h.idles rfl (idles_step rfl fun _ h => Phase.noConfusion h) hnext
    | delaying play until_ =>
      exact h.idles rfl (idles_step rfl fun _ h => Phase.noConfusion h) hnext
    | autosaving play s => exact h.idles rfl (idles_step rfl fun _ h => Phase.noConfusion h) hnext
    | playLock play =>
      simp only [Player.step] at hnext ⊢
      split at hnext
      · next hheld =>
        rw [if_pos hheld]
        have hplays := plays_playLine id play h.size
        generalize p.playLine id play = x at hplays hnext ⊢
        cases hplays with
        | idles hx => exact h.idles rfl hx hnext
        | hits hbreak hreleased hcontext hbegun hclosed hsize hsince =>
          cases hnext
          refine ⟨hsize, hclosed.trans h.isOpen, .caught rfl ?_ ?_ ?_⟩
          · rw [hcontext]
          · rw [hcontext]
            exact hbreak
          · have hbefore : Unmarked (p.bus.sinceLine n) := by
              cases hwatched with
              | fresh h => cases h
              | clear _ hsince => exact hsince
              | caught _ h => exact absurd h hreleased
            rw [hcontext, hsince h.isOpen]
            exact ⟨_, [], rfl, hbefore, fun _ h => absurd h List.not_mem_nil⟩
        | @begins context htake =>
          obtain ⟨hreleased, -⟩ := hwatched.released_of_take rfl htake
          rcases serves_beginLine { p with context } play.token with ⟨heq, -⟩ | ⟨w, -, -, hserves⟩
          · rw [heq] at hnext
            cases hnext
          · obtain ⟨q, hq⟩ : ∃ q, q = { p with context := context.settleCursor }.publish p.run
              (.lineExecuting w.index w.source) := ⟨_, rfl⟩
            have hbus : q.bus = p.bus.publish
                ⟨.lineExecuting w.index w.source, Instant.ofMillis p.now, p.run⟩ := by
              rw [hq]
              rfl
            have hqreleased : q.context.released = none := by
              rw [hq]
              exact (Context.released_settleCursor context).trans hreleased
            have hsince : q.bus.sinceLine n = [] := by
              rw [hbus]
              exact Bus.sinceLine_publish_of_begins h.isOpen (Option.some_ne_none _) h.size
            refine tracked_of_serves (hq ▸ hserves) ?_ ?_ hqreleased ?_ hnext
            · rw [hbus]
              exact Nat.le_trans h.size (Bus.size_publish _ _)
            · rw [hbus, Bus.closed_publish]
              exact h.isOpen
            · rw [hsince]
              exact fun _ h => absurd h List.not_mem_nil
      · cases hnext
    | playing play line =>
      exact tracked_of_serves (serves_stepLine p line) h.size h.isOpen (hwatched.released rfl rfl)
        (hwatched.unmarked rfl) hnext
    | _ => simp_all [Phase.isPlayback, Phase.isBetween]

/-- What a playback makes of its line begins no other. -/
lemma begun_followPlay (y : Player × LineProgress) :
    (followPlay id play y).1.bus.begun = y.1.bus.begun := by
  obtain ⟨q, progress⟩ := y
  cases progress with
  | blocked | goes => rfl
  | ends by_ =>
    cases by_ with
    | next =>
      have hbetween : Between id play.token { q with lineLock := q.lineLock.release }
          (q.afterLine id play .next) := between_afterLine
      have hbegun := begun_of_between hbetween
      exact hbegun
    | finished f =>
      have hbegun := (ended_finish { q with lineLock := q.lineLock.release } f).begun
      exact hbegun

/-- A step of a playback that begins a line begins the one that the playback returns to from where
it stands, after the breakpoint where it stands has paused it once, if there is one. -/
lemma Tracked.begun (h : Tracked n p phase) (hphase : phase.isPlayback = true)
    (hready : (p.step id phase).2 ≠ .blocked)
    (hbegun : (p.step id phase).1.bus.begun = p.bus.begun ++ [index]) :
    index = p.context.settleCursor.cursor ∧
      if p.context.breakpoints.contains p.context.cursor = true then
        MarkedOnce p.context.cursor (p.bus.sinceLine n)
      else Unmarked (p.bus.sinceLine n) := by
  have hsame : (p.step id phase).1.bus.begun ≠ p.bus.begun := by
    rw [hbegun]
    simp
  have hwatched := h.watched
  cases hearly : phase.isEarly with
  | true =>
    have hbetween : phase.isBetween = false := by cases phase <;> first | rfl | cases hearly
    exact absurd (quiets_step id hearly (hwatched.released hbetween)).begun hsame
  | false =>
    have hturn : Turn id p phase (p.step id phase) :=
      (turn_playback hphase hearly).resolve_left hready
    have hbegins : Begins id p phase := by
      rcases hturn.begets with ⟨heq, -⟩ | ⟨hbegins, -⟩
      · exact absurd heq hsame
      · exact hbegins
    have hnot : ∀ play, Between id play p (p.step id phase) → False := fun play hbetween =>
      hsame (begun_of_between hbetween)
    cases phase with
    | playLock play =>
      simp only [Player.step] at hbegun hsame
      rw [if_pos hbegins.held] at hbegun hsame
      have hplays := plays_playLine id play h.size
      generalize p.playLine id play = x at hplays hbegun hsame
      cases hplays with
      | idles _ heq => exact absurd heq hsame
      | hits _ _ _ heq => exact absurd heq hsame
      | @begins context htake =>
        obtain ⟨-, hcursor, hsince⟩ := hwatched.released_of_take rfl htake
        refine ⟨?_, hsince⟩
        rw [begun_followPlay] at hbegun hsame
        rcases serves_beginLine { p with context } play.token with
          ⟨heq, -⟩ | ⟨w, -, hindex, hserves⟩
        · rw [heq] at hsame
          exact absurd rfl hsame
        · have hextends := hserves.furthers.bus.begun
          have hpublish : ({ p with context := context.settleCursor }.publish p.run
              (.lineExecuting w.index w.source)).bus.begun = p.bus.begun ++ [w.index] := by
            simp [publish, Bus.publish, h.isOpen, Bus.begun, begins?]
          rw [hextends, hpublish] at hbegun
          have hw : w.index = index := List.singleton_inj.mp (List.append_cancel_left hbegun)
          rw [← hw, hindex]
          exact hcursor
    | paused play =>
      have hcases : p.step id (.paused play) = (p, .blocked) ∨
          Between id play.token p (p.step id (.paused play)) := between_step_paused
      rcases hcases with heq | hbetween
      · exact absurd (by rw [heq]) hready
      · exact (hnot _ hbetween).elim
    | delaying play until_ =>
      have hcases : p.step id (.delaying play until_) = (p, .blocked) ∨
          Between id play.token p (p.step id (.delaying play until_)) := between_step_delaying
      rcases hcases with heq | hbetween
      · exact absurd (by rw [heq]) hready
      · exact (hnot _ hbetween).elim
    | autosaving play s => exact (hnot _ between_step_autosaving).elim
    | playing play line => cases hbegins.unlined
    | _ => simp_all [Phase.isPlayback, Phase.isBetween]

/-! ### Calls -/

lemma contains_addBreakpoint {c : Context} {m : Nat} (h : c.breakpoints.contains m = true) :
    (c.addBreakpoint index).breakpoints.contains m = true := by
  have hinsert : ∀ marks : List Nat, m ∈ marks → m ∈ Context.insertMark index marks := by
    intro marks
    induction marks with
    | nil => exact fun h => absurd h List.not_mem_nil
    | cons k rest ih =>
      intro hm
      unfold Context.insertMark
      split
      · exact List.mem_cons_of_mem _ hm
      · split
        · exact hm
        · rcases List.mem_cons.mp hm with rfl | hm
          · exact List.mem_cons_self
          · exact List.mem_cons_of_mem _ (ih hm)
  exact List.contains_iff_mem.mpr (hinsert _ (List.contains_iff_mem.mp h))

/-- A call that takes no breakpoint away says nothing of lines, and leaves the playback where it
stands. -/
structure Tells (p q : Player) : Prop where
  bus : p.bus.Extends q.bus
  released : q.context.released = p.context.released
  cursor : q.context.cursor = p.context.cursor
  breakpoints : ∀ m, p.context.breakpoints.contains m = true →
    q.context.breakpoints.contains m = true

lemma Tells.of_context (hbus : p.bus.Extends q.bus) (hcontext : q.context = p.context) :
    Tells p q := by
  refine ⟨hbus, ?_, ?_, fun m hm => ?_⟩ <;> rw [hcontext]
  exact hm

lemma tells_moveFrom {run : Run} {a b : State} (hbus : p.bus = q.bus)
    (hcontext : p.context = q.context) : Tells p (q.moveFrom run a b).2 := by
  refine .of_context (hbus ▸ extends_moveFrom) ?_
  rw [hcontext]
  exact congrArg (fun g : Gist => g.core.context) (gist_moveFrom q run)

lemma tells_stop : Tells p p.stop := by
  refine .of_context extends_stop ?_
  obtain ⟨cell, bus, stopRequested, cancelled, hstop⟩ := p.exists_stop_eq
  rw [hstop]

lemma tells_perform {c : Call} (hremove : ∀ index, c ≠ .removeBreakpoint index)
    (hclear : c ≠ .clearBreakpoints) : Tells p (p.perform c) := by
  cases c with
  | pause =>
    simp only [perform, pause]
    split
    · exact .of_context (.refl _) rfl
    · have hmoved : Tells p (p.moveFrom p.run .playing .paused).2 := tells_moveFrom rfl rfl
      exact ⟨hmoved.bus, hmoved.released, hmoved.cursor, hmoved.breakpoints⟩
    · exact .of_context (.refl _) rfl
    · exact .of_context (.refl _) rfl
  | resume =>
    simp only [perform, resume]
    split
    · exact tells_moveFrom rfl rfl
    · exact .of_context (.refl _) rfl
    · exact .of_context (.refl _) rfl
    · exact .of_context (.refl _) rfl
  | stop => exact tells_stop
  | cancel => exact .of_context (.refl _) rfl
  | setSpeed speed =>
    simp only [perform, setSpeed]
    split <;> exact .of_context (.refl _) rfl
  | addBreakpoint index => exact ⟨.refl _, rfl, rfl, fun _ => contains_addBreakpoint⟩
  | removeBreakpoint index => exact absurd rfl (hremove index)
  | clearBreakpoints => exact absurd rfl hclear
  | assign name value => exact ⟨furthers_setVariable.bus, rfl, rfl, fun _ h => h⟩
  | unassignAll =>
    have hcontext : (p.perform .unassignAll).context = p.context.clearVariables :=
      congrArg (fun g : Gist => g.core.context) (gist_clearVariables p p.run)
    refine ⟨furthers_clearVariables.bus, ?_, ?_, fun m hm => ?_⟩
    · rw [hcontext]
      rfl
    · rw [hcontext]
      rfl
    · rw [hcontext]
      exact hm

lemma Tracked.tells (h : Tracked n p phase) (hpq : Tells p q) : Tracked n q phase :=
  ⟨Nat.le_trans h.size hpq.bus.size_le, hpq.bus.closed.trans h.isOpen,
    h.watched.of_extends h.size hpq.bus id id hpq.released hpq.cursor hpq.breakpoints⟩

end Player

namespace Session

variable {s s' s₀ : Session} {a : Action} {id n index : Nat}

/-- What may happen to a playback that is neither stepped through nor moved elsewhere: it goes on,
time passes, and calls are made that take no breakpoint away. -/
def Unaided : Action → Prop
  | .submit .. => False
  | .call (.removeBreakpoint _) | .call .clearBreakpoints => False
  | _ => True

lemma Unaided.beside (h : Unaided a) : Beside id a := by
  cases a with
  | submit => exact h.elim
  | call | go | wait => trivial

/-- A session of a playback alone, which is tracked since the first `n` events. -/
structure Marked (n id : Nat) (s : Session) : Prop where
  solo : s.Solo id
  alone : ∀ t ∈ s.tasks, t.id = id
  tracked : ∀ t ∈ s.tasks, Player.Tracked n s.player t.phase

/-- Whatever happens to a playback alone, what is said of breakpoints goes with the one that is
released. -/
lemma Marked.does (h : s.Marked n id) (ha : Unaided a) (hdoes : s.Does a s') : s'.Marked n id := by
  have hsolo := h.solo.does ha.beside hdoes
  cases a with
  | submit => exact ha.elim
  | call c =>
    cases hdoes with
    | call =>
      refine ⟨hsolo, h.alone, fun t ht => (h.tracked t ht).tells (Player.tells_perform ?_ ?_)⟩
      · rintro index rfl
        exact ha
      · rintro rfl
        exact ha
  | go k =>
    obtain ⟨t, x, -, hmoved⟩ := hdoes.moved
    have ht := hmoved.mem
    have hplayback := h.solo.playback t ht (h.alone t ht)
    refine ⟨hsolo, fun u hu => ?_, fun u hu => ?_⟩
    · rcases hmoved.cases h.solo.distinct hu with ⟨hold, -⟩ | ⟨hut, -⟩
      · exact h.alone u hold
      · exact hut.trans (h.alone t ht)
    · rcases hmoved.cases h.solo.distinct hu with ⟨hold, hne⟩ | ⟨-, hgoes⟩
      · exact absurd ((h.alone u hold).trans (h.alone t ht).symm) hne
      · have hstep := (h.tracked t ht).step t.id hplayback (hmoved.step ▸ hgoes)
        rw [hmoved.step] at hstep
        rw [hmoved.player]
        exact hstep
  | wait now =>
    cases hdoes with
    | wait =>
      refine ⟨hsolo, h.alone, fun t ht => ?_⟩
      exact (h.tracked t ht).tells (.of_context (.refl _) rfl)

lemma Marked.of_opening (h : s.Opening id) (hopen : s.player.bus.closed = false) :
    s.Marked s.player.bus.log.size id := by
  obtain ⟨request, htasks, hearly⟩ := h.tasks
  have hmem : ∀ t ∈ s.tasks, t = ⟨id, .entering request⟩ := fun t ht => by
    rw [htasks] at ht
    exact List.mem_singleton.mp ht
  have hfresh : (Phase.entering request).isFresh = true := by
    cases request <;> first | rfl | cases hearly
  have hnone : s.player.bus.sinceLine s.player.bus.log.size = [] := by
    unfold Bus.sinceLine
    rw [List.drop_of_length_le (by simp)]
    rfl
  refine ⟨.of_opening h, fun t ht => by rw [hmem t ht], fun t ht => ?_⟩
  rw [hmem t ht]
  refine ⟨Nat.le_refl _, hopen, .fresh hfresh ?_⟩
  rw [hnone]
  exact fun _ h => absurd h List.not_mem_nil

/-- Whenever a playback begins the line on which its cursor stands, then, since the last line, it
was paused by the breakpoint of that line exactly once if the line has one, and by none if it has
not.  This holds on every visit of the line, however the playback has come to it, as long as it is
not stepped through or moved elsewhere by request. -/
theorem breakpoint_pauses_before_its_line (hopening : s₀.Opening id)
    (hopen : s₀.player.bus.closed = false) (hs : s₀.Evolves Unaided s) {k : Nat}
    (hdoes : s.Does (.go k) s')
    (hbegun : s'.player.bus.begun = s.player.bus.begun ++ [index])
    (hstands : s.player.context.canContinue = true) :
    let since := s.player.bus.sinceLine s₀.player.bus.log.size
    index = s.player.context.cursor ∧
      if s.player.context.breakpoints.contains index = true then
        ∃ before after, since =
            before ++ .breakpointHit index :: .stateChanged .playing .paused :: after ∧
          ∀ e ∈ before ++ after, ∀ other, e ≠ .breakpointHit other
      else ∀ e ∈ since, ∀ other, e ≠ .breakpointHit other := by
  intro since
  have hmarked : s.Marked s₀.player.bus.log.size id := by
    clear hdoes hbegun hstands
    induction hs with
    | refl => exact .of_opening hopening hopen
    | tail _ hmay ih =>
      obtain ⟨a, ha, hdoes⟩ := hmay
      exact ih.does ha hdoes
  obtain ⟨t, x, -, hmoved⟩ := hdoes.moved
  have ht := hmoved.mem
  have hplayback := hmarked.solo.playback t ht (hmarked.alone t ht)
  rw [hmoved.player, ← hmoved.step] at hbegun
  obtain ⟨hindex, hsince⟩ :=
    (hmarked.tracked t ht).begun hplayback (hmoved.step ▸ hmoved.ready) hbegun
  have hsettled : s.player.context.settleCursor = s.player.context := by
    unfold Context.settleCursor
    cases s.player.context.frames.length with
    | zero => rfl
    | succ depth => simp only [Context.implicitReturn, hstands, if_true]
  rw [hsettled] at hindex
  have hplain : ∀ events : List Event.Payload, Unmarked events →
      ∀ e ∈ events, ∀ other, e ≠ .breakpointHit other := by
    rintro events hevents e he other rfl
    cases hevents _ he
  refine ⟨hindex, ?_⟩
  rw [hindex]
  split
  · next hset =>
    rw [if_pos hset] at hsince
    obtain ⟨before, after, heq, hbefore, hafter⟩ := hsince
    exact ⟨before, after, heq, hplain _ (hbefore.append hafter)⟩
  · next hunset =>
    rw [if_neg hunset] at hsince
    exact hplain _ hsince

/-! ### A line that is visited twice -/

/-- A text, and the way back to it. -/
def rondo : Script := ⟨"rondo", [.text "one", .command "@jump 0" (some (.jump (.line 0)))]⟩

/-- The rondo is to be played, with a breakpoint at its text. -/
def ballroom : Session :=
  submit { player := ((Player.create {} { capacity := 16 } none).addBreakpoint 0).2 } 0
    (.play rondo .beginning false)

/-- The playback has been paused before the text, and goes on after that up to its next turn. -/
def resumed (s : Session) : Session :=
  Session.turn { s with player := s.player.perform .resume } 0

/-- The playback is about to begin the text for the second time. -/
def reprise : Session :=
  resumed (((((resumed (((ballroom.turn 0).turn 0).turn 0)).turn 0).turn 0).turn 0).turn 0)

/-- The breakpoint has paused the playback before the first visit of the text, and once more since
then. -/
theorem rondo_paused_on_every_visit :
    reprise.player.bus.begun = [0, 1] ∧ (reprise.turn 0).player.bus.begun = [0, 1, 0] ∧
      ∃ before after, reprise.player.bus.sinceLine 0 =
          before ++ .breakpointHit 0 :: .stateChanged .playing .paused :: after ∧
        ∀ e ∈ before ++ after, ∀ other, e ≠ .breakpointHit other := by
  have hturn : ∀ {s : Session}, ballroom.Evolves Unaided s → ballroom.Evolves Unaided (s.turn 0) :=
    fun h => h.turn (fun _ => trivial) 0
  have hresumed : ∀ {s : Session}, ballroom.Evolves Unaided s →
      ballroom.Evolves Unaided (resumed s) := fun h =>
    hturn (h.tail (a := .call .resume) trivial .call)
  have hreprise : ballroom.Evolves Unaided reprise :=
    hresumed (hturn (hturn (hturn (hturn (hresumed (hturn (hturn (hturn .refl))))))))
  obtain ⟨t, ht, hready⟩ : ∃ t, reprise.tasks[0]? = some t ∧
      (reprise.player.step t.id t.phase).2 ≠ .blocked :=
    ⟨_, rfl, Progress.noConfusion⟩
  have hbegun : (reprise.turn 0).player.bus.begun = reprise.player.bus.begun ++ [0] := rfl
  have hopening : ballroom.Opening 0 := ⟨⟨_, rfl, rfl⟩, rfl, rfl, rfl⟩
  have hpaused :=
    breakpoint_pauses_before_its_line hopening rfl hreprise (does_turn ht hready) hbegun
    rfl
  exact ⟨rfl, rfl, hpaused.2⟩

end Session

end Recital

import Recital.Proofs.Twin.Transparency
import Recital.Proofs.Twin.Walk

/-!
# A playback that is stepped through beside one that runs

The two are twins (`Player.Abreast`).  Between two lines the first stays at the head of its loop and
waits for calls, whereas the second lets the delay after its line pass and is late from then on.  A
line is executed by a call on one side and by the playback on the other, in lockstep.  When it ends
the playback, the first one finds that in the end that was left for it, and the second one ends at
once.

Calls pass over breakpoints, so the second playback keeps up only as long as none stops it
(`Player.Unhindered`).
-/

namespace Recital

namespace Phase

/-- Between two lines. -/
def isIdle : Phase → Bool
  | .paused _ | .playLock _ | .delaying .. => true
  | _ => false

/-- A phase of a playback that may be paused: no attempt is in flight. -/
def isCalm : Phase → Bool
  | .playing _ (.presenting ..) | .playing _ (.switching ..) => true
  | phase => phase.isIdle

/-- A calm phase is the same for twins by the same clock. -/
lemma twin_self {stepped : Bool} {host : Host} {now : Nat} {a : Phase} (h : a.isCalm = true) :
    a.Twin stepped host now 0 a := by
  cases a with
  | paused | playLock => exact .head rfl rfl
  | delaying => exact .delaying
  | playing play line =>
    cases line with
    | presenting => exact .playing .presenting
    | switching => exact .playing .switching
    | flying | resting => cases h
  | _ => cases h

end Phase

namespace Player

variable {stepped free : Bool} {id other k : Nat} {token : Token} {p q : Player} {a b : Phase}
  {play play' : Play} {f : Finish} {line line' : LinePhase} {call : Option Phase} {w : Walk}
  {c d : Player × Progress}

/-! ### Playbacks between two lines -/

/-- A playback that goes on after a line is between two lines. -/
lemma exists_afterLine (h : Poised id token free false p.bearing) (hplay : play.token = token) :
    ∃ q b, p.afterLine id play .next = (q, .goes b) ∧ b.isIdle = true ∧ Alike p q ∧
      q.bearing = { p.bearing with lock := q.lineLock } ∧ Afoot id token free q b := by
  obtain ⟨r, hr⟩ : ∃ r, r = { p with lineLock := p.lineLock.release } := ⟨_, rfl⟩
  have hlock : r.lineLock = {} := by
    have hheld : p.lineLock = { holder := some id } := h.lock
    rw [hr, hheld]
    rfl
  have hbearing : r.bearing = { p.bearing with lock := r.lineLock } := by
    rw [hr]
    rfl
  have halike : Alike p r := by
    rw [hr]
    exact ⟨rfl, rfl, rfl⟩
  have hpoised : Poised id token free false { r.bearing with lock := { holder := some id } } := by
    rw [hbearing]
    exact ⟨h.deferred, h.going, h.unsaved, rfl, h.state, h.free⟩
  unfold afterLine
  rw [← hr]
  dsimp only
  split
  · obtain ⟨q, b, hq, hb⟩ := exists_continuePlay hplay hlock hpoised
    have hidle : b.isIdle = true := by
      have hhead := hb.head
      cases b with
      | paused | playLock => rfl
      | _ => cases hhead
    rw [autosave_eq (p := r) hpoised.unsaved]
    exact ⟨q, b, hq, hidle, halike.trans hb.alike, by rw [hb.bearing, hbearing], hb.afoot⟩
  · exact ⟨_, _, rfl, rfl, halike, hbearing, congrArg some hplay, hpoised, hlock⟩

/-- A playback goes on whose line was taken on. -/
lemma followPlay_ready {y : Player × LineProgress} (h : PoisedLine id token free y)
    (hplay : play.token = token) : (followPlay id play y).2 ≠ .blocked := by
  obtain ⟨q, progress⟩ := y
  cases progress with
  | blocked => exact h.elim
  | goes line => exact Progress.noConfusion
  | ends by_ =>
    cases by_ with
    | next =>
      obtain ⟨q', b, hq', -⟩ := exists_afterLine h hplay
      have hfollow : followPlay id play (q, .ends .next) = (q', .goes b) := hq'
      rw [hfollow]
      exact Progress.noConfusion
    | finished f => exact Progress.noConfusion

/-- A playback between two lines that is free to go on comes to the line lock, sooner or later. -/
lemma Twin.reaches_playLock (h : Twin stepped k p q) (hq : Afoot id token true q b)
    (hb : b.isIdle = true) :
    ∃ n l q' play, (Player.onward id)^[n] (q, .goes b) = (q', .goes (.playLock play)) ∧
      Twin stepped l p q' ∧ Afoot id token true q' (.playLock play) := by
  have hhead : ∀ {k : Nat} {q : Player} {b : Phase}, Twin stepped k p q →
      Afoot id token true q b → b.isHead = true →
      ∃ n l q' play, (Player.onward id)^[n] (q, .goes b) = (q', .goes (.playLock play)) ∧
        Twin stepped l p q' ∧ Afoot id token true q' (.playLock play) := by
    intro k q b h hq hb
    obtain ⟨n, q', play, hn, halike, hafoot, -⟩ := hq.exists_playLock hb
    exact ⟨n, k, q', play, hn, h.of_alike (.refl p) halike, hafoot⟩
  cases b with
  | paused | playLock => exact hhead h hq rfl
  | delaying play until_ =>
    obtain ⟨t, ht⟩ : ∃ t, t = until_ - q.now := ⟨_, rfl⟩
    induction t using Nat.strongRecOn generalizing k q with
    | ind t ih =>
      rcases hq.delaying_cases with ⟨hnow, hstep⟩ | ⟨-, q', b, hstep, hb⟩
      · have hlater : until_ - (q.now + 1) < t := by omega
        obtain ⟨n, l, r, play', hn, hr⟩ := ih _ hlater h.late (hq.at_ _) rfl
        refine ⟨n + 1, l, r, play', ?_, hr⟩
        rw [Function.iterate_succ_apply, hstep, hn]
      · obtain ⟨n, l, r, play', hn, hr⟩ :=
          hhead (h.of_alike (.refl p) hb.alike) hb.afoot hb.head
        refine ⟨n + 1, l, r, play', ?_, hr⟩
        rw [Function.iterate_succ_apply, hstep, hn]
  | _ => cases hb

/-! ### Breakpoints -/

/-- A line that is let through its breakpoint leaves that behind only. -/
lemma alike_takeBreakpoint : Alike p { p with context := p.context.takeBreakpoint.2 } := by
  unfold Context.takeBreakpoint
  split
  · exact .refl p
  · split <;> exact ⟨rfl, rfl, rfl⟩

/-- A playback that is free to go on and has the line lock is not paused. -/
lemma Afoot.isPlaying (h : Afoot id token true p (.playLock play)) : p.state = .playing :=
  (h.state rfl).resolve_right (h.poised.free rfl).1

/-- A breakpoint pauses it. -/
lemma Afoot.paused_of_some {index : Nat} (h : Afoot id token true p (.playLock play))
    (hsome : p.context.takeBreakpoint.1 = some index) :
    (Player.onward id (p, .goes (.playLock play))).1.state = .paused := by
  have hengages := h.engages
  obtain ⟨c, hc⟩ : ∃ c, c = p.step id (.playLock play) := ⟨_, rfl⟩
  rw [← hc] at hengages
  cases hengages with
  | yields hnot => exact absurd ⟨h.deferred, h.isPlaying⟩ hnot
  | @pauses q r _ context _ hstate _ hq hr =>
    have hqstate : q.state = .playing := by
      rw [hq]
      exact hstate
    have hrstate : { r with lineLock := r.lineLock.release }.state = .paused := by
      rw [hr, moveFrom_eq _ _ hqstate rfl]
      rfl
    have hpaused : p.step id (.playLock play) =
        ({ r with lineLock := r.lineLock.release }, .goes (.paused play)) :=
      hc.symm.trans (if_pos hrstate)
    rw [onward_of_ready (by rw [hpaused]; exact Progress.noConfusion), hpaused]
    exact hrstate
  | begins _ _ htaken =>
    rw [htaken] at hsome
    cases hsome

/-- No breakpoint stops the playback, wherever it comes. -/
def Unhindered (id : Nat) (token : Token) (d : Player × Progress) : Prop :=
  ∀ m q play, (Player.onward id)^[m] d = (q, .goes (.playLock play)) →
    Afoot id token true q (.playLock play) → q.context.takeBreakpoint.1 = none

lemma Unhindered.iterate (h : Unhindered id token d) (n : Nat) :
    Unhindered id token ((Player.onward id)^[n] d) := by
  intro m q play hm
  rw [← Function.iterate_add_apply] at hm
  exact h (m + n) q play hm

/-- A playback that is never paused is not stopped by breakpoints. -/
lemma unhindered_of_unpaused (h : ∀ m, ((Player.onward id)^[m] d).1.state ≠ .paused) :
    Unhindered id token d := by
  intro m q play hm hafoot
  cases htaken : q.context.takeBreakpoint.1 with
  | none => rfl
  | some index =>
    have hpaused := hafoot.paused_of_some htaken
    rw [← hm, ← Function.iterate_succ_apply' (Player.onward id) m d] at hpaused
    exact absurd hpaused (h (m + 1))

/-- A playback without breakpoints that is free to go on stays so. -/
lemma Shadow.onward_self (h : Shadow false true true id token 0 d d) :
    Shadow false true true id token 0 (Player.onward id d) (Player.onward id d) := by
  cases h with
  | ended h hr => exact .ended h hr
  | @afoot p _ a _ h hphase hp hq =>
    cases ha : a.isHead with
    | false => exact h.onward hphase hp hq ha
    | true =>
      rcases hp.head_cases ha with ⟨hpaused, -⟩ | ⟨q, b, hq, hb⟩ | ⟨hstate, play, rfl⟩
      · exact absurd hpaused (hp.poised.free rfl).1
      · rw [hq]
        exact .afoot (h.of_alike hb.alike hb.alike) (.head hb.head hb.head) hb.afoot hb.afoot
      · have hclear := (h.setting.even rfl).clear.breakpoints
        exact h.begins hp hp hstate hstate hclear hclear

/-- No breakpoint stops a playback that has none, in its checkpoint neither. -/
lemma unhindered_of_clear (h : Shadow false true true id token 0 d d) : Unhindered id token d := by
  have hrun : ∀ m, Shadow false true true id token 0 ((Player.onward id)^[m] d)
      ((Player.onward id)^[m] d) := by
    intro m
    induction m with
    | zero => exact h
    | succ m ih =>
      rw [Function.iterate_succ_apply']
      exact ih.onward_self
  intro m q play hm hafoot
  have hshadow := hrun m
  rw [hm] at hshadow
  cases hshadow with
  | afoot h =>
    have hclear : q.context.breakpoints = [] := (h.setting.even rfl).clear.breakpoints
    simp [Context.takeBreakpoint, hclear]

/-! ### Twins of which one is stepped through -/

/-- How the line lock and the call stand before a line is begun. -/
inductive Calls (other : Nat) : Lock → Option Phase → Prop
  | none : Calls other {} none
  | entering : Calls other {} (some (.entering .stepForward))
  | ready : Calls other { holder := some other } (some .stepLock)

lemma calls_none {l : Lock} (h : l = {}) : Calls other l none := by
  rw [h]
  exact .none

/-- The second playback goes on as the first one does that is stepped through. -/
inductive Abreast (id other : Nat) (token : Token) : Walk → Player × Progress → Prop
  /-- The first playback has not settled after it was paused. -/
  | settling {k : Nat} {p q : Player} {a b : Phase} (h : Twin true k p q)
    (hphase : a.Twin true p.host p.now k b) (hhalted : Halted token p.bearing)
    (hp : Afoot id token false p a) (hq : Afoot id token true q b) :
    Abreast id other token ⟨p, .goes a, none⟩ (q, .goes b)
  /-- A call has not begun its line. -/
  | calling {k : Nat} {p q : Player} {play : Play} {call : Option Phase} {b : Phase}
    (h : Twin true k p q) (hplay : play.token = token) (hhalted : Halted token p.bearing)
    (hcall : Calls other p.lineLock call) (hq : Afoot id token true q b)
    (hb : b.isIdle = true) :
    Abreast id other token ⟨p, .goes (.paused play), call⟩ (q, .goes b)
  /-- Both execute the same line. -/
  | lining {k : Nat} {p q : Player} {play play' : Play} {line line' : LinePhase}
    (h : Twin true k p q) (hplay : play.token = token) (hhalted : Halted token p.bearing)
    (hlock : p.lineLock = { holder := some other }) (hentered : line.entered = false)
    (hline : line.Twin true p.host p.now k line')
    (hq : Afoot id token true q (.playing play' line')) :
    Abreast id other token ⟨p, .goes (.paused play), some (.stepping line)⟩
      (q, .goes (.playing play' line'))
  /-- An end is left for the first playback, and the second one has ended. -/
  | leaving {k : Nat} {p q : Player} {play : Play} {f : Finish} (h : Twin true k p q)
    (hplay : play.token = token) (hleaving : Leaving token f p) :
    Abreast id other token ⟨p, .goes (.paused play), none⟩ (q.finish f)
  | ended {k : Nat} {p q : Player} {r r' : Report} (h : Twin true k p q)
    (hr : r.timeless = r'.timeless) :
    Abreast id other token ⟨p, .ends (.report r), none⟩ (q, .ends (.report r'))

/-- The mark of a playback that is stepped through belongs to the way. -/
lemma Twin.inStepMode (h : Twin true k p q) (stepMode : Bool) :
    Twin true k (p.inStepMode stepMode) q where
  essence := h.essence
  story := h.story
  setting :=
    { later := h.setting.later
      evenly := h.setting.evenly
      blind := fun hstepped => ⟨(h.setting.blind hstepped).script, (h.setting.blind hstepped).loads⟩
      even := fun hunstepped => Bool.noConfusion hunstepped }

/-- What becomes of a line that is executed by both. -/
lemma LineTwin.abreast {x y : Player × LineProgress} {c : Bearing} (h : LineTwin true k x y)
    (hc : Halted token c) (hlock : c.lock = { holder := some other }) (hx : Unmoved c x)
    (hy : PoisedLine id token true y) (hplay : play.token = token) (hplay' : play'.token = token) :
    Abreast id other token (Walk.after (.goes (.paused play)) x)
    (Player.followPlay id play' y) := by
  have hhalted : Halted token x.1.bearing := hc.of_unmoved hx
  have hheld : x.1.lineLock = { holder := some other } :=
    (congrArg Bearing.lock hx.bearing).trans hlock
  cases h with
  | goes h hline =>
    exact .lining h hplay hhalted hheld (hx.line _ rfl) hline (Poised.afoot hy hplay')
  | @ends p q by_ h =>
    have hmarked : Halted token (p.inStepMode false).bearing := hhalted
    cases by_ with
    | next =>
      obtain ⟨r, hr⟩ : ∃ r, r = { p.inStepMode false with lineLock := p.lineLock.release } :=
        ⟨_, rfl⟩
      have hlock : r.lineLock = {} := by
        have hheld : p.lineLock = { holder := some other } := hheld
        rw [hr, hheld]
        rfl
      have halike : Alike (p.inStepMode false) r := by
        rw [hr]
        exact ⟨rfl, rfl, rfl⟩
      have hrhalted : Halted token r.bearing := by
        rw [hr]
        exact ⟨hmarked.deferred, hmarked.going, hmarked.token, hmarked.listening, hmarked.state⟩
      have hcall : Calls other r.lineLock none := by
        rw [hlock]
        exact .none
      obtain ⟨q', b, hq', hb, hqalike, -, hafoot⟩ := exists_afterLine hy hplay'
      have hafter : Walk.after (.goes (.paused play)) (p, .ends .next) =
          ⟨r, .goes (.paused play), none⟩ := by
        rw [hr]
        rfl
      have hfollow : Player.followPlay id play' (q, .ends .next) = (q', .goes b) := hq'
      rw [hafter, hfollow]
      exact .calling ((h.inStepMode false).of_alike halike hqalike) hplay hrhalted hcall hafoot hb
    | finished f =>
      have hdefer : Alike (p.inStepMode false)
          { (p.inStepMode false).defer f with
            lineLock := ((p.inStepMode false).defer f).lineLock.release } := by
        have hleft : Alike (p.inStepMode false) { p.inStepMode false with deferred := some f } :=
          ⟨rfl, rfl, rfl⟩
        have hreleased : ∀ (r : Player) (lock : Lock), Alike r { r with lineLock := lock } :=
          fun _ _ => ⟨rfl, rfl, rfl⟩
        exact (hleft.trans alike_moveFrom).trans (hreleased _ _)
      have hreleased : Alike q { q with lineLock := q.lineLock.release } := ⟨rfl, rfl, rfl⟩
      exact .leaving ((h.inStepMode false).of_alike hdefer hreleased) hplay (hmarked.leaving f _)

/-- A call that has the line lock begins the line that the other playback begins. -/
lemma Twin.abreast_begin (h : Twin true k p q) (hplay : play.token = token)
    (hhalted : Halted token p.bearing) (hlock : p.lineLock = { holder := some other })
    (hq : Afoot id token true q (.playLock play')) (hnone : q.context.takeBreakpoint.1 = none) :
    Abreast id other token
      (Walk.stride id other ⟨p, .goes (.paused play), some .stepLock⟩)
      (Player.onward id (q, .goes (.playLock play'))) := by
  have hplay' : play'.token = token := Option.some.inj hq.owner
  have hmarked : Halted token (p.inStepMode true).bearing := hhalted
  obtain ⟨r, hr⟩ : ∃ r, r = { q with context := q.context.takeBreakpoint.2 } := ⟨_, rfl⟩
  have hpoised : Poised id token true false r.bearing := by
    rw [hr]
    exact hq.held rfl
  have hline := ((h.of_alike (.refl p) (hr ▸ alike_takeBreakpoint)).inStepMode true).beginLine token
  have hy := hpoised.beginLine (hr ▸ hq.isPlaying)
  have hstep := hq.step_playLock hq.isPlaying hnone
  rw [hplay', ← hr] at hstep
  have habreast : Abreast id other token
      (Walk.after (.goes (.paused play)) ((p.inStepMode true).beginLine token))
      (followPlay id play' (r.beginLine token)) := by
    rcases hmarked.beginLine with ⟨hx, -⟩ | ⟨index, hx⟩
    · exact hline.abreast hmarked hlock hx hy hplay hplay'
    · have hbegins : Halted token
          { (p.inStepMode true).bearing with begun := (p.inStepMode true).bus.begun ++ [index] } :=
        ⟨hmarked.deferred, hmarked.going, hmarked.token, hmarked.listening, hmarked.state⟩
      exact hline.abreast hbegins hlock hx hy hplay hplay'
  have hready : (q.step id (.playLock play')).2 ≠ .blocked := by
    rw [hstep]
    exact followPlay_ready hy hplay'
  rw [Walk.stride_stepLock hhalted hlock, onward_of_ready hready, hstep]
  exact habreast

/-! ### The playback that is stepped through settles -/

/-- A playback that settles stays halted. -/
lemma halted_onward (h : Halted token p.bearing) (hp : Afoot id token false p a)
    (hphase : a.Twin true p.host p.now k b) (ha : a.isHead = false) {r : Player} {phase : Phase}
    (hr : Player.onward id (p, .goes a) = (r, .goes phase)) : Halted token r.bearing := by
  have htick : Halted token (p.at_ (p.now + 1)).bearing :=
    ⟨h.deferred, h.going, h.token, h.listening, h.state⟩
  have hheads : ∀ {q r : Player}, Halted token q.bearing →
      r.bearing = { q.bearing with lock := r.lineLock } → Halted token r.bearing :=
    fun hq hr => hq.of_bearing hr
  cases hphase with
  | head ha' =>
    rw [ha'] at ha
    cases ha
  | delaying =>
    rcases hp.delaying_cases with ⟨-, hwaits⟩ | ⟨-, q, b, hq, hb⟩
    · cases hwaits.symm.trans hr
      exact htick
    · cases hq.symm.trans hr
      exact hheads h hb.bearing
  | @playing play play' line line' hline =>
    have hplay : play.token = token := Option.some.inj hp.owner
    have hpoised : Poised id token false line.entered p.bearing := hp.held rfl
    have hentered : line.entered = false := by
      rw [← Bool.not_eq_true]
      intro htrue
      have hstate := hpoised.state
      rw [htrue, h.state] at hstate
      cases hstate
    rcases follows_stepLine p line with hblocked | hfollows
    · have hwaits : (p.step id (.playing play line)).2 = .blocked := by
        have hfollow : p.step id (.playing play line) = followPlay id play (p.stepLine line) := rfl
        rw [hfollow, hblocked]
        rfl
      cases (onward_of_blocked hwaits).symm.trans hr
      exact htick
    · have hpoised' := hpoised.follows hfollows
      rw [hentered] at hfollows
      have hx := h.unmoved hfollows
      have hhalted := h.of_unmoved hx
      have hstep : (p.step id (.playing play line)).2 ≠ .blocked := followPlay_ready hpoised' hplay
      rw [onward_of_ready hstep] at hr
      have hr : followPlay id play (p.stepLine line) = (r, .goes phase) := hr
      generalize p.stepLine line = x at *
      obtain ⟨q, progress⟩ := x
      cases progress with
      | blocked => exact absurd rfl hx.ready
      | goes line =>
        cases hr
        exact hhalted
      | ends by_ =>
        cases by_ with
        | next =>
          obtain ⟨q', b, hq', -, -, hbearing, -⟩ := exists_afterLine hpoised' hplay
          have hr : q.afterLine id play .next = (r, .goes phase) := hr
          cases hq'.symm.trans hr
          exact hheads hhalted hbearing
        | finished f => cases congrArg Prod.snd hr

/-- The twin of a playback that settles. -/
lemma Shadow.abreast (h : Shadow true false true id token k c d)
    (hc : ∀ r phase, c = (r, .goes phase) → Halted token r.bearing) :
    Abreast id other token ⟨c.1, c.2, none⟩ d := by
  cases h with
  | afoot h hphase hp hq => exact .settling h hphase (hc _ _ rfl) hp hq
  | ended h hr => exact .ended h hr

/-- A playback that has not begun its line comes to have the line lock for it. -/
lemma Calls.reaches (hcall : Calls other p.lineLock call) (h : Halted token p.bearing) (id : Nat)
    (play : Play) : ∃ n q, (Walk.stride id other)^[n] ⟨p, .goes (.paused play), call⟩ =
        ⟨q, .goes (.paused play), some .stepLock⟩ ∧ Alike p q ∧ Halted token q.bearing ∧
      q.lineLock = { holder := some other } := by
  obtain ⟨q, hq⟩ : ∃ q, q = { p with lineLock := { holder := some other } } := ⟨_, rfl⟩
  have halike : Alike p q := by
    rw [hq]
    exact ⟨rfl, rfl, rfl⟩
  have hhalted : Halted token q.bearing := by
    rw [hq]
    exact ⟨h.deferred, h.going, h.token, h.listening, h.state⟩
  have hheld : q.lineLock = { holder := some other } := by rw [hq]
  obtain ⟨l, hl⟩ : ∃ l, l = p.lineLock := ⟨_, rfl⟩
  rw [← hl] at hcall
  cases hcall with
  | none =>
    refine ⟨2, q, ?_, halike, hhalted, hheld⟩
    rw [Function.iterate_succ_apply, Walk.stride_settled h.state, Function.iterate_one,
      Walk.stride_entering h.state hl.symm, hq]
  | entering =>
    refine ⟨1, q, ?_, halike, hhalted, hheld⟩
    rw [Function.iterate_one, Walk.stride_entering h.state hl.symm, hq]
  | ready => exact ⟨0, p, rfl, .refl p, h, hl.symm⟩

/-- A halted playback at the head of its loop settles. -/
lemma exists_settled (other : Nat) (h : Halted token p.bearing) (hp : Afoot id token false p a)
    (ha : a.isHead = true) :
    ∃ n q play, (Walk.stride id other)^[n] ⟨p, .goes a, none⟩ = ⟨q, .goes (.paused play), none⟩ ∧
      Alike p q ∧ Halted token q.bearing ∧ q.lineLock = {} ∧ play.token = token := by
  cases a with
  | paused play => exact ⟨0, p, play, rfl, .refl p, h, hp.lock, Option.some.inj hp.owner⟩
  | playLock play =>
    rcases hp.head_cases rfl with ⟨-, ⟨play', hphase⟩, -⟩ | ⟨q, b, hq, hb⟩ | ⟨hstate, -⟩
    · cases hphase
    · have hhalted : Halted token q.bearing := h.of_bearing hb.bearing
      obtain ⟨play', rfl⟩ := hb.paused hhalted.state
      refine ⟨1, q, play', ?_, hb.alike, hhalted, hb.afoot.lock, Option.some.inj hb.afoot.owner⟩
      rw [Function.iterate_one, Walk.stride_unsettled rfl, hq]
    · cases hstate.symm.trans h.state
  | _ => cases ha

/-! ### They go on together -/

/-- The head of the loop is between two lines. -/
lemma isIdle_of_isHead (h : b.isHead = true) : b.isIdle = true := by
  cases b with
  | paused | playLock => rfl
  | _ => cases h

/-- While the first playback settles, they go on in lockstep. -/
lemma Twin.abreast_settling (h : Twin true k p q) (hphase : a.Twin true p.host p.now k b)
    (hhalted : Halted token p.bearing) (hp : Afoot id token false p a)
    (hq : Afoot id token true q b) (ha : a.isHead = false) :
    Abreast id other token (Walk.stride id other ⟨p, .goes a, none⟩)
      (Player.onward id (q, .goes b)) := by
  have hunsettled : Walk.isSettled ⟨p, .goes a, none⟩ = false := by
    cases a with
    | paused => cases ha
    | _ => rfl
  rw [Walk.stride_unsettled hunsettled]
  exact (h.onward hphase hp hq ha).abreast fun r phase hr =>
    halted_onward hhalted hp hphase ha hr

/-- A call that is to begin a line, and the playback that is about to. -/
lemma Twin.exists_abreast_begin (h : Twin true k p q) (hplay : play.token = token)
    (hhalted : Halted token p.bearing) (hcall : Calls other p.lineLock call)
    (hq : Afoot id token true q (.playLock play')) (hnone : q.context.takeBreakpoint.1 = none) :
    ∃ n, Abreast id other token ((Walk.stride id other)^[n] ⟨p, .goes (.paused play), call⟩)
      (Player.onward id (q, .goes (.playLock play'))) := by
  obtain ⟨n, p', hn, halike, hhalted', hlock⟩ := hcall.reaches hhalted id play
  refine ⟨n + 1, ?_⟩
  rw [Function.iterate_succ_apply', hn]
  exact (h.of_alike halike (.refl q)).abreast_begin hplay hhalted' hlock hq hnone

/-- A line that is executed by both goes on in lockstep. -/
lemma Twin.abreast_lining (h : Twin true k p q) (hplay : play.token = token)
    (hhalted : Halted token p.bearing) (hlock : p.lineLock = { holder := some other })
    (hentered : line.entered = false) (hline : line.Twin true p.host p.now k line')
    (hq : Afoot id token true q (.playing play' line')) :
    Abreast id other token
      (Walk.stride id other ⟨p, .goes (.paused play), some (.stepping line)⟩)
      (Player.onward id (q, .goes (.playing play' line'))) := by
  have hplay' : play'.token = token := Option.some.inj hq.owner
  have hqstep : q.step id (.playing play' line') = followPlay id play' (q.stepLine line') := rfl
  rcases h.stepLine hline with ⟨hpb, hqb⟩ | htwin
  · have hblocked : (q.step id (.playing play' line')).2 = .blocked := by
      rw [hqstep, hqb]
      rfl
    rw [Walk.stride_stepping_of_blocked hhalted hplay hpb, onward_of_blocked hblocked]
    exact .lining h.tick hplay
      ⟨hhalted.deferred, hhalted.going, hhalted.token, hhalted.listening, hhalted.state⟩ hlock
      hentered hline.tick (hq.at_ _)
  · have hx : Unmoved p.bearing (p.stepLine line) := by
      rcases follows_stepLine p line with hblocked | hfollows
      · exact absurd (congrArg Prod.snd hblocked) htwin.ready.1
      · rw [hentered] at hfollows
        exact hhalted.unmoved hfollows
    have hy : PoisedLine id token true (q.stepLine line') := by
      rcases follows_stepLine q line' with hblocked | hfollows
      · exact absurd (congrArg Prod.snd hblocked) htwin.ready.2
      · exact (hq.held rfl : Poised id token true line'.entered q.bearing).follows hfollows
    have hready : (q.step id (.playing play' line')).2 ≠ .blocked := followPlay_ready hy hplay'
    rw [Walk.stride_stepping htwin.ready.1, onward_of_ready hready, hqstep]
    exact htwin.abreast hhalted hlock hx hy hplay hplay'

/-- The second playback catches up when a call is made or begins its line. -/
lemma Twin.abreast_calling (h : Twin true k p q) (hplay : play.token = token)
    (hhalted : Halted token p.bearing) (hcall : Calls other p.lineLock call)
    (hq : Afoot id token true q b) (hb : b.isIdle = true) (hd : Unhindered id token (q, .goes b)) :
    ∃ m, Abreast id other token (Walk.stride id other ⟨p, .goes (.paused play), call⟩)
      ((Player.onward id)^[m] (q, .goes b)) := by
  obtain ⟨l, hl⟩ : ∃ l, l = p.lineLock := ⟨_, rfl⟩
  rw [← hl] at hcall
  cases hcall with
  | none =>
    refine ⟨0, ?_⟩
    rw [Walk.stride_settled hhalted.state]
    exact .calling h hplay hhalted (hl ▸ .entering) hq hb
  | entering =>
    refine ⟨0, ?_⟩
    rw [Walk.stride_entering hhalted.state hl.symm]
    exact .calling (h.of_alike ⟨rfl, rfl, rfl⟩ (.refl q)) hplay
      ⟨hhalted.deferred, hhalted.going, hhalted.token, hhalted.listening, hhalted.state⟩
      .ready hq hb
  | ready =>
    obtain ⟨n, l, q', play', hn, htwin, hafoot⟩ := h.reaches_playLock hq hb
    refine ⟨n + 1, ?_⟩
    rw [Function.iterate_succ_apply', hn]
    exact htwin.abreast_begin hplay hhalted hl.symm hafoot (hd n q' play' hn hafoot)

/-- The first playback ends as the second one has ended. -/
lemma Twin.shadow_leaving (h : Twin true k p q) (id : Nat) (token : Token) (f : Finish) :
    Shadow true false true id token k ({ p with deferred := none }.finish f) (q.finish f) := by
  have htaken : Alike p { p with deferred := none } := ⟨rfl, rfl, rfl⟩
  exact (h.of_alike htaken (.refl q)).finish f

/-- The second playback catches up when the first one goes on. -/
lemma Abreast.stride (h : Abreast id other token w d) (hd : Unhindered id token d) :
    ∃ m, Abreast id other token (w.stride id other) ((Player.onward id)^[m] d) := by
  cases h with
  | @settling k p q a b h hphase hhalted hp hq =>
    cases ha : a.isHead with
    | true =>
      have hb : b.isHead = true := hphase.isHead_eq.symm.trans ha
      cases a with
      | paused play =>
        exact h.abreast_calling (Option.some.inj hp.owner) hhalted (calls_none hp.lock) hq
          (isIdle_of_isHead hb) hd
      | playLock play =>
        rcases hp.head_cases rfl with ⟨-, ⟨play', hphase⟩, -⟩ | ⟨p', a', hp', ha'⟩ | ⟨hstate, -⟩
        · cases hphase
        · refine ⟨0, ?_⟩
          rw [Walk.stride_unsettled rfl, hp']
          exact .settling (h.of_alike ha'.alike (.refl q)) (.head ha'.head hb)
            (hhalted.of_bearing ha'.bearing) ha'.afoot hq
        · cases hstate.symm.trans hhalted.state
      | _ => cases ha
    | false =>
      exact ⟨1, h.abreast_settling hphase hhalted hp hq ha⟩
  | calling h hplay hhalted hcall hq hb => exact h.abreast_calling hplay hhalted hcall hq hb hd
  | lining h hplay hhalted hlock hentered hline hq =>
    exact ⟨1, h.abreast_lining hplay hhalted hlock hentered hline hq⟩
  | leaving h hplay hleaving =>
    refine ⟨0, ?_⟩
    rw [Walk.stride_leaving hleaving hplay]
    exact (h.shadow_leaving id token _).abreast fun r phase hr =>
      Progress.noConfusion (congrArg Prod.snd hr)
  | ended h hr =>
    refine ⟨0, ?_⟩
    rw [Walk.stride_unsettled rfl]
    exact .ended h hr

/-- The first playback catches up when the second one goes on. -/
lemma Abreast.follows (h : Abreast id other token w d) (hd : Unhindered id token d) :
    ∃ n, Abreast id other token ((Walk.stride id other)^[n] w) (Player.onward id d) := by
  cases h with
  | @settling k p q a b h hphase hhalted hp hq =>
    cases ha : a.isHead with
    | true =>
      have hb : b.isHead = true := hphase.isHead_eq.symm.trans ha
      rcases hq.head_cases hb with ⟨hpaused, -⟩ | ⟨q', b', hq', hb'⟩ | ⟨-, play', rfl⟩
      · exact absurd hpaused (hq.poised.free rfl).1
      · rw [hq']
        exact ⟨0, .settling (h.of_alike (.refl p) hb'.alike) (.head ha hb'.head) hhalted
          hp hb'.afoot⟩
      · obtain ⟨l, p', play, hl, halike, hhalted', hlock, hplay⟩ :=
          exists_settled other hhalted hp ha
        obtain ⟨n, hn⟩ := (h.of_alike halike (.refl q)).exists_abreast_begin hplay hhalted'
          (calls_none hlock) hq (hd 0 q play' rfl hq)
        refine ⟨n + l, ?_⟩
        rw [Function.iterate_add_apply, hl]
        exact hn
    | false =>
      exact ⟨1, h.abreast_settling hphase hhalted hp hq ha⟩
  | @calling k p q play call b h hplay hhalted hcall hq hb =>
    have hheads : ∀ {q' : Player} {b' : Phase}, Player.onward id (q, .goes b) = (q', .goes b') →
        Heads id token true q q' b' → ∃ n, Abreast id other token
          ((Walk.stride id other)^[n] ⟨p, .goes (.paused play), call⟩)
          (Player.onward id (q, .goes b)) := by
      intro q' b' hq' hb'
      rw [hq']
      exact ⟨0, .calling (h.of_alike (.refl p) hb'.alike) hplay hhalted hcall hb'.afoot
        (isIdle_of_isHead hb'.head)⟩
    have hhead : b.isHead = true → ∃ n, Abreast id other token
        ((Walk.stride id other)^[n] ⟨p, .goes (.paused play), call⟩)
        (Player.onward id (q, .goes b)) := by
      intro hhead
      rcases hq.head_cases hhead with ⟨hpaused, -⟩ | ⟨q', b', hq', hb'⟩ | ⟨-, play', rfl⟩
      · exact absurd hpaused (hq.poised.free rfl).1
      · exact hheads hq' hb'
      · exact h.exists_abreast_begin hplay hhalted hcall hq (hd 0 q play' rfl hq)
    cases b with
    | paused | playLock => exact hhead rfl
    | delaying play' until_ =>
      rcases hq.delaying_cases with ⟨-, hwaits⟩ | ⟨-, q', b', hq', hb'⟩
      · rw [hwaits]
        exact ⟨0, .calling h.late hplay hhalted hcall (hq.at_ _) rfl⟩
      · exact hheads hq' hb'
    | _ => cases hb
  | lining h hplay hhalted hlock hentered hline hq =>
    exact ⟨1, h.abreast_lining hplay hhalted hlock hentered hline hq⟩
  | leaving h hplay hleaving => exact ⟨0, .leaving h hplay hleaving⟩
  | ended h hr => exact ⟨0, .ended h hr⟩

lemma Abreast.walk (h : Abreast id other token w d) (hd : Unhindered id token d) (n : Nat) :
    ∃ m, Abreast id other token ((Walk.stride id other)^[n] w) ((Player.onward id)^[m] d) := by
  induction n with
  | zero => exact ⟨0, h⟩
  | succ n ih =>
    obtain ⟨m, hm⟩ := ih
    obtain ⟨l, hl⟩ := hm.stride (hd.iterate m)
    refine ⟨l + m, ?_⟩
    rw [Function.iterate_succ_apply', Function.iterate_add_apply]
    exact hl

lemma Abreast.run (h : Abreast id other token w d) (hd : Unhindered id token d) (m : Nat) :
    ∃ n, Abreast id other token ((Walk.stride id other)^[n] w) ((Player.onward id)^[m] d) := by
  induction m with
  | zero => exact ⟨0, h⟩
  | succ m ih =>
    obtain ⟨n, hn⟩ := ih
    obtain ⟨l, hl⟩ := hn.follows (hd.iterate m)
    refine ⟨l + n, ?_⟩
    rw [Function.iterate_succ_apply', Function.iterate_add_apply]
    exact hl

/-! ### What they have in common -/

/-- They have told the same story, unless an end is left for the first playback. -/
lemma Abreast.concurs (h : Abreast id other token w d) (hdeferred : w.player.deferred = none) :
    Concurs (w.player, w.playback) d := by
  cases h with
  | settling h | calling h | lining h => exact h.concurs rfl
  | leaving h hplay hleaving =>
    rw [hleaving.deferred] at hdeferred
    cases hdeferred
  | ended h hr => exact h.concurs (congrArg (fun r => some (Answer.report r)) hr)

/-- The first playback comes to tell the same story. -/
lemma Abreast.exists_concurs (h : Abreast id other token w d) :
    ∃ n, Concurs (((Walk.stride id other)^[n] w).player, ((Walk.stride id other)^[n] w).playback)
      d := by
  cases h with
  | settling h | calling h | lining h => exact ⟨0, h.concurs rfl⟩
  | leaving h hplay hleaving =>
    refine ⟨1, ?_⟩
    rw [Function.iterate_one, Walk.stride_leaving hleaving hplay]
    exact (h.shadow_leaving id token _).concurs
  | ended h hr => exact ⟨0, h.concurs (congrArg (fun r => some (Answer.report r)) hr)⟩

/-- A call that is made when the first playback has settled comes back. -/
lemma Abreast.returns (h : Abreast id other token w d) (hrelents : w.player.host.Relents)
    (hsettled : w.isSettled = true) :
    (w.stride id other).Returns id other w.player.bus.begun := by
  cases h with
  | @settling k p q a b h hphase hhalted hp hq =>
    cases a with
    | paused play =>
      exact Walk.returns_settled hhalted hrelents (Option.some.inj hp.owner) hp.lock
    | _ => cases hsettled
  | @calling k p q play call b h hplay hhalted hcall hq hb =>
    cases call with
    | none =>
      obtain ⟨l, hl⟩ : ∃ l, l = p.lineLock := ⟨_, rfl⟩
      rw [← hl] at hcall
      cases hcall
      exact Walk.returns_settled hhalted hrelents hplay hl.symm
    | some phase => cases hsettled
  | leaving h hplay hleaving =>
    have hpaused := of_decide_eq_true hsettled
    rw [hleaving.state] at hpaused
    cases hpaused
  | lining | ended => cases hsettled

end Player

end Recital

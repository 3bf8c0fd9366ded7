import Recital.Proofs.Player.Between

/-!
# Steps of a playback and of the requests beside it

A playback executes lines, and so does a request for a single step; other requests move the cursor.
All of them take the line lock for it.  `Turn` says what a step of one of these requests may do to
what the others go by: it changes nothing but the lock, the playback ends, a breakpoint pauses it,
or the step is one of a line.  How a line is taken up is said by `Takes`, and what becomes of it by
`Hands`: a playback ends with its line or goes on between two lines, while a single step leaves the
end of the playback to it.
-/

namespace Recital

/-! ### Phases -/

namespace Phase

/-- The line that a request executes. -/
def line? : Phase → Option LinePhase
  | .playing _ line => some line
  | .stepping line => some line
  | _ => none

/-- A phase of a playback that has not come to its lines. -/
def isEarly : Phase → Bool
  | .entering (.play ..) | .entering (.playNamed _) | .loading _ | .playGate .. => true
  | .preloading .. => true
  | _ => false

/-- A phase of a playback. -/
def isPlayback : Phase → Bool
  | .playing .. => true
  | phase => phase.isEarly || phase.isBetween

/-- A phase of a request to execute a line or to move the cursor. -/
def isSide : Phase → Bool
  | .entering .stepForward | .stepLock | .stepping _ => true
  | .entering .stepBackward | .backLock => true
  | .entering (.skipToLine _) | .entering (.skipToLabel _) | .skipLock _ => true
  | _ => false

/-- A phase of a request to execute a line that has not begun it. -/
def isPending : Phase → Bool
  | .entering .stepForward | .stepLock => true
  | _ => false

/-- What a phase without a line may lead to without a line. -/
structure Leads (phase next : Phase) : Prop where
  unlined : next.line? = none
  late : next.isEarly = false
  side : next.isSide = phase.isSide
  playback : next.isPlayback = phase.isPlayback
  token : next.token? = phase.token?
  pending : next.isPending = true → phase.isPending = true

variable {phase next : Phase}

/-- Between two lines. -/
lemma leads_of_isBetween (hphase : phase.isSide = false) (hplayback : phase.isPlayback = true)
    (htoken : next.token? = phase.token?) (h : next.isBetween = true) : phase.Leads next := by
  cases next with
  | paused | playLock | delaying | autosaving =>
    exact ⟨rfl, rfl, hphase.symm, hplayback.symm, htoken, fun h => absurd h Bool.false_ne_true⟩
  | entering | loading | playGate | preloading | playing | resetGate | closeGate | stepLock
  | stepping | backLock | skipLock | storing | fetching | restoreLock => cases h

end Phase

/-! ### The line lock -/

/-- How a lock may change hands with a step of a request. -/
inductive Lock.Passes (id : Nat) (l : Lock) : Lock → Prop
  | same : Passes id l l
  | asked : Passes id l (l.request id)
  | released (h : l.isHeldBy id = true) : Passes id l l.release
  /-- The lock was released and asked for again. -/
  | again (h : l.isHeldBy id = true) : Passes id l (l.release.request id)

namespace Lock

variable {id u : Nat} {l m : Lock}

/-- A lock has one holder. -/
lemma isHeldBy_unique (hu : l.isHeldBy u = true) (hid : l.isHeldBy id = true) : u = id := by
  simp only [isHeldBy, beq_iff_eq] at hu hid
  exact Option.some.inj (hu.symm.trans hid)

/-- Who asks for a lock does not get it from its holder. -/
lemma isHeldBy_request (hu : l.isHeldBy u = true) : (l.request id).isHeldBy u = true := by
  simp only [isHeldBy, beq_iff_eq] at hu
  simp [request, isFree, isHeldBy, hu]

/-- A lock stays with its holder while others make steps. -/
lemma Passes.isHeldBy (h : Passes id l m) (hu : l.isHeldBy u = true) (hne : u ≠ id) :
    m.isHeldBy u = true := by
  cases h with
  | same => exact hu
  | asked => exact isHeldBy_request hu
  | released hid | again hid => exact absurd (isHeldBy_unique hu hid) hne

end Lock

namespace Player

variable {p q : Player} {id : Nat} {play : Play} {phase : Phase} {b : Bearing} {entered : Bool}
  {x : Player × Progress} {y : Player × LineProgress} {token : Token}

/-! ### What a step may do -/

/-- The request has the line lock and may begin a line. -/
structure Begins (id : Nat) (p : Player) (phase : Phase) : Prop where
  held : p.lineLock.isHeldBy id = true
  unlined : phase.line? = none
  driver : phase.isPending = true ∨ phase.isPlayback = true
  state : p.state = .playing ∨ p.state = .paused ∧ phase.isPending = true
  /-- A single step is made while there is a playback. -/
  token : phase.isPending = true → p.token ≠ none
  /-- A playback goes by what a single step has left for it. -/
  deferred : phase.isPending = false → p.deferred = none

/-- A request takes a line on from a phase, or begins one.  At the end of the script nothing is
begun. -/
inductive Takes (id : Nat) (p : Player) (phase : Phase) : Bearing → Bool → Prop
  | runs {line : LinePhase} (hline : phase.line? = some line) :
    Takes id p phase p.bearing line.entered
  | begins {index : Nat} {entered : Bool} (hbegins : Begins id p phase)
    (hentered : entered = true → p.state = .playing) :
    Takes id p phase (p.bearing.begins index entered) entered
  | completes (hbegins : Begins id p phase) : Takes id p phase p.bearing false

/-- The bearing at the end of a line: a pause has taken effect, unless the line was cancelled or
there was none. -/
def Closed (b : Bearing) (entered : Bool) (q : Player) : Prop :=
  q.bearing = (b.left entered).settled ∨ q.bearing = b.left entered

/-- What becomes of a line that a request executes. -/
inductive Hands (id : Nat) (phase : Phase) (b : Bearing) (entered : Bool) :
    Player × Progress → Prop
  /-- The line goes on. -/
  | goes {q : Player} {next : Phase} {line : LinePhase} (hline : next.line? = some line)
    (hside : next.isSide = phase.isSide) (hplayback : next.isPlayback = phase.isPlayback)
    (htoken : next.token? = phase.token?) (hpending : next.isPending = false)
    (hbearing : q.bearing = b ∧ line.entered = entered ∨
      q.bearing = b.left entered ∧ line.entered = false) : Hands id phase b entered (q, .goes next)
  /-- A single step is done. -/
  | stepped {q : Player} {answer : Answer} (hside : phase.isSide = true)
    (hbearing : q.bearing = (b.left entered).settled) :
    Hands id phase b entered ({ q with lineLock := q.lineLock.release }, .ends answer)
  /-- A single step leaves the end of the playback to it. -/
  | defers {q : Player} {f : Finish} {answer : Answer} (hside : phase.isSide = true)
    (hclosed : Closed b entered q) :
    Hands id phase b entered
      ({ q.defer f with lineLock := (q.defer f).lineLock.release }, .ends answer)
  /-- A playback goes on after its line. -/
  | played {q : Player} {x : Player × Progress} {token : Token}
    (hplayback : phase.isPlayback = true) (htoken : phase.token? = some token)
    (hbearing : q.bearing = (b.left entered).settled)
    (hbetween : Between id token { q with lineLock := q.lineLock.release } x) :
    Hands id phase b entered x
  /-- A playback ends with its line. -/
  | finishes {q : Player} {f : Finish} {x : Player × Progress} (hplayback : phase.isPlayback = true)
    (hclosed : Closed b entered q)
    (hended : Ended { q with lineLock := q.lineLock.release } f x) : Hands id phase b entered x

/-- What a step of a playback that has come to its lines may do, or one of a request beside it. -/
inductive Turn (id : Nat) (p : Player) (phase : Phase) : Player × Progress → Prop
  /-- The request goes on without a line. -/
  | goes {q : Player} {next : Phase} (hline : phase.line? = none) (hleads : phase.Leads next)
    (hbearing : q.bearing = { p.bearing with lock := q.lineLock })
    (hlock : p.lineLock.Passes id q.lineLock)
    (haccount : q.account = p.account) : Turn id p phase (q, .goes next)
  /-- A request beside the playback ends without a line. -/
  | leaves {q : Player} {answer : Answer} (hline : phase.line? = none)
    (hside : phase.isSide = true) (hbearing : q.bearing = { p.bearing with lock := q.lineLock })
    (hlock : p.lineLock.Passes id q.lineLock)
    (haccount : q.account = p.account) : Turn id p phase (q, .ends answer)
  /-- The playback ends between two lines. -/
  | concludes {lock : Lock} {f : Finish} {x : Player × Progress} (hline : phase.line? = none)
    (hplayback : phase.isPlayback = true) (hlock : p.lineLock.Passes id lock)
    (hended : Ended { p with lineLock := lock } f x)
    (hf : p.deferred = some f ∨ p.deferred = none ∨
      f = .cancelled ∧ ∃ token, phase.token? = some token ∧ p.isCancelled token = true) :
    Turn id p phase x
  /-- A breakpoint pauses the playback. -/
  | hit {q : Player} {next : Phase} (hbegins : Begins id p phase)
      (hpending : phase.isPending = false)
    (hleads : phase.Leads next)
    (hbearing : q.bearing =
      { p.bearing with state := .paused, lock := p.lineLock.release }) :
    Turn id p phase (q, .goes next)
  /-- The step is one of a line. -/
  | line {b : Bearing} {entered : Bool} {x : Player × Progress}
      (htakes : Takes id p phase b entered)
    (hhands : Hands id phase b entered x) : Turn id p phase x

/-- A playback that has come to its lines does not go back. -/
lemma Turn.late {next : Phase} (h : Turn id p phase x) (hnext : x.2 = .goes next) :
    next.isEarly = false := by
  have hended : ∀ (q : Player) (f : Finish), Ended q f x → next.isEarly = false := by
    intro q f hx
    obtain ⟨r, hr, -⟩ := hx.report
    rw [hr] at hnext
    cases hnext
  cases h with
  | goes hline hleads | hit hbegins hpending hleads =>
    cases hnext
    exact hleads.late
  | leaves => cases hnext
  | concludes hline hplayback hlock hx => exact hended _ _ hx
  | line htakes hhands =>
    cases hhands with
    | goes hline =>
      cases hnext
      cases next with
      | playing | stepping => rfl
      | _ => cases hline
    | stepped | defers => cases hnext
    | played hplayback htoken hbearing hbetween =>
      cases hbetween with
      | goes hphase =>
        cases hnext
        cases next with
        | paused | playLock | delaying | autosaving => rfl
        | _ => cases hphase
      | ends hx => exact hended _ _ hx
    | finishes hplayback hclosed hx => exact hended _ _ hx

/-- A playback that goes on goes by the same token. -/
lemma Turn.keepsToken {next : Phase} (h : Turn id p phase x) (hnext : x.2 = .goes next) :
    next.token? = phase.token? := by
  have hended : ∀ (q : Player) (f : Finish), Ended q f x → next.token? = phase.token? := by
    intro q f hx
    obtain ⟨r, hr, -⟩ := hx.report
    rw [hr] at hnext
    cases hnext
  cases h with
  | goes hline hleads | hit hbegins hpending hleads =>
    cases hnext
    exact hleads.token
  | leaves => cases hnext
  | concludes hline hplayback hlock hx => exact hended _ _ hx
  | line htakes hhands =>
    cases hhands with
    | goes hline hside hplayback htoken =>
      cases hnext
      exact htoken
    | stepped | defers => cases hnext
    | played hplayback htoken hbearing hbetween =>
      cases hbetween with
      | goes hphase hsame =>
        cases hnext
        exact hsame.trans htoken.symm
      | ends hx => exact hended _ _ hx
    | finishes hplayback hclosed hx => exact hended _ _ hx

/-! ### Lines -/

/-- An end is left for the playback, which is woken. -/
lemma bearing_defer (q : Player) (f : Finish) :
    (q.defer f).bearing =
      { q.bearing with
        state := if q.state = .paused then .playing else q.state
        rest := { q.backdrop with deferred := some f } } := by
  unfold defer
  rw [bearing_moveFrom]
  by_cases hpaused : q.state = .paused
  · have hq : { q with deferred := some f }.state = .paused := hpaused
    rw [if_pos ⟨hq, rfl⟩, if_pos hpaused]
    rfl
  · have hq : ¬ { q with deferred := some f }.state = .paused := hpaused
    rw [if_neg fun h => hq h.1, if_neg hpaused]
    rfl

/-- What a single step makes of its line. -/
lemma hands_followStep (hphase : phase.isSide = true) (hplayback : phase.isPlayback = false)
    (htoken : phase.token? = none) (hy : Follows entered b y) :
    Hands id phase b entered (followStep y) := by
  obtain ⟨q, progress⟩ := y
  cases progress with
  | blocked => exact hy.elim
  | goes line => exact .goes rfl hphase.symm hplayback.symm htoken.symm rfl hy
  | ends by_ =>
    have hclosed : Closed b entered q := hy.imp_right And.left
    cases by_ with
    | next =>
      have hbearing : q.bearing = (b.left entered).settled :=
        hy.resolve_right fun h => LineEnd.noConfusion h.2
      exact .stepped hphase hbearing
    | finished f => exact .defers hphase hclosed

/-- What a playback makes of its line. -/
lemma hands_followPlay (hphase : phase.isPlayback = true) (hside : phase.isSide = false)
    (htoken : phase.token? = some play.token) (hy : Follows entered b y) :
    Hands id phase b entered (followPlay id play y) := by
  obtain ⟨q, progress⟩ := y
  cases progress with
  | blocked => exact hy.elim
  | goes line => exact .goes rfl hside.symm hphase.symm htoken.symm rfl hy
  | ends by_ =>
    cases by_ with
    | next =>
      have hbearing : q.bearing = (b.left entered).settled :=
        hy.resolve_right fun h => LineEnd.noConfusion h.2
      exact .played hphase htoken hbearing between_afterLine
    | finished f => exact .finishes hphase (hy.imp_right And.left) (ended_finish _ f)

/-- A request takes its line on, if it can. -/
lemma turn_stepLine {line : LinePhase} {follow : Player × LineProgress → Player × Progress}
    (hline : phase.line? = some line) (hblocked : ∀ q, follow (q, .blocked) = (q, .blocked))
    (hfollow : ∀ y, Follows line.entered p.bearing y →
      Hands id phase p.bearing line.entered (follow y)) :
    (follow (p.stepLine line)).2 = .blocked ∨ Turn id p phase (follow (p.stepLine line)) := by
  rcases follows_stepLine p line with hb | hf
  · exact .inl (by rw [hb, hblocked])
  · exact .inr (.line (.runs hline) (hfollow _ hf))

/-- A request begins a line where the playback stands, or finds the end of the script. -/
lemma turn_beginLine {follow : Player × LineProgress → Player × Progress} {context : Context}
    (hbegins : Begins id p phase)
    (hfollow : ∀ b entered y, Follows entered b y → Hands id phase b entered (follow y))
    (hcompleted : ∀ q : Player, q.bearing = p.bearing →
      Hands id phase p.bearing false (follow (q, .ends (.finished .completed)))) :
    Turn id p phase (follow ({ p with context }.beginLine token)) := by
  rcases follows_beginLine { p with context } token with ⟨hbearing, hend⟩ | ⟨i, entered, hs, hf⟩
  · obtain ⟨q, hq⟩ : ∃ q, q = ({ p with context }.beginLine token).1 := ⟨_, rfl⟩
    have heq : { p with context }.beginLine token = (q, .ends (.finished .completed)) := by
      rw [hq, ← hend]
    rw [heq]
    exact .line (.completes hbegins) (hcompleted q (hq ▸ hbearing))
  · exact .line (.begins hbegins hs) (hfollow _ _ _ hf)

/-! ### Requests beside the playback -/

/-- A request lets go of the line lock. -/
lemma turn_unlock {answer : Answer} (hline : phase.line? = none) (hside : phase.isSide = true)
    (hheld : p.lineLock.isHeldBy id = true) (hbearing : q.bearing = p.bearing)
    (haccount : q.account = p.account) : Turn id p phase (q.unlock answer) := by
  have hlock : q.lineLock = p.lineLock := congrArg Bearing.lock hbearing
  refine .leaves hline hside ?_ ?_ haccount
  · rw [← hbearing]
    rfl
  · rw [← hlock] at hheld ⊢
    exact .released hheld

/-- A request asks for the line lock. -/
lemma turn_requestLine {next : Phase} (hline : phase.line? = none) (hleads : phase.Leads next) :
    Turn id p phase (p.requestLine id next) :=
  .goes hline hleads rfl .asked rfl

/-- A request beside the playback changes nothing and ends. -/
lemma turn_refused {answer : Answer} (hline : phase.line? = none) (hside : phase.isSide = true) :
    Turn id p phase (p, .ends answer) :=
  .leaves hline hside rfl .same rfl

/-- A single step that has the line lock. -/
lemma turn_beginStep (hheld : p.lineLock.isHeldBy id = true) : Turn id p .stepLock p.beginStep := by
  unfold beginStep
  split
  · exact turn_unlock rfl rfl hheld rfl rfl
  · exact turn_unlock rfl rfl hheld rfl rfl
  · next token hrefusal htoken =>
    have hstate : p.state = .playing ∨ p.state = .paused := by
      unfold stepRefusal? at hrefusal
      split at hrefusal
      · next h => exact .inl h
      · next h => exact .inr h
      · cases hrefusal
    have hbegins : Begins id p .stepLock :=
      { held := hheld
        unlined := rfl
        driver := .inl rfl
        state := hstate.imp_right fun h => ⟨h, rfl⟩
        token := fun _ => by rw [htoken]; exact Option.some_ne_none _
        deferred := fun h => Bool.noConfusion h }
    refine turn_beginLine hbegins (fun b entered y hy => hands_followStep rfl rfl rfl hy)
      fun q hq => .defers rfl (.inr ?_)
    rw [Bearing.left_false]
    exact hq

/-- What a request beside the playback may do. -/
lemma turn_side (hphase : phase.isSide = true) :
    (p.step id phase).2 = .blocked ∨ Turn id p phase (p.step id phase) := by
  cases phase with
  | entering r =>
    refine .inr ?_
    cases r with
    | stepForward =>
      simp only [step, accept]
      split
      · exact turn_refused rfl rfl
      · exact turn_requestLine rfl ⟨rfl, rfl, rfl, rfl, rfl, fun _ => rfl⟩
    | stepBackward =>
      simp only [step, accept]
      split
      · exact turn_refused rfl rfl
      · exact turn_requestLine rfl ⟨rfl, rfl, rfl, rfl, rfl, fun h => h⟩
    | skipToLine index => exact turn_requestLine rfl ⟨rfl, rfl, rfl, rfl, rfl, fun h => h⟩
    | skipToLabel label =>
      simp only [step, accept, requestLabel]
      split
      · exact turn_refused rfl rfl
      · split
        · exact turn_refused rfl rfl
        · exact turn_requestLine rfl ⟨rfl, rfl, rfl, rfl, rfl, fun h => h⟩
    | play | playNamed | reset | shutDown | save | loadSnapshot | loadState => cases hphase
  | stepLock =>
    simp only [step]
    split
    · next hheld => exact .inr (turn_beginStep hheld)
    · exact .inl rfl
  | stepping line =>
    exact turn_stepLine rfl (fun _ => rfl) fun _ hy => hands_followStep rfl rfl rfl hy
  | backLock =>
    simp only [step]
    split
    · next hheld =>
      refine .inr (turn_unlock rfl rfl hheld ?_ rfl)
      rw [bearing_publishProgress]
      rfl
    · exact .inl rfl
  | skipLock index =>
    simp only [step]
    split
    · next hheld =>
      refine .inr ?_
      unfold skip
      split
      · exact turn_unlock rfl rfl hheld rfl rfl
      · split
        · exact turn_unlock rfl rfl hheld rfl rfl
        · refine turn_unlock rfl rfl hheld ?_ rfl
          rw [bearing_publishProgress]
          rfl
    · exact .inl rfl
  | loading | playGate | preloading | paused | playLock | playing | delaying | autosaving
  | resetGate | closeGate | storing | fetching | restoreLock => cases hphase

/-! ### The playback -/

/-- A playback between two lines, with the lock as it is or released. -/
lemma turn_of_between {lock : Lock} (hphase : phase.isBetween = true)
    (htoken : phase.token? = some token)
    (hlock : lock = p.lineLock ∨ p.lineLock.isHeldBy id = true ∧ lock = p.lineLock.release)
    (h : Between id token { p with lineLock := lock } x) : Turn id p phase x := by
  have hline : phase.line? = none ∧ phase.isSide = false ∧ phase.isPlayback = true := by
    cases phase <;> simp_all [Phase.isBetween, Phase.line?, Phase.isSide, Phase.isPlayback]
  cases h with
  | @goes q next hnext hsame hbearing hlocks hcontext =>
    have haccount : q.account = p.account := by
      unfold account
      rw [hcontext]
    have hleads := Phase.leads_of_isBetween hline.2.1 hline.2.2 (hsame.trans htoken.symm) hnext
    refine .goes hline.1 hleads hbearing ?_ haccount
    rcases hlock with rfl | ⟨hheld, rfl⟩
    · rcases hlocks with hq | hq
      · exact hq ▸ .same
      · exact hq ▸ .asked
    · rcases hlocks with hq | hq
      · exact hq ▸ .released hheld
      · exact hq ▸ .again hheld
  | ends hended hf =>
    refine .concludes hline.1 hline.2.2 ?_ hended
      (hf.imp_right (Or.imp_right fun h => ⟨h.1, token, htoken, h.2⟩))
    rcases hlock with rfl | ⟨hheld, rfl⟩
    · exact .same
    · exact .released hheld

/-- A playback that has the line lock. -/
lemma turn_playLine (hheld : p.lineLock.isHeldBy id = true) :
    Turn id p (.playLock play) (p.playLine id play) := by
  have hbegins : p.deferred = none → p.state = .playing → Begins id p (.playLock play) :=
    fun hdeferred hstate =>
      { held := hheld
        unlined := rfl
        driver := .inr rfl
        state := .inl hstate
        token := fun h => Bool.noConfusion h
        deferred := fun _ => hdeferred }
  have hengages := p.engages_playLine id play
  generalize p.playLine id play = x at hengages ⊢
  cases hengages with
  | yields => exact turn_of_between rfl rfl (.inr ⟨hheld, rfl⟩) between_continuePlay
  | pauses hdeferred hstate _ hq hr =>
    obtain ⟨e, he, hbearing⟩ := paused_of_hit id play hstate hq hr
    rw [he]
    exact .hit (hbegins hdeferred hstate) rfl ⟨rfl, rfl, rfl, rfl, rfl, fun h => h⟩ hbearing
  | begins hdeferred hstate =>
    refine turn_beginLine (hbegins hdeferred hstate)
      (fun b entered y hy => hands_followPlay rfl rfl rfl hy) fun q hq => ?_
    have hclosed : Closed p.bearing false q := .inr (by rw [Bearing.left_false]; exact hq)
    exact .finishes rfl hclosed (ended_finish _ .completed)

/-- What a playback that has come to its lines may do. -/
lemma turn_playback (hphase : phase.isPlayback = true) (hlate : phase.isEarly = false) :
    (p.step id phase).2 = .blocked ∨ Turn id p phase (p.step id phase) := by
  cases phase with
  | paused play =>
    have hcases : p.step id (.paused play) = (p, .blocked) ∨
        Between id play.token p (p.step id (.paused play)) := between_step_paused
    exact hcases.imp (congrArg Prod.snd) fun h => turn_of_between rfl rfl (.inl rfl) h
  | playLock play =>
    simp only [step]
    split
    · next hheld => exact .inr (turn_playLine hheld)
    · exact .inl rfl
  | playing play line =>
    exact turn_stepLine rfl (fun _ => rfl) fun _ hy => hands_followPlay rfl rfl rfl hy
  | delaying play until_ =>
    have hcases : p.step id (.delaying play until_) = (p, .blocked) ∨
        Between id play.token p (p.step id (.delaying play until_)) := between_step_delaying
    exact hcases.imp (congrArg Prod.snd) fun h => turn_of_between rfl rfl (.inl rfl) h
  | autosaving play s => exact .inr (turn_of_between rfl rfl (.inl rfl) between_step_autosaving)
  | entering r => cases r <;> simp_all [Phase.isPlayback, Phase.isEarly, Phase.isBetween]
  | loading | playGate | preloading => cases hlate
  | resetGate | closeGate | stepLock | stepping | backLock | skipLock | storing | fetching
  | restoreLock => cases hphase

end Player

end Recital

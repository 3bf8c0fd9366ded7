import Recital.Proofs.Session.Ownership

/-!
# Who uses the locks

A request uses the gate or the line lock while it waits for it or holds it, and its phase tells
which of them it uses and which it is certain to hold.  With a step a request may ask for a lock
that it does not use, and let go of one that it holds (`Lock.Handles`).  So the members of a lock
are requests in progress that use it, each of them once, whatever is requested and in whatever order
the requests go on (`Session.Attended`).  When nothing is in progress, both locks are free.

Playbacks are told apart by their numbers.  A number is below the next identifier as soon as it is
given, and so are those of the playbacks that were cancelled (`Player.Numbered`).
-/

namespace Recital

namespace Lock

variable {id n : Nat} {l m : Lock} {used used' held' : Bool}

/-- The tasks that hold the lock or wait for it. -/
def members (l : Lock) : List Nat := l.holder.toList ++ l.queue

lemma members_request : (l.request id).members.Perm (id :: l.members) := by
  obtain ⟨holder, queue⟩ := l
  cases holder with
  | none => exact .refl _
  | some holder =>
    have hasked : (Lock.request ⟨some holder, queue⟩ id).members = holder :: queue ++ [id] := rfl
    rw [hasked]
    exact List.perm_append_singleton id (holder :: queue)

lemma members_release (h : l.isHeldBy id = true) : l.members = id :: l.release.members := by
  obtain ⟨holder, queue⟩ := l
  simp only [isHeldBy, beq_iff_eq] at h
  rw [h]
  cases queue <;> rfl

/-- A lock without members is free. -/
lemma eq_of_members (h : l.members = []) : l = {} := by
  obtain ⟨holder, queue⟩ := l
  obtain ⟨hholder, hqueue⟩ := List.append_eq_nil_iff.mp h
  have hqueue' : queue = [] := hqueue
  have hholder' : holder = none := Option.toList_eq_nil_iff.mp hholder
  rw [hqueue', hholder']

/-- What a task may do to a lock with a step, if it used the lock or not before: what becomes of the
lock, whether the task uses it from then on, and whether it is certain to hold it. -/
inductive Handles (id : Nat) (l : Lock) (used : Bool) : Lock → Bool → Bool → Prop
  | keeps {held' : Bool} (h : held' = true → l.isHeldBy id = true) : Handles id l used l used held'
  | asks (h : used = false) : Handles id l used (l.request id) true false
  | leaves (h : l.isHeldBy id = true) : Handles id l used l.release false false
  /-- The lock is asked for again as soon as it was let go of. -/
  | again (h : l.isHeldBy id = true) : Handles id l used (l.release.request id) true false

namespace Handles

/-- A task does nothing about a lock that it does not hold. -/
lemma idle (hused : used' = used) : Handles id l used l used' false :=
  hused ▸ .keeps fun h => absurd h Bool.false_ne_true

/-- A task keeps a lock that it holds. -/
lemma hold (hheld : l.isHeldBy id = true) (hused : used' = used) :
    Handles id l used l used' held' :=
  hused ▸ .keeps fun _ => hheld

lemma passes (h : Handles id l used m used' held') : l.Passes id m := by
  cases h with
  | keeps => exact .same
  | asks => exact .asked
  | leaves h => exact .released h
  | again h => exact .again h

/-- No other task becomes a member. -/
lemma mem_of_ne (h : Handles id l used m used' held') (hn : n ∈ m.members) (hne : n ≠ id) :
    n ∈ l.members := by
  cases h with
  | keeps => exact hn
  | asks => exact List.mem_of_ne_of_mem hne (members_request.mem_iff.mp hn)
  | leaves h =>
    rw [members_release h]
    exact List.mem_cons_of_mem id hn
  | again h =>
    rw [members_release h]
    exact members_request.mem_iff.mp hn

lemma nodup (h : Handles id l used m used' held') (hid : id ∈ l.members → used = true)
    (hl : l.members.Nodup) : m.members.Nodup := by
  cases h with
  | keeps => exact hl
  | asks hunused =>
    refine members_request.nodup_iff.mpr (List.nodup_cons.mpr ⟨fun hmem => ?_, hl⟩)
    rw [hid hmem] at hunused
    cases hunused
  | leaves h =>
    rw [members_release h] at hl
    exact hl.of_cons
  | again h =>
    rw [members_release h] at hl
    exact members_request.nodup_iff.mpr hl

/-- A task that is a member afterwards uses the lock. -/
lemma used_of_mem (h : Handles id l used m used' held') (hid : id ∈ l.members → used = true)
    (hl : l.members.Nodup) (hm : id ∈ m.members) : used' = true := by
  cases h with
  | keeps => exact hid hm
  | asks | again => rfl
  | leaves h =>
    rw [members_release h] at hl
    exact absurd hm (List.nodup_cons.mp hl).1

lemma isHeldBy (h : Handles id l used m used' held') (hheld : held' = true) :
    m.isHeldBy id = true := by
  cases h with
  | keeps h => exact h hheld
  | asks | leaves | again => cases hheld

end Handles

/-- A task may ask for a lock that it does not use; says whether it uses the lock then. -/
inductive Asks (id : Nat) (l : Lock) : Lock → Bool → Prop
  | not : Asks id l l false
  | asked : Asks id l (l.request id) true

lemma Asks.handles (h : Asks id l m used') : Handles id l false m used' false := by
  cases h with
  | not => exact .idle rfl
  | asked => exact .asks rfl

/-- Who lets go of a lock may ask for it again. -/
lemma Asks.of_release (h : Asks id l.release m used') (hheld : l.isHeldBy id = true) :
    Handles id l used m used' false := by
  cases h with
  | not => exact .leaves hheld
  | asked => exact .again hheld

end Lock

namespace Phase

/-- The request waits for the gate or holds it. -/
def usesGate : Phase → Bool
  | .playGate .. | .resetGate | .closeGate => true
  | phase => phase.token?.isSome

/-- The request holds the gate. -/
def holdsGate (phase : Phase) : Bool := phase.token?.isSome

/-- The request waits for the line lock or holds it. -/
def usesLine : Phase → Bool
  | .playLock _ | .stepLock | .backLock | .skipLock _ | .restoreLock _ => true
  | phase => phase.line?.isSome

/-- The request holds the line lock. -/
def holdsLine (phase : Phase) : Bool := phase.line?.isSome

end Phase

/-- The request goes on in a phase of a kind. -/
def Progress.leads (kind : Phase → Bool) : Progress → Bool
  | .goes next => kind next
  | _ => false

namespace Player

variable {p q : Player} {id : Nat} {phase next : Phase} {play : Play} {run : Run} {f : Finish}
  {answer : Answer} {x : Player × Progress} {y : Player × LineProgress}

/-! ### The roster -/

/-- Who uses the locks, and which playback is in progress. -/
structure Roster where
  gate : Lock
  line : Lock
  token : Option Token
  cancelled : List Nat
  /-- The next identifier. -/
  serial : Nat

/-- The roster of a player. -/
def roster (p : Player) : Roster := ⟨p.gate, p.lineLock, p.token, p.cancelled, p.serial⟩

lemma roster_of_core (h : q.core = p.core) : q.roster = p.roster :=
  (congrArg roster h : q.core.roster = p.core.roster)

@[simp] lemma roster_publish {e : Event.Payload} : (p.publish run e).roster = p.roster :=
  roster_of_core (core_publish _ _ _)

@[simp] lemma roster_moveFrom {a b : State} : (p.moveFrom run a b).2.roster = p.roster :=
  roster_of_core (congrArg Gist.core (gist_moveFrom p run))

@[simp] lemma roster_moveIfAllowed {b : State} : (p.moveIfAllowed run b).roster = p.roster :=
  roster_of_core (congrArg Gist.core (gist_moveIfAllowed p run))

@[simp] lemma roster_measureMemory : p.measureMemory.roster = p.roster :=
  roster_of_core (congrArg Gist.core (gist_measureMemory p))

@[simp] lemma roster_write {key : String} {s : Snapshot} : (p.write key s).2.roster = p.roster :=
  roster_of_core (congrArg Gist.core (gist_write p))

@[simp] lemma roster_setCheckpoint : p.setCheckpoint.roster = p.roster := by
  unfold setCheckpoint
  split <;> rfl

@[simp] lemma roster_resetState : (p.resetState run).roster = p.roster :=
  roster_of_core (congrArg Gist.core (gist_resetState p run))

lemma roster_finish :
    (p.finish f).1.roster = { p.roster with token := none, gate := p.gate.release } :=
  (congrArg roster (core_finish (p := p) (f := f)) : (p.finish f).1.core.roster = _)

/-- Getting ready for a playback gives it the next number. -/
lemma roster_prepare (p : Player) (script : Script) (bound : Bool) :
    (p.prepare script bound).2.roster =
      { p.roster with token := some ⟨p.serial, bound⟩, serial := p.serial + 1 } := by
  obtain ⟨now, hgist⟩ := gist_prepare (p := p) script bound
  have hcore := congrArg Gist.core hgist
  exact (congrArg roster hcore : (p.prepare script bound).2.core.roster = _)

/-- A stop may cancel the playback in progress. -/
lemma roster_stop : p.stop.roster = p.roster ∨
    ∃ T, p.token = some T ∧ p.stop.roster = { p.roster with cancelled := T.id :: p.cancelled } := by
  unfold stop
  split
  · obtain ⟨q, hq⟩ : ∃ q, q = { p with stopRequested := true }.moveIfAllowed p.run .stopped :=
      ⟨_, rfl⟩
    have hroster : q.roster = p.roster := by
      rw [hq, roster_moveIfAllowed]
      rfl
    have htoken : q.token = p.token := congrArg Roster.token hroster
    have hcancelled : q.cancelled = p.cancelled := congrArg Roster.cancelled hroster
    rw [← hq]
    unfold cancelRun
    split
    · next T hT =>
      refine .inr ⟨T, htoken.symm.trans hT, ?_⟩
      rw [← hcancelled]
      exact congrArg (fun r : Roster => { r with cancelled := T.id :: q.cancelled }) hroster
    · exact .inl hroster
  · exact .inl rfl

/-- A line leaves all of it alone but the identifiers. -/
lemma roster_of_bearing (hlock : q.lineLock = p.lineLock) (hback : q.backdrop = p.backdrop) :
    q.roster = { p.roster with serial := q.serial } := by
  have hgate : q.gate = p.gate := (congrArg Player.gate hback).trans rfl
  have htoken : q.token = p.token := (congrArg Player.token hback).trans rfl
  have hcancelled : q.cancelled = p.cancelled := (congrArg Player.cancelled hback).trans rfl
  simp only [roster, hgate, htoken, hcancelled, hlock]

/-! ### Numbers of playbacks -/

/-- No playback that has started has a number that is still to be given. -/
structure Numbered (p : Player) : Prop where
  token : ∀ T, p.token = some T → T.id < p.serial
  cancelled : ∀ n ∈ p.cancelled, n < p.serial

lemma Numbered.of_roster (h : p.Numbered) (hroster : q.roster = p.roster) : q.Numbered := by
  have htoken : q.token = p.token := congrArg Roster.token hroster
  have hcancelled : q.cancelled = p.cancelled := congrArg Roster.cancelled hroster
  have hserial : q.serial = p.serial := congrArg Roster.serial hroster
  constructor
  · rw [htoken, hserial]
    exact h.token
  · rw [hcancelled, hserial]
    exact h.cancelled

/-- Identifiers may be given, and the playback may end. -/
lemma Numbered.keeps (h : p.Numbered) (htoken : q.token = p.token ∨ q.token = none)
    (hcancelled : q.cancelled = p.cancelled) (hserial : p.serial ≤ q.serial) : q.Numbered := by
  constructor
  · intro T hT
    rcases htoken with hsame | hnone
    · exact Nat.lt_of_lt_of_le (h.token T (hsame.symm.trans hT)) hserial
    · rw [hnone] at hT
      cases hT
  · intro n hn
    rw [hcancelled] at hn
    exact Nat.lt_of_lt_of_le (h.cancelled n hn) hserial

lemma Numbered.stop (h : p.Numbered) : p.stop.Numbered := by
  rcases roster_stop (p := p) with hsame | ⟨T, hT, hroster⟩
  · exact h.of_roster hsame
  · have htoken : p.stop.token = p.token := congrArg Roster.token hroster
    have hcancelled : p.stop.cancelled = T.id :: p.cancelled := congrArg Roster.cancelled hroster
    have hserial : p.stop.serial = p.serial := congrArg Roster.serial hroster
    constructor
    · rw [htoken, hserial]
      exact h.token
    · rw [hcancelled, hserial]
      exact List.forall_mem_cons.mpr ⟨h.token T hT, h.cancelled⟩

/-! ### Steps -/

/-- What a step of a request does to the locks and to the numbers of playbacks. -/
structure Attends (id : Nat) (p : Player) (phase : Phase) (x : Player × Progress) : Prop where
  gate : p.gate.Handles id phase.usesGate x.1.gate (x.2.leads Phase.usesGate)
    (x.2.leads Phase.holdsGate)
  line : p.lineLock.Handles id phase.usesLine x.1.lineLock (x.2.leads Phase.usesLine)
    (x.2.leads Phase.holdsLine)
  numbered : p.Numbered → x.1.Numbered

/-- A request that uses no lock goes on without one, or ends. -/
lemma attends_unlocked (hgate : phase.usesGate = false) (hline : phase.usesLine = false)
    (hroster : x.1.roster = { p.roster with serial := x.1.serial })
    (hserial : p.serial ≤ x.1.serial)
    (hnext : ∀ next, x.2 = .goes next → next.usesGate = false ∧ next.usesLine = false ∧
      next.token? = none ∧ next.line? = none) : Attends id p phase x := by
  obtain ⟨q, progress⟩ := x
  have hsame : q.gate = p.gate := congrArg Roster.gate hroster
  have hlock : q.lineLock = p.lineLock := congrArg Roster.line hroster
  have hleads : ∀ kind : Phase → Bool, (∀ next, progress = .goes next → kind next = false) →
      progress.leads kind = false := by
    intro kind hkind
    cases progress with
    | goes next => exact hkind next rfl
    | blocked | ends => rfl
  refine ⟨?_, ?_, fun h => h.keeps (.inl (congrArg Roster.token hroster))
    (congrArg Roster.cancelled hroster) hserial⟩
  · rw [hleads _ fun n hn => (hnext n hn).1,
      hleads Phase.holdsGate fun n hn => congrArg Option.isSome (hnext n hn).2.2.1, hsame]
    exact .idle hgate.symm
  · rw [hleads _ fun n hn => (hnext n hn).2.1,
      hleads Phase.holdsLine fun n hn => congrArg Option.isSome (hnext n hn).2.2.2, hlock]
    exact .idle hline.symm

/-- A request that is refused changes nothing. -/
lemma attends_refused (hgate : phase.usesGate = false) (hline : phase.usesLine = false) :
    Attends id p phase (p, .ends answer) :=
  attends_unlocked hgate hline rfl (Nat.le_refl _) fun _ h => Progress.noConfusion h

/-- A request stops the playback in progress and asks for the gate. -/
lemma attends_request (hgate : phase.usesGate = false) (hline : phase.usesLine = false)
    (hroster : q.roster = p.roster) (hnext : next.usesGate = true ∧ next.usesLine = false ∧
      next.token? = none ∧ next.line? = none) :
    Attends id p phase ({ q.stop with gate := q.stop.gate.request id }, .goes next) := by
  have hstop : q.stop.gate = p.gate ∧ q.stop.lineLock = p.lineLock := by
    rcases roster_stop (p := q) with hsame | ⟨T, -, hcancelled⟩
    · exact ⟨(congrArg Roster.gate hsame).trans (congrArg Roster.gate hroster),
        (congrArg Roster.line hsame).trans (congrArg Roster.line hroster)⟩
    · exact ⟨(congrArg Roster.gate hcancelled).trans (congrArg Roster.gate hroster),
        (congrArg Roster.line hcancelled).trans (congrArg Roster.line hroster)⟩
  obtain ⟨huses, hunused, htoken, hnone⟩ := hnext
  refine ⟨?_, ?_, fun h => ?_⟩
  · simp only [Progress.leads, Phase.holdsGate, huses, htoken, Option.isSome_none, hstop.1]
    exact .asks hgate
  · simp only [Progress.leads, Phase.holdsLine, hunused, hnone, Option.isSome_none, hstop.2]
    exact .idle hline.symm
  · have hstopped := (h.of_roster hroster).stop
    exact ⟨hstopped.token, hstopped.cancelled⟩

/-- A request that uses no lock asks for the line lock. -/
lemma attends_requestLine (hgate : phase.usesGate = false) (hline : phase.usesLine = false)
    (hnext : next.usesGate = false ∧ next.usesLine = true ∧ next.token? = none ∧
      next.line? = none) : Attends id p phase (p.requestLine id next) := by
  obtain ⟨hunused, huses, htoken, hnone⟩ := hnext
  refine ⟨?_, ?_, fun h => ⟨h.token, h.cancelled⟩⟩
  · simp only [requestLine, Progress.leads, Phase.holdsGate, hunused, htoken, Option.isSome_none]
    exact .idle hgate.symm
  · simp only [requestLine, Progress.leads, Phase.holdsLine, huses, hnone, Option.isSome_none]
    exact .asks hline

/-- A request that has the line lock ends. -/
lemma attends_unlock (hgate : phase.usesGate = false) (hheld : p.lineLock.isHeldBy id = true)
    (hroster : q.roster = { p.roster with serial := q.serial }) (hserial : p.serial ≤ q.serial) :
    Attends id p phase (q.unlock answer) := by
  have hsame : q.gate = p.gate := congrArg Roster.gate hroster
  have hlock : q.lineLock = p.lineLock := congrArg Roster.line hroster
  refine ⟨?_, ?_, fun h => h.keeps (.inl (congrArg Roster.token hroster))
    (congrArg Roster.cancelled hroster) hserial⟩
  · simp only [unlock, Progress.leads, hsame]
    exact .idle hgate.symm
  · simp only [unlock, Progress.leads, hlock]
    exact .leaves hheld

/-- A request that has the gate ends. -/
lemma attends_leave (hline : phase.usesLine = false) (hheld : p.gate.isHeldBy id = true)
    (hroster : q.roster = { p.roster with gate := p.gate.release }) :
    Attends id p phase (q, .ends answer) := by
  have hgate : q.gate = p.gate.release := congrArg Roster.gate hroster
  have hlock : q.lineLock = p.lineLock := congrArg Roster.line hroster
  refine ⟨?_, ?_, fun h => h.keeps (.inl (congrArg Roster.token hroster))
    (congrArg Roster.cancelled hroster) (Nat.le_of_eq (congrArg Roster.serial hroster).symm)⟩
  · simp only [Progress.leads, hgate]
    exact .leaves hheld
  · simp only [Progress.leads, hlock]
    exact .idle hline.symm

/-! ### Steps of a playback -/

/-- What a playback without a line does that has the gate: it may ask for the line lock, or it
ends. -/
inductive Loops (id : Nat) (p : Player) : Player × Progress → Prop
  | goes {q : Player} {next : Phase} (htoken : next.token?.isSome = true)
    (hline : next.line? = none) (hroster : q.roster = { p.roster with line := q.lineLock })
    (hlock : p.lineLock.Asks id q.lineLock next.usesLine) : Loops id p (q, .goes next)
  | ends {q : Player} {answer : Answer}
    (hroster : q.roster = { p.roster with token := none, gate := p.gate.release }) :
    Loops id p (q, .ends answer)

lemma Loops.of_roster (h : Loops id q x) (hroster : q.roster = p.roster) : Loops id p x := by
  have hgate : q.gate = p.gate := congrArg Roster.gate hroster
  have hlock : q.lineLock = p.lineLock := congrArg Roster.line hroster
  cases h with
  | goes htoken hline hsame hasks =>
    rw [hroster] at hsame
    rw [hlock] at hasks
    exact .goes htoken hline hsame hasks
  | ends hended =>
    rw [hroster, hgate] at hended
    exact .ends hended

lemma loops_finish : Loops id p (p.finish f) := by
  obtain ⟨r, hends, -⟩ := finish_spec p f
  have hroster := roster_finish (p := p) (f := f)
  obtain ⟨x, hx⟩ : ∃ x, x = p.finish f := ⟨_, rfl⟩
  rw [← hx] at hends hroster ⊢
  obtain ⟨q, progress⟩ := x
  cases hends
  exact .ends hroster

lemma loops_playOn : Loops id p (p.playOn id play) := by
  unfold playOn
  split
  · exact loops_finish.of_roster rfl
  · split
    · exact loops_finish
    · split
      · exact .goes rfl rfl rfl .asked
      · exact .goes rfl rfl rfl .asked
      · exact .goes rfl rfl rfl .not
      · exact loops_finish
      · exact loops_finish

lemma loops_continuePlay : Loops id p (p.continuePlay id play) := by
  unfold continuePlay
  split
  · exact .goes rfl rfl rfl .not
  · exact loops_playOn

lemma loops_autosave : Loops id p (p.autosave id play) := by
  unfold autosave
  split
  · exact .goes rfl rfl rfl .not
  · exact loops_continuePlay

lemma loops_startLines {token : Token} {script : String} :
    Loops id p (p.startLines id token run script) := by
  unfold startLines
  split
  · exact loops_finish
  · obtain ⟨q, hq⟩ : ∃ q, q =
        ((p.publish run (.scriptStarted script)).setCheckpoint.moveFrom run .loading .playing).2 :=
      ⟨_, rfl⟩
    have hroster : q.roster = p.roster := by
      rw [hq, roster_moveFrom, roster_setCheckpoint, roster_publish]
    dsimp only
    rw [← hq]
    split
    · exact loops_continuePlay.of_roster hroster
    · exact loops_finish.of_roster hroster

/-- After a line a playback lets go of the line lock. -/
lemma loops_afterLine {by_ : LineEnd} :
    Loops id { p with lineLock := p.lineLock.release } (p.afterLine id play by_) := by
  unfold afterLine
  cases by_ with
  | finished f => exact loops_finish
  | next =>
    dsimp only
    split
    · exact loops_autosave
    · exact .goes rfl rfl rfl .not

/-- A playback that has the gate and does not use the line lock. -/
lemma Loops.attends (h : Loops id p x) (hgate : phase.usesGate = true)
    (hline : phase.usesLine = false) (hheld : p.gate.isHeldBy id = true) :
    Attends id p phase x := by
  cases h with
  | @goes q next htoken hnone hroster hasks =>
    have hsame : q.gate = p.gate := congrArg Roster.gate hroster
    have huses : next.usesGate = true := by
      unfold Phase.usesGate
      split
      · rfl
      · rfl
      · rfl
      · exact htoken
    refine ⟨?_, ?_, fun h => h.keeps (.inl (congrArg Roster.token hroster))
      (congrArg Roster.cancelled hroster) (Nat.le_of_eq (congrArg Roster.serial hroster).symm)⟩
    · simp only [Progress.leads, hsame]
      exact .hold hheld (huses.trans hgate.symm)
    · simp only [Progress.leads, Phase.holdsLine, hnone, Option.isSome_none, hline]
      exact hasks.handles
  | @ends q answer hroster =>
    have hsame : q.gate = p.gate.release := congrArg Roster.gate hroster
    have hlock : q.lineLock = p.lineLock := congrArg Roster.line hroster
    refine ⟨?_, ?_, fun h => h.keeps (.inr (congrArg Roster.token hroster))
      (congrArg Roster.cancelled hroster) (Nat.le_of_eq (congrArg Roster.serial hroster).symm)⟩
    · simp only [Progress.leads, hsame]
      exact .leaves hheld
    · simp only [Progress.leads, hlock]
      exact .idle hline.symm

/-- A playback that has let go of the line lock. -/
lemma Loops.attends_of_release (h : Loops id { q with lineLock := q.lineLock.release } x)
    (hroster : q.roster = { p.roster with serial := q.serial }) (hserial : p.serial ≤ q.serial)
    (hgate : phase.usesGate = true) (hheld : p.gate.isHeldBy id = true)
    (hline : p.lineLock.isHeldBy id = true) : Attends id p phase x := by
  have hsame : q.gate = p.gate := congrArg Roster.gate hroster
  have hlock : q.lineLock = p.lineLock := congrArg Roster.line hroster
  obtain ⟨r, hr⟩ : ∃ r, r = { q with lineLock := q.lineLock.release } := ⟨_, rfl⟩
  have hrgate : r.gate = p.gate := by rw [hr, ← hsame]
  have hrlock : r.lineLock = p.lineLock.release := by rw [hr, ← hlock]
  have hnumbered : p.Numbered → r.Numbered := fun h => by
    rw [hr]
    exact h.keeps (.inl (congrArg Roster.token hroster)) (congrArg Roster.cancelled hroster) hserial
  rw [← hr] at h
  -- A phase that does not use the line lock stands for the playback that has let go of it.
  have hrheld : r.gate.isHeldBy id = true := by
    rw [hrgate]
    exact hheld
  have hattends : Attends id r (.paused ⟨⟨0, false⟩, 0⟩) x := h.attends rfl rfl hrheld
  obtain ⟨hgates, -, hcounts⟩ := hattends
  refine ⟨?_, ?_, fun hp => hcounts (hnumbered hp)⟩
  · rw [hgate, ← hrgate]
    exact hgates
  · cases h with
    | goes htoken hnone hkept hasks =>
      simp only [Progress.leads, Phase.holdsLine, hnone, Option.isSome_none]
      rw [hrlock] at hasks
      exact hasks.of_release hline
    | @ends e answer hended =>
      have helock : e.lineLock = p.lineLock.release := (congrArg Roster.line hended).trans hrlock
      simp only [Progress.leads, helock]
      exact .leaves hline

/-! ### Steps of a line -/

/-- A line that is taken on or begun leaves the locks and the playbacks alone. -/
structure Spares (p : Player) (y : Player × LineProgress) : Prop where
  roster : y.1.roster = { p.roster with serial := y.1.serial }
  serial : p.serial ≤ y.1.serial

lemma spares_stepLine {line : LinePhase} : Spares p (p.stepLine line) := by
  refine ⟨?_, (serves_stepLine p line).furthers.serial⟩
  rcases follows_stepLine p line with hblocked | hfollows
  · rw [hblocked]
    rfl
  · exact roster_of_bearing hfollows.keeps.1 hfollows.keeps.2

lemma spares_beginLine {context : Context} {token : Token} :
    Spares p ({ p with context }.beginLine token) := by
  obtain ⟨q, hq⟩ : ∃ q, q = { p with context } := ⟨_, rfl⟩
  have hroster : (q.beginLine token).1.roster =
      { q.roster with serial := (q.beginLine token).1.serial } := by
    rcases follows_beginLine q token with ⟨hbearing, -⟩ | ⟨index, entered, -, hfollows⟩
    · exact roster_of_bearing (congrArg Bearing.lock hbearing) (congrArg Bearing.rest hbearing)
    · exact roster_of_bearing hfollows.keeps.1 hfollows.keeps.2
  have hserial := (executes_beginLine q token).serial
  rw [hq] at hroster hserial
  exact ⟨hroster, hserial⟩

/-- A request that is in its line keeps the line lock, and a playback the gate. -/
lemma Spares.attends (h : Spares p y) (next : Phase) (hgate : next.usesGate = phase.usesGate)
    (hheld : phase.usesGate = true → p.gate.isHeldBy id = true) (huses : phase.usesLine = true)
    (hline : p.lineLock.isHeldBy id = true) (hnext : next.usesLine = true)
    (hholds : next.holdsGate = true → phase.usesGate = true) :
    Attends id p phase (y.1, .goes next) := by
  have hsame : y.1.gate = p.gate := congrArg Roster.gate h.roster
  have hlock : y.1.lineLock = p.lineLock := congrArg Roster.line h.roster
  refine ⟨?_, ?_, fun hp => hp.keeps (.inl (congrArg Roster.token h.roster))
    (congrArg Roster.cancelled h.roster) h.serial⟩
  · simp only [Progress.leads, hsame, hgate]
    exact .keeps fun hkeeps => hheld (hholds hkeeps)
  · simp only [Progress.leads, hlock]
    exact .hold hline (hnext.trans huses.symm)

/-- A playback follows its line. -/
lemma Spares.followPlay (h : Spares p y) (hgate : phase.usesGate = true)
    (huses : phase.usesLine = true) (hheld : p.gate.isHeldBy id = true)
    (hline : p.lineLock.isHeldBy id = true) :
    (Player.followPlay id play y).2 = .blocked ∨
      Attends id p phase (Player.followPlay id play y) := by
  obtain ⟨q, progress⟩ := y
  cases progress with
  | blocked => exact .inl rfl
  | goes line =>
    exact .inr (h.attends (.playing play line) hgate.symm (fun _ => hheld) huses hline rfl
      fun _ => hgate)
  | ends by_ =>
    exact .inr (loops_afterLine.attends_of_release h.roster h.serial hgate hheld hline)

/-- A single step follows its line. -/
lemma Spares.followStep (h : Spares p y) (hgate : phase.usesGate = false)
    (huses : phase.usesLine = true) (hline : p.lineLock.isHeldBy id = true) :
    (Player.followStep y).2 = .blocked ∨ Attends id p phase (Player.followStep y) := by
  obtain ⟨q, progress⟩ := y
  cases progress with
  | blocked => exact .inl rfl
  | goes line =>
    have hnot : phase.usesGate = true → p.gate.isHeldBy id = true := fun h =>
      absurd (hgate.symm.trans h) Bool.false_ne_true
    exact .inr (h.attends (.stepping line) hgate.symm hnot huses hline rfl
      fun h => absurd h Bool.false_ne_true)
  | ends by_ =>
    obtain ⟨r, hr⟩ : ∃ r, r = { q with context := { q.context with stepMode := false } } := ⟨_, rfl⟩
    have hroster : r.roster = { p.roster with serial := r.serial } := by
      rw [hr]
      exact h.roster
    have hserial : p.serial ≤ r.serial := by
      rw [hr]
      exact h.serial
    simp only [Player.followStep]
    rw [← hr]
    cases by_ with
    | next => exact .inr (attends_unlock hgate hline hroster hserial)
    | finished f =>
      have hdeferred : (r.defer f).roster = r.roster := roster_moveFrom
      have hsame : (r.defer f).serial = r.serial := congrArg Roster.serial hdeferred
      refine .inr (attends_unlock hgate hline (hdeferred.trans ?_) ?_)
      · rw [hsame]
        exact hroster
      · rw [hsame]
        exact hserial

/-! ### Phases -/

lemma attends_requestPlay {script : Script} {start : Start} {bound : Bool}
    (hgate : phase.usesGate = false) (hline : phase.usesLine = false) :
    Attends id p phase (p.requestPlay id script start bound) := by
  unfold requestPlay
  split
  · exact attends_refused hgate hline
  · split
    · exact attends_refused hgate hline
    · exact attends_request hgate hline rfl ⟨rfl, rfl, rfl, rfl⟩

/-- A request that is taken up uses no lock yet. -/
lemma attends_accept {r : Request} : Attends id p (.entering r) (p.accept id r) := by
  have hunused : (Phase.entering r).usesGate = false ∧ (Phase.entering r).usesLine = false :=
    ⟨rfl, rfl⟩
  obtain ⟨hgate, hline⟩ := hunused
  have hgoes : ∀ (q : Player) (next : Phase), q.roster = { p.roster with serial := q.serial } →
      p.serial ≤ q.serial → next.usesGate = false ∧ next.usesLine = false ∧
        next.token? = none ∧ next.line? = none → Attends id p (.entering r) (q, .goes next) :=
    fun q next hroster hserial hnext =>
      attends_unlocked hgate hline hroster hserial fun n hn => by cases hn; exact hnext
  have hsnapshot : ∀ key restoring,
      Attends id p (.entering r) (p.requestSnapshot key restoring) := by
    intro key restoring
    unfold requestSnapshot
    split
    · exact attends_refused hgate hline
    · exact hgoes _ _ rfl (Nat.le_refl _) ⟨rfl, rfl, rfl, rfl⟩
  cases r with
  | play script start bound => exact attends_requestPlay hgate hline
  | playNamed name =>
    simp only [accept]
    split
    · exact attends_refused hgate hline
    · exact hgoes _ _ rfl (Nat.le_refl _) ⟨rfl, rfl, rfl, rfl⟩
  | reset => exact attends_request hgate hline rfl ⟨rfl, rfl, rfl, rfl⟩
  | shutDown =>
    exact attends_request (q := { p with isShutDown := true }) hgate hline rfl ⟨rfl, rfl, rfl, rfl⟩
  | stepForward =>
    simp only [accept]
    split
    · exact attends_refused hgate hline
    · exact attends_requestLine hgate hline ⟨rfl, rfl, rfl, rfl⟩
  | stepBackward =>
    simp only [accept]
    split
    · exact attends_refused hgate hline
    · exact attends_requestLine hgate hline ⟨rfl, rfl, rfl, rfl⟩
  | skipToLine index => exact attends_requestLine hgate hline ⟨rfl, rfl, rfl, rfl⟩
  | skipToLabel label =>
    simp only [accept, requestLabel]
    split
    · exact attends_refused hgate hline
    · split
      · exact attends_refused hgate hline
      · exact attends_requestLine hgate hline ⟨rfl, rfl, rfl, rfl⟩
  | save =>
    simp only [accept, requestSave]
    split
    · exact attends_refused hgate hline
    · exact attends_refused hgate hline
    · exact hgoes _ _ rfl (Nat.le_succ _) ⟨rfl, rfl, rfl, rfl⟩
  | loadSnapshot key => exact hsnapshot key false
  | loadState key =>
    simp only [accept]
    split
    · exact attends_refused hgate hline
    · exact hsnapshot key true

/-- A playback that has the gate starts, or ends at once. -/
lemma attends_beginPlay {script : Script} {start : Start} {bound : Bool}
    (hgate : phase.usesGate = true) (hline : phase.usesLine = false)
    (hheld : p.gate.isHeldBy id = true) :
    Attends id p phase (p.beginPlay id script start bound) := by
  obtain ⟨q, hq⟩ : ∃ q, q = (p.prepare script bound).2 := ⟨_, rfl⟩
  have hroster := p.roster_prepare script bound
  rw [← hq] at hroster
  have hsame : q.gate = p.gate := congrArg Roster.gate hroster
  have hlock : q.lineLock = p.lineLock := congrArg Roster.line hroster
  have hnumbered : p.Numbered → q.Numbered := by
    intro h
    have htoken : q.token = some ⟨p.serial, bound⟩ := congrArg Roster.token hroster
    have hcancelled : q.cancelled = p.cancelled := congrArg Roster.cancelled hroster
    have hserial : q.serial = p.serial + 1 := congrArg Roster.serial hroster
    constructor
    · intro T hT
      cases htoken.symm.trans hT
      rw [hserial]
      exact Nat.lt_succ_self _
    · rw [hcancelled, hserial]
      exact fun n hn => Nat.lt_succ_of_lt (h.cancelled n hn)
  have hloops : ∀ x, Loops id q x → Attends id p phase x := by
    intro x hx
    obtain ⟨hgates, hlines, hcounts⟩ := hx.attends hgate hline (by rw [hsame]; exact hheld)
    rw [hsame] at hgates
    rw [hlock] at hlines
    exact ⟨hgates, hlines, fun h => hcounts (hnumbered h)⟩
  unfold beginPlay
  split
  · exact attends_leave hline hheld rfl
  · dsimp only
    rw [← hq]
    split
    · exact hloops _ (loops_finish.of_roster roster_moveFrom)
    · split
      · split
        · exact hloops _ (loops_finish.of_roster rfl)
        · exact hloops _ (.goes rfl rfl rfl .not)
      · exact hloops _ (loops_startLines.of_roster rfl)

lemma attends_playLine (hgate : phase.usesGate = true) (huses : phase.usesLine = true)
    (hheld : p.gate.isHeldBy id = true) (hline : p.lineLock.isHeldBy id = true) :
    (p.playLine id play).2 = .blocked ∨ Attends id p phase (p.playLine id play) := by
  have hengages := p.engages_playLine id play
  generalize p.playLine id play = x at hengages ⊢
  cases hengages with
  | yields =>
    exact .inr (loops_continuePlay.attends_of_release rfl (Nat.le_refl _) hgate hheld hline)
  | @pauses q r index context _ _ _ hq hr =>
    have hroster : r.roster = p.roster := by
      rw [hr, roster_moveFrom, hq, roster_publish]
      rfl
    have hserial : r.serial = p.serial := congrArg Roster.serial hroster
    have hloops : Loops id { r with lineLock := r.lineLock.release }
        ({ r with lineLock := r.lineLock.release }.continuePlay id play) := loops_continuePlay
    have hkept : r.roster = { p.roster with serial := r.serial } := by
      rw [hroster, hserial]
      rfl
    exact .inr (hloops.attends_of_release hkept (Nat.le_of_eq hserial.symm) hgate hheld hline)
  | begins => exact spares_beginLine.followPlay hgate huses hheld hline

/-! ### Steps of requests -/

lemma attends_loading {name : String} :
    (p.step id (.loading name)).2 = .blocked ∨
      Attends id p (.loading name) (p.step id (.loading name)) := by
  simp only [step, loadAndPlay]
  split
  · exact .inr (attends_refused rfl rfl)
  · split
    · exact .inr (attends_refused rfl rfl)
    · exact .inr (attends_requestPlay rfl rfl)

lemma attends_playGate {script : Script} {start : Start} {bound : Bool} :
    (p.step id (.playGate script start bound)).2 = .blocked ∨
      Attends id p (.playGate script start bound) (p.step id (.playGate script start bound)) := by
  simp only [step]
  split
  · next hheld => exact .inr (attends_beginPlay rfl rfl hheld)
  · exact .inl rfl

lemma attends_preloading {token : Token} {run : Run} {script : String} {until_ : Nat}
    (hgate : p.gate.isHeldBy id = true) :
    (p.step id (.preloading token run script until_)).2 = .blocked ∨
      Attends id p (.preloading token run script until_)
        (p.step id (.preloading token run script until_)) := by
  simp only [step]
  split
  · exact .inr (loops_startLines.attends rfl rfl hgate)
  · exact .inl rfl

lemma attends_paused {play : Play} (hgate : p.gate.isHeldBy id = true) :
    (p.step id (.paused play)).2 = .blocked ∨
      Attends id p (.paused play) (p.step id (.paused play)) := by
  simp only [step]
  split
  · exact .inr (loops_finish.attends rfl rfl hgate)
  · split
    · exact .inl rfl
    · exact .inr (loops_playOn.attends rfl rfl hgate)

lemma attends_playLock {play : Play} (hgate : p.gate.isHeldBy id = true) :
    (p.step id (.playLock play)).2 = .blocked ∨
      Attends id p (.playLock play) (p.step id (.playLock play)) := by
  simp only [step]
  split
  · next hheld => exact attends_playLine rfl rfl hgate hheld
  · exact .inl rfl

lemma attends_delaying {play : Play} {until_ : Nat} (hgate : p.gate.isHeldBy id = true) :
    (p.step id (.delaying play until_)).2 = .blocked ∨
      Attends id p (.delaying play until_) (p.step id (.delaying play until_)) := by
  simp only [step]
  split
  · exact .inr (loops_finish.attends rfl rfl hgate)
  · split
    · exact .inr (loops_autosave.attends rfl rfl hgate)
    · exact .inl rfl

lemma attends_autosaving {play : Play} {s : Snapshot} (hgate : p.gate.isHeldBy id = true) :
    Attends id p (.autosaving play s) (p.step id (.autosaving play s)) := by
  refine Loops.attends ?_ rfl rfl hgate
  simp only [step]
  split
  · exact loops_continuePlay.of_roster roster_measureMemory
  · exact loops_continuePlay.of_roster (roster_measureMemory.trans roster_write)

lemma attends_resetGate :
    (p.step id .resetGate).2 = .blocked ∨ Attends id p .resetGate (p.step id .resetGate) := by
  simp only [step]
  split
  · next hheld =>
    obtain ⟨q, hq⟩ : ∃ q, q = p.resetState p.run := ⟨_, rfl⟩
    have hroster : q.roster = p.roster := by rw [hq, roster_resetState]
    have hsame : q.gate = p.gate := congrArg Roster.gate hroster
    have hreset : p.resetAll.1.roster = { p.roster with gate := p.gate.release } := by
      unfold resetAll
      rw [← hq, ← hroster, ← hsame]
      rfl
    exact .inr (attends_leave rfl hheld hreset)
  · exact .inl rfl

lemma attends_closeGate :
    (p.step id .closeGate).2 = .blocked ∨ Attends id p .closeGate (p.step id .closeGate) := by
  simp only [step]
  split
  · next hheld => exact .inr (attends_leave rfl hheld rfl)
  · exact .inl rfl

lemma attends_stepLock :
    (p.step id .stepLock).2 = .blocked ∨ Attends id p .stepLock (p.step id .stepLock) := by
  simp only [step]
  split
  · next hheld =>
    unfold beginStep
    split
    · exact .inr (attends_unlock rfl hheld rfl (Nat.le_refl _))
    · exact .inr (attends_unlock rfl hheld rfl (Nat.le_refl _))
    · exact spares_beginLine.followStep rfl rfl hheld
  · exact .inl rfl

lemma attends_backLock :
    (p.step id .backLock).2 = .blocked ∨ Attends id p .backLock (p.step id .backLock) := by
  simp only [step]
  split
  · next hheld => exact .inr (attends_unlock rfl hheld roster_publish (Nat.le_refl _))
  · exact .inl rfl

lemma attends_skipLock {index : Nat} :
    (p.step id (.skipLock index)).2 = .blocked ∨
      Attends id p (.skipLock index) (p.step id (.skipLock index)) := by
  simp only [step]
  split
  · next hheld =>
    refine .inr ?_
    unfold skip
    split
    · exact attends_unlock rfl hheld rfl (Nat.le_refl _)
    · split
      · exact attends_unlock rfl hheld rfl (Nat.le_refl _)
      · exact attends_unlock rfl hheld roster_publish (Nat.le_refl _)
  · exact .inl rfl

lemma attends_storing {key : String} {s : Snapshot} :
    Attends id p (.storing key s) (p.step id (.storing key s)) := by
  have hroster : (p.write key s).2.roster = p.roster := roster_write
  simp only [step, storeSnapshot]
  generalize p.write key s = written at hroster ⊢
  obtain ⟨result, q⟩ := written
  have hserial : q.serial = p.serial := congrArg Roster.serial hroster
  have hkept : q.roster = { p.roster with serial := q.serial } := by
    rw [hserial]
    exact hroster
  cases result with
  | error e =>
    exact attends_unlocked rfl rfl hkept (Nat.le_of_eq hserial.symm) fun _ h =>
      Progress.noConfusion h
  | ok =>
    exact attends_unlocked rfl rfl hkept (Nat.le_of_eq hserial.symm) fun _ h =>
      Progress.noConfusion h

lemma attends_fetching {key : String} {restoring : Bool} :
    Attends id p (.fetching key restoring) (p.step id (.fetching key restoring)) := by
  simp only [step, fetchSnapshot]
  split
  · exact attends_refused rfl rfl
  · split
    · exact attends_requestLine rfl rfl ⟨rfl, rfl, rfl, rfl⟩
    · exact attends_refused rfl rfl

lemma attends_restoreLock {s : Snapshot} :
    (p.step id (.restoreLock s)).2 = .blocked ∨
      Attends id p (.restoreLock s) (p.step id (.restoreLock s)) := by
  simp only [step]
  split
  · next hheld =>
    refine .inr ?_
    unfold restoreSnapshot
    split
    · exact attends_unlock rfl hheld rfl (Nat.le_refl _)
    · split
      · exact attends_unlock rfl hheld rfl (Nat.le_refl _)
      · split
        · exact attends_unlock rfl hheld rfl (Nat.le_refl _)
        · exact attends_unlock rfl hheld roster_publish (Nat.le_refl _)
  · exact .inl rfl

/-- Every request handles the locks as its phases tell. -/
lemma attends_step (id : Nat) (phase : Phase) (p : Player)
    (hgate : phase.holdsGate = true → p.gate.isHeldBy id = true)
    (hline : phase.holdsLine = true → p.lineLock.isHeldBy id = true) :
    (p.step id phase).2 = .blocked ∨ Attends id p phase (p.step id phase) := by
  cases phase with
  | entering r => exact .inr attends_accept
  | loading => exact attends_loading
  | playGate => exact attends_playGate
  | preloading => exact attends_preloading (hgate rfl)
  | paused => exact attends_paused (hgate rfl)
  | playLock => exact attends_playLock (hgate rfl)
  | playing play line => exact spares_stepLine.followPlay rfl rfl (hgate rfl) (hline rfl)
  | delaying => exact attends_delaying (hgate rfl)
  | autosaving => exact .inr (attends_autosaving (hgate rfl))
  | resetGate => exact attends_resetGate
  | closeGate => exact attends_closeGate
  | stepLock => exact attends_stepLock
  | stepping line => exact spares_stepLine.followStep rfl rfl (hline rfl)
  | backLock => exact attends_backLock
  | skipLock => exact attends_skipLock
  | storing => exact .inr attends_storing
  | fetching => exact .inr attends_fetching
  | restoreLock => exact attends_restoreLock

/-- A call may cancel the playback in progress, and changes nothing else of the roster. -/
lemma roster_perform (p : Player) (c : Call) : (p.perform c).gate = p.gate ∧
    (p.perform c).lineLock = p.lineLock ∧ (p.Numbered → (p.perform c).Numbered) := by
  have hestate := estate_perform (p := p) (c := c)
  have htoken : (p.perform c).token = p.token := congrArg Estate.token hestate
  have hserial : (p.perform c).serial = p.serial := congrArg Estate.serial hestate
  refine ⟨congrArg Estate.gate hestate, spared_perform.lock, fun h => ?_⟩
  have hsignals : c ≠ .stop → c ≠ .cancel → (p.perform c).Numbered := fun hstop hcancel =>
    h.keeps (.inl htoken) (congrArg (fun x => x.2.1) (signals_perform hstop hcancel))
      (Nat.le_of_eq hserial.symm)
  cases c with
  | stop => exact h.stop
  | cancel => exact ⟨h.token, h.cancelled⟩
  | _ => exact hsignals Call.noConfusion Call.noConfusion

end Player

namespace Session

variable {s s' : Session} {a : Action} {t u : Task} {x : Player × Progress} {lock : Player → Lock}
  {uses holds : Phase → Bool}

/-! ### Sessions -/

/-- The members of a lock are requests in progress that use it, each once, and who is certain to
hold it does so. -/
structure Attended (lock : Player → Lock) (uses holds : Phase → Bool) (s : Session) : Prop where
  uses : ∀ n ∈ (lock s.player).members, ∃ t ∈ s.tasks, t.id = n ∧ uses t.phase = true
  nodup : (lock s.player).members.Nodup
  holds : ∀ t ∈ s.tasks, holds t.phase = true → (lock s.player).isHeldBy t.id = true

namespace Attended

/-- Who is a member of a lock uses it. -/
lemma uses_of_mem (h : s.Attended lock uses holds) (hdistinct : s.Distinct) (ht : t ∈ s.tasks)
    (hmem : t.id ∈ (lock s.player).members) : uses t.phase = true := by
  obtain ⟨u, hu, hid, huses⟩ := h.uses t.id hmem
  obtain rfl : u = t := List.inj_on_of_nodup_map hdistinct hu ht hid
  exact huses

/-- A step of a request keeps the members of a lock in order. -/
lemma go (h : s.Attended lock uses holds) (hdistinct : s.Distinct) (hmoved : s.Moved s' t x)
    (hx : (lock s.player).Handles t.id (uses t.phase) (lock x.1) (x.2.leads uses)
      (x.2.leads holds)) : s'.Attended lock uses holds := by
  have hmem := h.uses_of_mem hdistinct hmoved.mem
  constructor
  · intro n hn
    rw [hmoved.player] at hn
    by_cases hid : n = t.id
    · obtain rfl := hid
      have huses := hx.used_of_mem hmem h.nodup hn
      cases hnext : x.2 with
      | goes next =>
        rw [hnext] at huses
        exact ⟨_, hmoved.mem_next hnext, rfl, huses⟩
      | blocked | ends =>
        rw [hnext] at huses
        cases huses
    · obtain ⟨u, hu, rfl, huses⟩ := h.uses n (hx.mem_of_ne hn hid)
      exact ⟨u, hmoved.mem_of_ne hu fun heq => hid (congrArg Task.id heq), rfl, huses⟩
  · rw [hmoved.player]
    exact hx.nodup hmem h.nodup
  · intro u hu hholds
    rw [hmoved.player]
    rcases hmoved.cases hdistinct hu with ⟨hold, hne⟩ | ⟨hid, hgoes⟩
    · exact hx.passes.isHeldBy (h.holds u hold hholds) hne
    · rw [hid]
      refine hx.isHeldBy ?_
      rw [hgoes]
      exact hholds

/-- A request that is made uses no lock. -/
lemma submit (h : s.Attended lock uses holds) {id : Nat} {r : Request}
    (hholds : holds (.entering r) = false) : (s.submit id r).Attended lock uses holds := by
  refine ⟨fun n hn => ?_, h.nodup, fun t ht hheld => ?_⟩
  · obtain ⟨t, ht, hid⟩ := h.uses n hn
    exact ⟨t, List.mem_append_left _ ht, hid⟩
  · rcases List.mem_append.mp ht with ht | ht
    · exact h.holds t ht hheld
    · rw [List.mem_singleton.mp ht, hholds] at hheld
      cases hheld

/-- What does not touch a lock. -/
lemma of_eq (h : s.Attended lock uses holds) {q : Player} (hlock : lock q = lock s.player) :
    Attended lock uses holds { s with player := q } := by
  constructor
  · rw [hlock]
    exact h.uses
  · rw [hlock]
    exact h.nodup
  · rw [hlock]
    exact h.holds

/-- A free lock has no members, and nobody holds it where nothing is in progress. -/
lemma of_nil (hnone : s.tasks = []) (hfree : lock s.player = {}) :
    s.Attended lock uses holds := by
  refine ⟨fun n hn => ?_, ?_, fun t ht => ?_⟩
  · rw [hfree] at hn
    cases hn
  · rw [hfree]
    exact List.nodup_nil
  · rw [hnone] at ht
    cases ht

/-- When nothing is in progress, the lock is free. -/
lemma free (h : s.Attended lock uses holds) (hnone : s.tasks = []) : lock s.player = {} := by
  refine Lock.eq_of_members (List.eq_nil_iff_forall_not_mem.mpr fun n hn => ?_)
  obtain ⟨t, ht, -⟩ := h.uses n hn
  rw [hnone] at ht
  cases ht

end Attended

/-- Both locks and the numbers of playbacks are in order. -/
structure Attentive (s : Session) : Prop where
  distinct : s.Distinct
  gate : s.Attended Player.gate Phase.usesGate Phase.holdsGate
  line : s.Attended Player.lineLock Phase.usesLine Phase.holdsLine
  numbered : s.player.Numbered

namespace Attentive

/-- Nobody uses the locks of a new player. -/
lemma created {host : Host} {bus : Bus} {store : Option Store} :
    Attentive { player := .create host bus store } where
  distinct := List.nodup_nil
  gate := .of_nil rfl rfl
  line := .of_nil rfl rfl
  numbered := ⟨fun T hT => absurd hT.symm (Option.some_ne_none T),
    fun _ hn => absurd hn List.not_mem_nil⟩

/-- Whatever happens keeps the locks in order. -/
lemma does (h : s.Attentive) (hdoes : s.Does a s') : s'.Attentive := by
  have hdistinct := hdoes.distinct h.distinct
  cases a with
  | submit id r =>
    cases hdoes
    exact ⟨hdistinct, h.gate.submit rfl, h.line.submit rfl, h.numbered⟩
  | call c =>
    cases hdoes
    obtain ⟨hgate, hline, hnumbered⟩ := s.player.roster_perform c
    exact ⟨hdistinct, h.gate.of_eq hgate, h.line.of_eq hline, hnumbered h.numbered⟩
  | go id =>
    obtain ⟨t, x, -, hmoved⟩ := hdoes.moved
    have ht := hmoved.mem
    have hready : (s.player.step t.id t.phase).2 ≠ .blocked := hmoved.step ▸ hmoved.ready
    have hattends := (Player.attends_step t.id t.phase s.player (h.gate.holds t ht)
      (h.line.holds t ht)).resolve_left hready
    rw [hmoved.step] at hattends
    exact ⟨hdistinct, h.gate.go h.distinct hmoved hattends.gate,
      h.line.go h.distinct hmoved hattends.line,
      hmoved.player ▸ hattends.numbered h.numbered⟩
  | wait now =>
    cases hdoes
    exact ⟨hdistinct, h.gate.of_eq rfl, h.line.of_eq rfl, h.numbered.token, h.numbered.cancelled⟩

lemma evolves {allowed : Action → Prop} (h : s.Attentive) (hs : s.Evolves allowed s') :
    s'.Attentive := by
  induction hs with
  | refl => exact h
  | tail _ hmay ih =>
    obtain ⟨a, -, hdoes⟩ := hmay
    exact ih.does hdoes

end Attentive

end Session

end Recital

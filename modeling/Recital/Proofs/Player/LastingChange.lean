import Recital.Player.Control
import Recital.Player.Request
import Recital.Proofs.Decimal.Rounding
import Recital.Proofs.Place.Line
import Mathlib.Logic.Relation

/-!
# What a player changes for good

Some of what a player keeps outlives a line or can be seen from outside: the state and its events, a
pause that was asked for, the variables and the breakpoints, the checkpoint and the store
(`Player.lastingPart`).  Whatever is done with a player changes that part in one of a few ways at a
time (`LastingChange`), and what is true of each change is true of everything that a line or a
request does.

Which values the variables hold is up to the scripts.  `P` is true of the values that commands set,
and then of all that are ever held; `K` is true of the keys that are written to.
-/

namespace Recital

/-! ### The values that are set -/

/-- Sets variables to values of a kind only. -/
def Effect.Sets (P : Json → Prop) : Effect → Prop
  | .assign _ value => P value
  | .observe _ look => ∀ view, P (look view)
  | _ => True

/-- All its attempts set values of a kind only. -/
def Command.Sets (P : Json → Prop) (c : Command) : Prop :=
  ∀ n view, ∀ e ∈ (c.attempt n view).effects, e.Sets P

/-- All its commands set values of a kind only. -/
def Script.Sets (P : Json → Prop) (s : Script) : Prop :=
  ∀ source c, Line.command source (some c) ∈ s.lines → c.Sets P

/-- All values are of a kind. -/
def Table.Holds (P : Json → Prop) (t : Table Json) : Prop := ∀ e ∈ t.entries, P e.2

/-- All its variables are of a kind. -/
def Snapshot.Holds (P : Json → Prop) (s : Snapshot) : Prop := s.vars.Holds P

/-- The snapshots that are read from the store hold values of a kind only, whatever is saved
before. -/
def Store.Yields (P : Json → Prop) (store : Store) : Prop :=
  ∀ later, Relation.ReflTransGen (fun a b => ∃ key value, b = (a.save key value).2) store later →
    ∀ key j s, later.load key = .ok (some j) → Snapshot.ofJson? j = some s → s.Holds P

/-- The command of a line that is being executed sets values of a kind only. -/
def LinePhase.Sets (P : Json → Prop) : LinePhase → Prop
  | .flying j _ | .resting j _ => j.command.Sets P
  | .presenting .. | .switching .. => True

/-- A playback starts with values of a kind. -/
def Start.Holds (P : Json → Prop) : Start → Prop
  | .snapshot s => s.Holds P
  | _ => True

/-- A request brings values of a kind only. -/
def Request.Sets (P : Json → Prop) : Request → Prop
  | .play script start _ => script.Sets P ∧ start.Holds P
  | _ => True

/-- A request that waits goes on with values of a kind. -/
def Phase.Sets (P : Json → Prop) : Phase → Prop
  | .entering r => r.Sets P
  | .playGate script start _ => script.Sets P ∧ start.Holds P
  | .playing _ line | .stepping line => line.Sets P
  | .autosaving _ s | .storing _ s | .restoreLock s => s.Holds P
  | _ => True

/-- The key that a request is going to write to is of a kind. -/
def Phase.Writes (K : String → Prop) : Phase → Prop
  | .storing key _ => K key
  | _ => True

/-! ### LastingChanges -/

/-- The change of state that an event tells of. -/
def Event.change? (e : Event) : Option State.Change :=
  match e.payload with
  | .stateChanged before after => some ⟨before, after⟩
  | _ => none

/-- A payload that tells of no change of state.  Progress is told as a number, and a value that was
set is of the kind. -/
def Event.Payload.IsSteady (P : Json → Prop) : Event.Payload → Prop
  | .stateChanged .. => False
  | .progressChanged progress => progress.isFinite = true
  | .variableChanged _ (some value) => P value
  | _ => True

/-- The cursor counts no further than the lines, so progress is a number. -/
lemma Context.isFinite_progress (c : Context) : c.progress.isFinite = true := by
  unfold progress
  split
  · rfl
  · next hlines =>
    exact Binary64.isFinite_ofRatio (Nat.pos_of_ne_zero hlines) (Nat.min_le_right _ _)

/-- What a player keeps of its context. -/
def Context.lastingPart (c : Context) : Context :=
  { script := c.script, breakpoints := c.breakpoints, vars := c.vars }

/-- What a player keeps beyond a line, and what can be seen of it. -/
structure LastingPart where
  host : Host
  cell : Cell
  bus : Bus
  pauseRequested : Bool
  context : Context
  checkpoint : Option Snapshot
  store : Option Store

namespace LastingPart

/-- All values are of a kind, those to come included. -/
structure Holds (P : Json → Prop) (b : LastingPart) : Prop where
  loads : ∀ load name script, b.host.loader = some load → load name = .ok script → script.Sets P
  script : ∀ script, b.context.script = some script → script.Sets P
  vars : b.context.vars.Holds P
  checkpoint : ∀ s, b.checkpoint = some s → s.Holds P
  store : ∀ store, b.store = some store → store.Yields P

end LastingPart

/-- One change of what a player keeps. -/
inductive LastingChange (P : Json → Prop) (K : String → Prop) (b : LastingPart) : LastingPart → Prop
  /-- The state changes by an allowed move, which is told. -/
  | moves {target : State} {run : Run} {at_ : Instant} (h : b.cell.current.allows target = true) :
    LastingChange P K b { b with
      cell := (b.cell.commit target).1
      bus := b.bus.publish ⟨.stateChanged b.cell.current target, at_, run⟩ }
  /-- The state goes back to `idle` when no pause is asked for, which is told. -/
  | resets {run : Run} {at_ : Instant} (h : b.cell.current ≠ .idle)
    (hquiet : b.pauseRequested = false) :
    LastingChange P K b { b with
      cell := (b.cell.commit .idle).1
      bus := b.bus.publish ⟨.stateChanged b.cell.current .idle, at_, run⟩ }
  /-- Something else is told. -/
  | tells {e : Event} (h : e.payload.IsSteady P) :
    LastingChange P K b { b with bus := b.bus.publish e }
  | closes : LastingChange P K b { b with bus := b.bus.close }
  /-- A pause is asked for while a command is in flight. -/
  | asks (h : b.cell.current = .waiting) : LastingChange P K b { b with pauseRequested := true }
  | forgets : LastingChange P K b { b with pauseRequested := false }
  | assigns {name : String} {value : Json} (h : P value) :
    LastingChange P K b { b with context := b.context.assign name value }
  | clears : LastingChange P K b { b with context := b.context.clearVariables }
  | loads {script : Option Script} (h : ∀ s, script = some s → s.Sets P) :
    LastingChange P K b { b with context := { b.context with script } }
  /-- The breakpoints change and stay in order. -/
  | marks {breakpoints : List Nat}
    (h : b.context.breakpoints.Pairwise (· < ·) → breakpoints.Pairwise (· < ·)) :
    LastingChange P K b { b with context := { b.context with breakpoints } }
  | restores {s : Snapshot} (h : s.Holds P) :
    LastingChange P K b { b with context := (b.context.restore s).lastingPart }
  | keeps {s : Snapshot} (h : s.Holds P) : LastingChange P K b { b with checkpoint := some s }
  | drops : LastingChange P K b { b with checkpoint := none }
  /-- A snapshot is written to the store, or cannot be. -/
  | writes {store : Store} {key : String} {s : Snapshot} (hstore : b.store = some store)
    (hkey : K key) :
    LastingChange P K b { b with store := some (store.save key s.toJson.normalize).2 }

namespace Table

variable {P : Json → Prop} {t : Table Json}

lemma Holds.insert {key : String} {value : Json} (ht : t.Holds P) (h : P value) :
    (t.insert key value).Holds P := by
  intro e he
  rcases mem_insertSorted he with rfl | he
  · exact h
  · exact ht e he

lemma holds_empty : (∅ : Table Json).Holds P := fun _ he => absurd he List.not_mem_nil

end Table

variable {P : Json → Prop} {K : String → Prop}

/-- A store that was written to still yields values of the kind. -/
lemma Store.Yields.save {store : Store} (h : store.Yields P) (key : String) (value : Json) :
    (store.save key value).2.Yields P :=
  fun later hlater => h later (.head ⟨key, value, rfl⟩ hlater)

/-- LastingChanges keep to the values of the kind. -/
lemma LastingChange.holds {b c : LastingPart} (h : LastingChange P K b c) (hb : b.Holds P) :
    c.Holds P := by
  cases h with
  | moves | resets | tells | closes | asks | forgets | marks => exact { hb with }
  | assigns h => exact { hb with vars := hb.vars.insert h }
  | clears => exact { hb with vars := Table.holds_empty }
  | loads h => exact { hb with script := h }
  | restores h => exact { hb with vars := h }
  | keeps h => exact { hb with checkpoint := fun s hs => Option.some.inj hs ▸ h }
  | drops => exact { hb with checkpoint := fun s hs => nomatch hs }
  | writes hstore =>
    refine { hb with store := fun store hs => ?_ }
    rw [← Option.some.inj hs]
    exact (hb.store _ hstore).save _ _

namespace Context

variable {c d : Context} {index : Nat}

@[simp] lemma lastingPart_unrelease : (c.unrelease index).lastingPart = c.lastingPart := by
  unfold unrelease
  split <;> rfl

@[simp] lemma lastingPart_lineFinished :
    (c.lineFinished index).lastingPart = c.lastingPart := lastingPart_unrelease

@[simp] lemma lastingPart_takeBreakpoint : c.takeBreakpoint.2.lastingPart = c.lastingPart := by
  unfold takeBreakpoint
  split
  · rfl
  · split <;> rfl

/-- Returning at the end of the script changes the cursor and the return addresses only. -/
lemma lastingPart_implicitReturn (depth : Nat) :
    (implicitReturn depth c).lastingPart = c.lastingPart := by
  induction depth generalizing c with
  | zero => rfl
  | succ depth ih =>
    unfold implicitReturn
    split
    · rfl
    · split
      · next frame d hpop =>
        obtain ⟨_, -, hpair⟩ := Option.map_eq_some_iff.mp hpop
        cases hpair
        exact ih
      · rfl

@[simp] lemma lastingPart_settleCursor :
    c.settleCursor.lastingPart = c.lastingPart := lastingPart_implicitReturn _

/-- A flow action changes the cursor and the return addresses only. -/
lemma lastingPart_resolve {flow : Flow} {r : Resolution} (h : c.resolve flow = .ok (r, d)) :
    d.lastingPart = c.lastingPart := by
  cases flow with
  | next | stop | call =>
    cases h
    rfl
  | toLine index =>
    simp only [resolve] at h
    split at h
    · cases h
      rfl
    · cases h
  | toLabel label =>
    simp only [resolve] at h
    split at h
    · cases h
      rfl
    · cases h
  | back =>
    simp only [resolve] at h
    split at h
    · next frame e hpop =>
      obtain ⟨_, -, hpair⟩ := Option.map_eq_some_iff.mp hpop
      cases h
      cases hpair
      rfl
    · cases h
      rfl

end Context

/-! ### The breakpoints -/

lemma Context.mem_insertMark {n m : Nat} {ns : List Nat} :
    m ∈ insertMark n ns ↔ m = n ∨ m ∈ ns := by
  induction ns with
  | nil => simp [insertMark]
  | cons k rest ih =>
    unfold insertMark
    split
    · simp
    · split
      · next heq =>
        rw [heq]
        simp
      · rw [List.mem_cons, ih, List.mem_cons]
        tauto

/-- An increasing list stays one when a number is added. -/
lemma Context.pairwise_insertMark {n : Nat} {ns : List Nat} (h : ns.Pairwise (· < ·)) :
    (insertMark n ns).Pairwise (· < ·) := by
  induction ns with
  | nil => exact List.pairwise_singleton _ _
  | cons k rest ih =>
    obtain ⟨hhead, hrest⟩ := List.pairwise_cons.mp h
    unfold insertMark
    split
    · next hlt =>
      refine List.pairwise_cons.mpr ⟨fun m hm => ?_, h⟩
      rcases List.mem_cons.mp hm with rfl | hm
      · exact hlt
      · exact Nat.lt_trans hlt (hhead m hm)
    · split
      · exact h
      · next hle hne =>
        refine List.pairwise_cons.mpr ⟨fun m hm => ?_, ih hrest⟩
        rcases mem_insertMark.mp hm with rfl | hm
        · omega
        · exact hhead m hm

/-- The breakpoints of a snapshot are put into order. -/
lemma Context.pairwise_marks (ns : List Nat) : (marks ns).Pairwise (· < ·) := by
  induction ns with
  | nil => exact .nil
  | cons n ns ih => exact pairwise_insertMark ih

namespace Player

variable {p q r : Player} {run : Run} {w : Work} {j : Job} {f : Flight}

/-- What a player keeps beyond a line, and what can be seen of it. -/
def lastingPart (p : Player) : LastingPart :=
  ⟨p.host, p.cell, p.bus, p.pauseRequested, p.context.lastingPart, p.recovery.checkpoint, p.store⟩

/-- What a player keeps has changed by lasting changes. -/
def LastingChanges (P : Json → Prop) (K : String → Prop) (p q : Player) : Prop :=
  Relation.ReflTransGen (LastingChange P K) p.lastingPart q.lastingPart

namespace LastingChanges

lemma of_lastingPart (h : q.lastingPart = p.lastingPart) : LastingChanges P K p q := by
  unfold LastingChanges
  rw [h]

lemma refl (p : Player) : LastingChanges P K p p := of_lastingPart rfl

lemma trans (hpq : LastingChanges P K p q) (hqr : LastingChanges P K q r) :
    LastingChanges P K p r :=
  Relation.ReflTransGen.trans hpq hqr

lemma single (h : LastingChange P K p.lastingPart q.lastingPart) : LastingChanges P K p q :=
  Relation.ReflTransGen.single h

/-- LastingChanges keep to the values of the kind. -/
lemma holds (h : LastingChanges P K p q) (hp : p.lastingPart.Holds P) : q.lastingPart.Holds P := by
  unfold LastingChanges at h
  generalize q.lastingPart = c at h
  induction h with
  | refl => exact hp
  | tail _ hchange ih => exact hchange.holds ih

/-- LastingChanges leave the host as it is. -/
lemma host (h : LastingChanges P K p q) : q.host = p.host := by
  have hhost : q.lastingPart.host = p.lastingPart.host := by
    unfold LastingChanges at h
    generalize q.lastingPart = c at h
    induction h with
    | refl => rfl
    | tail _ hchange ih => cases hchange <;> exact ih
  exact hhost

end LastingChanges

/-! ### Events and the state -/

lemma lastingChanges_publish {e : Event.Payload} (h : e.IsSteady P) :
    LastingChanges P K p (p.publish run e) :=
  .single (.tells h)

lemma lastingChanges_publishProgress : LastingChanges P K p p.publishProgress :=
  lastingChanges_publish p.context.isFinite_progress

lemma lastingChanges_commit {target : State} (h : p.state.allows target = true) :
    LastingChanges P K p (p.commit run (p.cell.commit target)) :=
  .single (.moves h)

lemma lastingChanges_moveIfAllowed {target : State} :
    LastingChanges P K p (p.moveIfAllowed run target) := by
  rw [moveIfAllowed_eq_ite]
  split
  · next hallowed => exact lastingChanges_commit hallowed
  · exact .refl p

lemma lastingChanges_moveFrom {a b : State} : LastingChanges P K p (p.moveFrom run a b).2 := by
  rw [moveFrom_eq_ite]
  split
  · next hallowed =>
    obtain ⟨rfl, hallowed⟩ := hallowed
    exact lastingChanges_commit hallowed
  · exact .refl p

lemma lastingChanges_resetState (hquiet : p.pauseRequested = false) :
    LastingChanges P K p (p.resetState run) := by
  rw [resetState_eq_ite]
  split
  · exact .refl p
  · next hne => exact .single (.resets hne hquiet)

/-! ### Variables -/

lemma lastingChanges_setVariable {name : String} {value : Json} (h : P value) :
    LastingChanges P K p (p.setVariable run name value) := by
  have hassigned : LastingChanges P K p { p with context := p.context.assign name value } :=
    .single (.assigns h)
  exact hassigned.trans (lastingChanges_publish h)

lemma lastingChanges_clearVariables : LastingChanges P K p (p.clearVariables run) := by
  have hcleared : LastingChanges P K p { p with context := p.context.clearVariables } :=
    .single .clears
  have htold : ∀ (names : List String) (q : Player), LastingChanges P K q
      (names.foldl (fun q name => q.publish run (.variableChanged name none)) q) := by
    intro names
    induction names with
    | nil => exact LastingChanges.refl
    | cons name names ih =>
      intro q
      have hname : LastingChanges P K q (q.publish run (.variableChanged name none)) :=
        lastingChanges_publish trivial
      exact hname.trans (ih _)
  exact hcleared.trans (htold _ _)

/-! ### Stopping, deferring and the checkpoint -/

lemma lastingPart_cancelRun : p.cancelRun.lastingPart = p.lastingPart := by
  rw [cancelRun_eq]
  rfl

lemma lastingChanges_stop : LastingChanges P K p p.stop := by
  unfold stop
  split
  · have hnoted : LastingChanges P K p { p with stopRequested := true } := .of_lastingPart rfl
    exact (hnoted.trans lastingChanges_moveIfAllowed).trans (.of_lastingPart lastingPart_cancelRun)
  · exact .refl p

lemma lastingChanges_clearLeftovers : LastingChanges P K p p.clearLeftovers := .single .forgets

lemma lastingChanges_defer {finish : Finish} : LastingChanges P K p (p.defer finish) := by
  have hleft : LastingChanges P K p { p with deferred := some finish } := .of_lastingPart rfl
  exact hleft.trans lastingChanges_moveFrom

/-- A snapshot holds the values of the playback. -/
lemma holds_of_snapshot? {s : Snapshot} {at_ : Instant} (hp : p.lastingPart.Holds P)
    (h : p.context.snapshot? at_ = some s) : s.Holds P := by
  obtain ⟨script, -, rfl⟩ := Option.map_eq_some_iff.mp h
  exact hp.vars

lemma lastingChanges_setCheckpoint (hp : p.lastingPart.Holds P) :
    LastingChanges P K p p.setCheckpoint := by
  unfold setCheckpoint
  split
  · next s hs => exact .single (.keeps (holds_of_snapshot? hp hs))
  · exact .refl p

lemma lastingPart_measureMemory : p.measureMemory.lastingPart = p.lastingPart := by
  unfold measureMemory
  split
  · dsimp only
    split <;> rfl
  · rfl

/-! ### Lines -/

/-- A line goes on by lasting changes, and what follows sets values of the kind. -/
structure LineChangesWithin (P : Json → Prop) (K : String → Prop) (p : Player)
    (x : Player × LineProgress) : Prop where
  changes : LastingChanges P K p x.1
  goes : ∀ line, x.2 = .goes line → line.Sets P

lemma LineChangesWithin.trans {x : Player × LineProgress} (hpq : LastingChanges P K p q)
    (hx : LineChangesWithin P K q x) :
    LineChangesWithin P K p x :=
  ⟨hpq.trans hx.changes, hx.goes⟩

/-- A line ends. -/
lemma lineChangesWithin_ends {by_ : LineEnd} (h : LastingChanges P K p q) :
    LineChangesWithin P K p (q, .ends by_) :=
  ⟨h, fun _ hgoes => nomatch hgoes⟩

lemma lineChangesWithin_goes {line : LinePhase} (h : LastingChanges P K p q) (hline : line.Sets P) :
    LineChangesWithin P K p (q, .goes line) :=
  ⟨h, fun _ hgoes => LineProgress.goes.inj hgoes ▸ hline⟩

lemma lineChangesWithin_blocked :
    LineChangesWithin P K p (p, .blocked) := ⟨.refl p, fun _ hgoes => nomatch hgoes⟩

lemma lastingChanges_applyPause : LastingChanges P K p (p.applyPause run) := by
  unfold applyPause
  split
  · have hforgotten : LastingChanges P K p { p with pauseRequested := false } := .single .forgets
    exact hforgotten.trans lastingChanges_moveFrom
  · exact .refl p

lemma lineChangesWithin_closeLine {by_ : LineEnd} : LineChangesWithin P K p (p.closeLine w by_) :=
  lineChangesWithin_ends (lastingChanges_publishProgress.trans lastingChanges_applyPause)

lemma lastingChanges_passOver {fault : Fault} : LastingChanges P K p (p.passOver w fault).1 := by
  unfold passOver
  dsimp only
  have hspent : LastingChanges P K p { p with spent := p.spent.forget w.index } :=
    .of_lastingPart rfl
  split
  · have htold : LastingChanges P K { p with spent := p.spent.forget w.index }
        ({ p with spent := p.spent.forget w.index }.publish w.run (.lineFailed w.index fault)) :=
      lastingChanges_publish trivial
    have hcontext : ((p.context.lineFinished w.index).moveTo (w.index + 1)).lastingPart =
        p.context.lastingPart := Context.lastingPart_lineFinished
    exact (hspent.trans htold).trans
      (.of_lastingPart (congrArg (LastingPart.mk _ _ _ _ · _ _) hcontext))
  · exact hspent

lemma lineChangesWithin_closeFailed {fault : Fault} :
    LineChangesWithin P K p (p.closeFailed w fault) :=
  .trans lastingChanges_passOver lineChangesWithin_closeLine

lemma lineChangesWithin_closeDone {recovered : Bool} {by_ : LineEnd} :
    LineChangesWithin P K p (p.closeDone w recovered by_) := by
  unfold closeDone
  refine .trans (.of_lastingPart ?_) lineChangesWithin_closeLine
  split <;> rfl

/-- What is kept of the context is the same. -/
lemma lastingChanges_of_context {context : Context}
    (h : context.lastingPart = p.context.lastingPart) :
    LastingChanges P K p { p with context } :=
  .of_lastingPart (congrArg (LastingPart.mk _ _ _ _ · _ _) h)

lemma lineChangesWithin_applyFlow {flow : Flow} {recovered : Bool} :
    LineChangesWithin P K p (p.applyFlow w flow recovered) := by
  unfold applyFlow
  split
  · exact lineChangesWithin_closeFailed
  · next resolution context hresolve =>
    have hmoved : LastingChanges P K p { p with context } :=
      lastingChanges_of_context (Context.lastingPart_resolve hresolve)
    dsimp only
    split
    · have hkept : context.lastingPart = p.context.lastingPart :=
        Context.lastingPart_resolve hresolve
      have hadvanced : LastingChanges P K p { p with context := context.advance } :=
        lastingChanges_of_context hkept
      exact .trans hadvanced lineChangesWithin_closeDone
    · exact .trans hmoved lineChangesWithin_closeDone
    · exact .trans hmoved lineChangesWithin_closeDone
    · exact .trans hmoved lineChangesWithin_closeDone
    · exact .trans hmoved lineChangesWithin_closeDone
    · split
      · exact .trans hmoved lineChangesWithin_closeFailed
      · exact lineChangesWithin_goes hmoved trivial

lemma lineChangesWithin_finishLine {flow : Flow} {recovered : Bool} :
    LineChangesWithin P K p (p.finishLine w flow recovered) := by
  have hcounted : LastingChanges P K p { p with
      context := p.context.recordLine.lineFinished w.index
      spent := p.spent.forget w.index } :=
    .of_lastingPart (congrArg (LastingPart.mk _ _ _ _ · _ _) Context.lastingPart_lineFinished)
  have htold : ∀ q : Player, LastingChanges P K q
      (q.publish w.run (.lineExecuted w.index w.source)) :=
    fun _ => lastingChanges_publish trivial
  exact .trans (hcounted.trans (htold _)) lineChangesWithin_applyFlow

/-- A script that is called sets values of the kind. -/
lemma sets_of_fetch {name : String} {s : Script} {labels : Table Nat} (hp : p.lastingPart.Holds P)
    (h : p.fetch w name = .ok (s, labels)) : s.Sets P := by
  unfold fetch at h
  split at h
  · cases h
  · next load hload =>
    split at h
    · cases h
    · next script hscript =>
      dsimp only at h
      split at h
      · cases h
      · cases h
        exact hp.loads load name s hload hscript

lemma lastingChanges_enter {caller : Run} {name : String} {script : Script} {labels : Table Nat}
    (hp : p.lastingPart.Holds P) (hscript : script.Sets P) :
    LastingChanges P K p (p.enter caller name script labels) := by
  obtain ⟨q, hq⟩ : ∃ q, q = { p with
      context := p.context.switchTo script labels, attempts := {} } := ⟨_, rfl⟩
  have hpq : LastingChanges P K p q := by
    rw [hq]
    exact .single (.loads fun s hs => Option.some.inj hs ▸ hscript)
  have hset : LastingChanges P K p q.setCheckpoint :=
    hpq.trans (lastingChanges_setCheckpoint (hpq.holds hp))
  obtain ⟨e, he⟩ : ∃ e, e = { q.setCheckpoint with
      spent := {}, run := caller.child q.setCheckpoint.serial
      serial := q.setCheckpoint.serial + 1 } := ⟨_, rfl⟩
  have hentered : LastingChanges P K p e := hset.trans (.of_lastingPart (by rw [he]; rfl))
  have heq : p.enter caller name script labels = e.publish e.run (.scriptStarted name) := by
    rw [he, hq]
    rfl
  rw [heq]
  exact hentered.trans (lastingChanges_publish trivial)

lemma lineChangesWithin_switchScript {caller : Run} {name : String} {recovered : Bool}
    (hp : p.lastingPart.Holds P) :
    LineChangesWithin P K p (p.switchScript w caller name recovered) := by
  unfold switchScript
  split
  · exact lineChangesWithin_closeFailed
  · next s labels hfetch =>
    exact .trans (lastingChanges_enter hp (sets_of_fetch hp hfetch)) lineChangesWithin_closeDone

lemma lineChangesWithin_handleFault {fault : Fault} {policy : Policy} (hp : p.lastingPart.Holds P) :
    LineChangesWithin P K p (p.handleFault w fault policy) := by
  obtain ⟨hkept, hrollback⟩ := p.recovery.plan_spec fault policy (p.spent.count w.index)
    p.tolerance.maxRecoveries
  unfold handleFault
  split
  · exact lineChangesWithin_closeFailed
  · dsimp only
    generalize p.recovery.plan fault policy (p.spent.count w.index) p.tolerance.maxRecoveries =
      planned at hkept hrollback
    obtain ⟨plan, recovery⟩ := planned
    have hplanned : ∀ (spent : Tally) (successes : Nat),
        LastingChanges P K p { p with spent, recovery := { recovery with successes } } :=
      fun _ _ => .of_lastingPart (congrArg (LastingPart.mk _ _ _ _ _ · _) hkept)
    cases plan with
    | proceed flow => exact .trans (hplanned _ _) lineChangesWithin_finishLine
    | again => exact .trans (hplanned _ _) lineChangesWithin_closeLine
    | rollback s =>
      have hrestored : LastingChanges P K p { p with context := p.context.restore s } :=
        .single (.restores (hp.checkpoint s (hrollback s rfl)))
      refine .trans (hrestored.trans (.of_lastingPart ?_)) lineChangesWithin_closeLine
      exact congrArg (LastingPart.mk _ _ _ _ _ · _) hkept
    | halt => exact .trans (hplanned _ _) lineChangesWithin_closeLine
    | giveUp => exact .trans (hplanned _ _) lineChangesWithin_closeFailed

lemma lastingChanges_applyEffect {e : Effect} (h : e.Sets P) :
    LastingChanges P K p (p.applyEffect w e) := by
  cases e with
  | assign => exact lastingChanges_setVariable h
  | observe name look => exact lastingChanges_setVariable (h _)
  | clear => exact lastingChanges_clearVariables
  | push | note => exact .of_lastingPart rfl

lemma lastingChanges_foldl_applyEffect {effects : List Effect} (h : ∀ e ∈ effects, e.Sets P) :
    LastingChanges P K p (effects.foldl (fun p e => p.applyEffect w e) p) := by
  induction effects generalizing p with
  | nil => exact .refl p
  | cons e effects ih =>
    exact (lastingChanges_applyEffect (h e List.mem_cons_self)).trans
      (ih fun e he => h e (List.mem_cons_of_mem _ he))

lemma lastingPart_countAttempt : (p.countAttempt j).lastingPart = p.lastingPart := by
  unfold countAttempt
  split <;> rfl

lemma lineChangesWithin_launch (hj : j.command.Sets P) : LineChangesWithin P K p (p.launch j) := by
  have htold : LastingChanges P K p
      (p.publish j.work.run (.commandExecuting j.work.index j.command.type)) :=
        lastingChanges_publish trivial
  unfold launch
  dsimp only
  split
  · exact lineChangesWithin_goes htold hj
  · exact lineChangesWithin_goes ((htold.trans (.of_lastingPart lastingPart_countAttempt)).trans
      (lastingChanges_foldl_applyEffect (hj _ _))) hj

lemma lastingChanges_leaveWaiting : LastingChanges P K p (p.leaveWaiting j) := by
  unfold leaveWaiting
  split
  · exact lastingChanges_moveFrom
  · exact .refl p

lemma lastingChanges_recordAttempt {result : Except Failure Flow} :
    LastingChanges P K p (p.recordAttempt j f result) := by
  have hrecorded : LastingChanges P K p { p with
      ledger := p.ledger.record j.command.type (Span.ofMillis (p.stopwatch - f.since)) result } :=
    .of_lastingPart rfl
  have htold : ∀ (q : Player) (success : Bool), LastingChanges P K q (q.publish j.work.run
      (.commandExecuted j.work.index j.command.type success)) := fun _ _ =>
      lastingChanges_publish trivial
  unfold recordAttempt
  dsimp only
  split
  · exact (hrecorded.trans (htold _ _)).trans (.of_lastingPart rfl)
  · exact hrecorded.trans (htold _ _)

lemma lastingPart_backoff {policy : Policy} {attempt : Nat} :
    (p.backoff policy attempt).2.lastingPart = p.lastingPart := by
  unfold backoff
  split <;> rfl

lemma lineChangesWithin_attemptFailed {failure : Failure} (hp : p.lastingPart.Holds P)
    (hj : j.command.Sets P) :
    LineChangesWithin P K p (p.attemptFailed j failure) := by
  unfold attemptFailed
  dsimp only
  split
  · exact lineChangesWithin_goes (LastingChanges.trans (.of_lastingPart lastingPart_backoff)
      (lastingChanges_publish trivial)) hj
  · have hleft : LastingChanges P K p (p.leaveWaiting j) := lastingChanges_leaveWaiting
    exact .trans hleft (lineChangesWithin_handleFault (hleft.holds hp))

lemma lineChangesWithin_land {verdict : Except Failure CommandResult} (hp : p.lastingPart.Holds P)
    (hj : j.command.Sets P) : LineChangesWithin P K p (p.land j f verdict) := by
  unfold land
  dsimp only
  have hrecorded : LastingChanges P K p (p.recordAttempt j f (j.command.conclude verdict)) :=
    lastingChanges_recordAttempt
  generalize p.recordAttempt j f (j.command.conclude verdict) = q at hrecorded ⊢
  have hcounted : LastingChanges P K p { q with context := q.context.recordCommand } :=
    hrecorded.trans (.of_lastingPart rfl)
  split
  · exact .trans (hcounted.trans lastingChanges_leaveWaiting) lineChangesWithin_finishLine
  · split
    · exact lineChangesWithin_ends (hrecorded.trans lastingChanges_leaveWaiting)
    · exact .trans hcounted (lineChangesWithin_attemptFailed (hcounted.holds hp) hj)

lemma lineChangesWithin_beginCommand {command : Option Command} (hp : p.lastingPart.Holds P)
    (hcommand : ∀ c, command = some c → c.Sets P) :
    LineChangesWithin P K p (p.beginCommand w command) := by
  unfold beginCommand
  split
  · exact lineChangesWithin_handleFault hp
  · next c => exact .trans lastingChanges_moveFrom (lineChangesWithin_launch (hcommand c rfl))

lemma lineChangesWithin_beginText {text : String} :
    LineChangesWithin P K p (p.beginText w text) := by
  unfold beginText
  split
  · split
    · exact lineChangesWithin_ends (.refl p)
    · exact lineChangesWithin_goes (.of_lastingPart rfl) trivial
  · exact lineChangesWithin_finishLine

lemma lineChangesWithin_presented {verdict : Except Failure Unit} (hp : p.lastingPart.Holds P) :
    LineChangesWithin P K p (p.presented w verdict) := by
  unfold presented
  split
  · exact lineChangesWithin_finishLine
  · split
    · exact lineChangesWithin_ends (.refl p)
    · exact lineChangesWithin_handleFault hp

lemma lineChangesWithin_beginLine {token : Token} (hp : p.lastingPart.Holds P) :
    LineChangesWithin P K p (p.beginLine token) := by
  unfold beginLine
  dsimp only
  have hsettled : LastingChanges P K p { p with context := p.context.settleCursor } :=
    lastingChanges_of_context Context.lastingPart_settleCursor
  obtain ⟨q, hq⟩ : ∃ q, q = { p with context := p.context.settleCursor } := ⟨_, rfl⟩
  rw [← hq] at hsettled ⊢
  split
  · exact lineChangesWithin_ends hsettled
  · next line hline =>
    have htold : LastingChanges P K p
        (q.publish p.run (.lineExecuting p.context.settleCursor.cursor line.source)) :=
      hsettled.trans (lastingChanges_publish trivial)
    split
    · next source command =>
      refine .trans htold (lineChangesWithin_beginCommand (htold.holds hp) fun c hc => ?_)
      obtain ⟨script, hscript, hget⟩ := Option.bind_eq_some_iff.mp hline
      have hloaded : q.context.script = some script := by rw [hq]; exact hscript
      rw [hc] at hget
      exact (hsettled.holds hp).script script hloaded source c (List.mem_of_getElem? hget)
    · exact .trans htold lineChangesWithin_beginText

/-- A step of a line. -/
lemma lineChangesWithin_stepLine {line : LinePhase} (hp : p.lastingPart.Holds P)
    (hline : line.Sets P) :
    LineChangesWithin P K p (p.stepLine line) := by
  cases line with
  | flying j f =>
    simp only [stepLine]
    split
    · exact lineChangesWithin_land hp hline
    · exact lineChangesWithin_blocked
  | resting j until_ =>
    simp only [stepLine]
    split
    · exact lineChangesWithin_ends lastingChanges_leaveWaiting
    · split
      · exact lineChangesWithin_launch hline
      · exact lineChangesWithin_blocked
  | presenting w until_ verdict =>
    simp only [stepLine]
    split
    · exact lineChangesWithin_ends (.refl p)
    · split
      · exact lineChangesWithin_presented hp
      · exact lineChangesWithin_blocked
  | switching w caller script recovered => exact lineChangesWithin_switchScript hp

end Player

end Recital

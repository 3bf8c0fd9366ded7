import Recital.Proofs.Player.Gist

/-!
# Twins

Two players are twins if they stand at the same point of the same playback, but have got there in
different ways: one of them was paused on the way, say, or is stepped through.  Then the clock of
one shows some milliseconds more than that of the other.  Twins agree in their essence, which leaves
out what belongs to the way (the state and the locks, breakpoints, instants and records of them),
and in the story that their events tell, changes of state apart.

What a line does depends on little beside the essence (`Player.Setting`): a rollback restores
breakpoints, a command may ask whether it is stepped through, and the fault of a command whose time
was up tells how long it took by the stopwatch, which therefore has to run evenly.
-/

namespace Recital

/-! ### The story of a playback -/

/-- A report without the time that the playback took. -/
def Report.timeless (r : Report) : Report := { r with elapsed := .zero }

/-- A payload without the time that a playback took. -/
def Event.Payload.timeless : Event.Payload → Event.Payload
  | scriptCompleted script report => scriptCompleted script report.timeless
  | payload => payload

/-- What an event tells, unless it is a change of state: what happened in which run. -/
def Event.told? (e : Event) : Option (Event.Payload × Run) :=
  if e.kind = .stateChanged then none else some (e.payload.timeless, e.run)

/-- What the events of a bus tell. -/
def Bus.story (b : Bus) : List (Event.Payload × Run) := b.log.toList.filterMap Event.told?

/-! ### What commands can see -/

/-- The effect does not depend on whether the playback is stepped through. -/
def Effect.Blind : Effect → Prop
  | .observe _ look => ∀ v b, look { v with stepMode := b } = look v
  | _ => True

/-- The command does not ask whether the playback is stepped through. -/
structure Command.Blind (c : Command) : Prop where
  attempt : ∀ n v b, c.attempt n { v with stepMode := b } = c.attempt n v
  effects : ∀ n v, ∀ e ∈ (c.attempt n v).effects, e.Blind

/-- A line whose command does not ask. -/
def Line.Blind : Line → Prop
  | .command _ (some c) => c.Blind
  | _ => True

/-- A script whose commands do not ask. -/
def Script.Blind (s : Script) : Prop := ∀ line ∈ s.lines, line.Blind

/-- A host whose scripts have commands that do not ask. -/
def Host.LoadsBlind (h : Host) : Prop :=
  ∀ load, h.loader = some load → ∀ name script, load name = .ok script → script.Blind

/-- The stopwatch shows the same span for the same time, whenever it is read. -/
def Host.RunsEvenly (h : Host) : Prop :=
  ∀ a b, a ≤ b → ∀ t, h.stopwatch (b + t) - h.stopwatch (a + t) = h.stopwatch b - h.stopwatch a

/-! ### Essences -/

/-- The part of a context that does not depend on the way. -/
def Context.essence (c : Context) : Context :=
  { c with breakpoints := [], stepMode := false, startedAt := none, released := none }

/-- The part of a snapshot that does not depend on the way. -/
def Snapshot.essence (s : Snapshot) : Snapshot :=
  { s with breakpoints := [], savedAt := .ofMillis 0 }

/-- The part of a recovery that does not depend on the way. -/
def Recovery.essence (r : Recovery) : Recovery :=
  { r with checkpoint := r.checkpoint.map Snapshot.essence }

namespace Context

variable {c d : Context}

/-- What a context shows of the script and of what its playback is stopped by. -/
def scene (c : Context) : Option Script × Bool × List Nat := (c.script, c.stepMode, c.breakpoints)

lemma unrelease_eq (c : Context) (index : Nat) :
    c.unrelease index = { c with released := (c.unrelease index).released } := by
  unfold unrelease
  split <;> rfl

@[simp] lemma essence_lineFinished (index : Nat) : (c.lineFinished index).essence = c.essence := by
  unfold lineFinished
  rw [unrelease_eq]
  rfl

@[simp] lemma scene_lineFinished (index : Nat) : (c.lineFinished index).scene = c.scene := by
  unfold lineFinished
  rw [unrelease_eq]
  rfl

/-- Taking return addresses goes by the essence only. -/
lemma implicitReturn_spec (depth : Nat) (c : Context) :
    (implicitReturn depth c).essence = implicitReturn depth c.essence ∧
      (implicitReturn depth c).scene = c.scene := by
  induction depth generalizing c with
  | zero => exact ⟨rfl, rfl⟩
  | succ depth ih =>
    have hgo : c.essence.canContinue = c.canContinue := rfl
    unfold implicitReturn
    rw [hgo]
    split
    · exact ⟨rfl, rfl⟩
    · simp only [popFrame]
      cases hlast : c.frames.getLast? with
      | none =>
        have hessence : c.essence.frames.getLast? = none := hlast
        rw [hessence]
        exact ⟨rfl, rfl⟩
      | some frame =>
        have hessence : c.essence.frames.getLast? = some frame := hlast
        rw [hessence]
        exact ih ({ c with frames := c.frames.dropLast }.moveTo frame.returnLine)

lemma essence_settleCursor : c.settleCursor.essence = c.essence.settleCursor :=
  (implicitReturn_spec _ c).1

@[simp] lemma scene_settleCursor : c.settleCursor.scene = c.scene := (implicitReturn_spec _ c).2

/-- Resolving a flow action goes by the essence only. -/
lemma essence_resolve (flow : Flow) :
    c.essence.resolve flow = (c.resolve flow).map fun x => (x.1, x.2.essence) := by
  cases flow with
  | next | stop | call => rfl
  | toLine index =>
    simp only [resolve]
    have hcount : c.essence.lineCount = c.lineCount := rfl
    rw [hcount]
    split <;> rfl
  | toLabel label =>
    simp only [resolve]
    have hlabels : c.essence.labels = c.labels := rfl
    rw [hlabels]
    split <;> rfl
  | back =>
    simp only [resolve, popFrame]
    have hframes : c.essence.frames = c.frames := rfl
    rw [hframes]
    cases c.frames.getLast? <;> rfl

lemma scene_of_resolve {flow : Flow} {r : Resolution} (h : c.resolve flow = .ok (r, d)) :
    d.scene = c.scene := by
  cases flow with
  | next | stop | call =>
    cases h
    rfl
  | toLine index =>
    simp only [resolve] at h
    split at h
    · cases h
      rfl
    · cases h
  | toLabel label =>
    simp only [resolve] at h
    split at h
    · cases h
      rfl
    · cases h
  | back =>
    simp only [resolve, popFrame] at h
    cases hlast : c.frames.getLast? <;> rw [hlast] at h <;> cases h <;> rfl

end Context

/-- A plan without what belongs to the way. -/
def Plan.essence : Plan → Plan
  | rollback snapshot => rollback snapshot.essence
  | plan => plan

/-- Planning a recovery goes by the essence only. -/
lemma Recovery.essence_plan (r : Recovery) (fault : Fault) (policy : Policy) (spent limit : Nat) :
    r.essence.plan fault policy spent limit =
      ((r.plan fault policy spent limit).1.essence,
        (r.plan fault policy spent limit).2.essence) := by
  unfold plan
  split
  · rfl
  · next remedy _ =>
    have hplan : r.essence.planFor remedy spent limit = (r.planFor remedy spent limit).essence := by
      cases remedy with
      | skip | jump | stop => rfl
      | retry =>
        simp only [planFor]
        split <;> rfl
      | rollback =>
        have hcheckpoint : r.essence.checkpoint = r.checkpoint.map Snapshot.essence := rfl
        simp only [planFor, hcheckpoint]
        cases r.checkpoint with
        | none => rfl
        | some snapshot =>
          simp only [Option.map_some]
          split <;> rfl
    rw [hplan]
    rfl

/-- What a bus tells after an event was published. -/
lemma Bus.story_publish (b : Bus) (e : Event) :
    (b.publish e).story = if b.closed then b.story else b.story ++ e.told?.toList := by
  unfold Bus.publish
  split
  · rfl
  · simp only [Bus.story, Array.toList_push, List.filterMap_append]
    cases h : e.told? <;> simp [h]

namespace Player

/-- The part of a player that does not depend on the way. -/
def essence (p : Player) : Player :=
  { p with
    bus := { capacity := 0, closed := p.bus.closed }
    store := none
    cell := {}
    context := p.context.essence
    recovery := p.recovery.essence
    ledger := {}
    gate := {}
    lineLock := {}
    pauseRequested := false
    deferred := none
    now := 0
    readings := 0
    trace := #[]
    samples := #[] }

/-- What else lines depend on, and what keeps it as it should be. -/
structure Setting where
  /-- What the player is given. -/
  host : Host
  /-- The time by the clock that timers go by. -/
  now : Nat
  /-- The script that is loaded. -/
  script : Option Script
  /-- The playback is stepped through. -/
  stepMode : Bool
  /-- The lines before which the playback pauses. -/
  breakpoints : List Nat
  /-- The checkpoint. -/
  checkpoint : Option Snapshot

/-- The setting of a player. -/
def setting (p : Player) : Setting :=
  ⟨p.host, p.now, p.context.script, p.context.stepMode, p.context.breakpoints,
    p.recovery.checkpoint⟩

namespace Setting

/-- There are no breakpoints, and a rollback brings none back. -/
structure Clear (s : Setting) : Prop where
  breakpoints : s.breakpoints = []
  checkpoint : ∀ c, s.checkpoint = some c → c.breakpoints = []

/-- No command asks whether the playback is stepped through. -/
structure Blind (s : Setting) : Prop where
  script : ∀ script, s.script = some script → script.Blind
  loads : s.host.LoadsBlind

/-- The settings agree on whether the playback is stepped through, and neither has breakpoints. -/
structure Even (s t : Setting) : Prop where
  stepMode : t.stepMode = s.stepMode
  clear : s.Clear
  clear' : t.Clear

/-- It goes by the breakpoints, the checkpoints and the marks of single steps only. -/
lemma Even.of_eq {s t s' t' : Setting} (h : s.Even t) (hs : s'.stepMode = s.stepMode)
    (ht : t'.stepMode = t.stepMode) (hsmarks : s'.breakpoints = s.breakpoints)
    (htmarks : t'.breakpoints = t.breakpoints) (hscheckpoint : s'.checkpoint = s.checkpoint)
    (htcheckpoint : t'.checkpoint = t.checkpoint) : s'.Even t' where
  stepMode := by rw [hs, ht, h.stepMode]
  clear := ⟨hsmarks ▸ h.clear.breakpoints, hscheckpoint ▸ h.clear.checkpoint⟩
  clear' := ⟨htmarks ▸ h.clear'.breakpoints, htcheckpoint ▸ h.clear'.checkpoint⟩

/-- The settings of twins.  If the first is stepped through, breakpoints matter to neither as long
as the second is not stopped by one. -/
structure Twin (stepped : Bool) (k : Nat) (s t : Setting) : Prop where
  later : t.now = s.now + k
  evenly : s.host.RunsEvenly
  blind : stepped = true → s.Blind
  even : stepped = false → s.Even t

end Setting

/-- The second player is the twin of the first by a clock that shows `k` milliseconds more. -/
structure Twin (stepped : Bool) (k : Nat) (p q : Player) : Prop where
  essence : p.essence = q.essence
  story : p.bus.story = q.bus.story
  setting : p.setting.Twin stepped k q.setting

variable {stepped : Bool} {k : Nat} {p q p' q' : Player} {r : Run} {w : Work} {j : Job}

namespace Twin

lemma host_eq (h : Twin stepped k p q) : p.host = q.host :=
  (congrArg Player.host h.essence : p.essence.host = q.essence.host)

lemma run_eq (h : Twin stepped k p q) : p.run = q.run :=
  (congrArg Player.run h.essence : p.essence.run = q.essence.run)

lemma context_eq (h : Twin stepped k p q) : p.context.essence = q.context.essence :=
  congrArg Player.context h.essence

lemma tolerance_eq (h : Twin stepped k p q) : p.tolerance = q.tolerance := by
  unfold tolerance
  rw [h.host_eq]

lemma isCancelled_eq (h : Twin stepped k p q) (t : Token) : p.isCancelled t = q.isCancelled t :=
  (congrArg (·.isCancelled t) h.essence : p.essence.isCancelled t = q.essence.isCancelled t)

lemma closed_eq (h : Twin stepped k p q) : p.bus.closed = q.bus.closed :=
  (congrArg (·.bus.closed) h.essence : p.essence.bus.closed = q.essence.bus.closed)

lemma prompt_eq (h : Twin stepped k p q) : p.prompt = q.prompt :=
  (congrArg Player.prompt h.essence : p.essence.prompt = q.essence.prompt)

lemma later (h : Twin stepped k p q) : q.now = p.now + k := h.setting.later

/-! ### Events -/

/-- Twins publish events that tell the same. -/
lemma publish_of_timeless {e e' : Event.Payload} (h : Twin stepped k p q)
    (he : e.timeless = e'.timeless) (hkind : e.kind = e'.kind) :
    Twin stepped k (p.publish r e) (q.publish r e') where
  essence := by
    have hkept : ∀ (x : Player) (y : Event.Payload), (x.publish r y).essence = x.essence := by
      intro x y
      simp only [publish, Bus.publish]
      split <;> rfl
    rw [hkept, hkept, h.essence]
  story := by
    have htold : ∀ i i', Event.told? ⟨e, i, r⟩ = Event.told? ⟨e', i', r⟩ := by
      intro i i'
      by_cases hstate : e'.kind = .stateChanged <;>
        simp [Event.told?, Event.kind, he, hkind, hstate]
    simp only [publish, Bus.story_publish]
    rw [h.closed_eq, h.story, htold]
  setting := h.setting

lemma publish (h : Twin stepped k p q) (e : Event.Payload) :
    Twin stepped k (p.publish r e) (q.publish r e) :=
  h.publish_of_timeless rfl rfl

end Twin

/-! ### Changes that belong to the way -/

/-- The players differ in nothing but what belongs to the way. -/
structure Alike (p q : Player) : Prop where
  essence : q.essence = p.essence
  story : q.bus.story = p.bus.story
  setting : q.setting = p.setting

lemma Alike.refl (p : Player) : Alike p p := ⟨rfl, rfl, rfl⟩

lemma Alike.trans {r : Player} (hpq : Alike p q) (hqr : Alike q r) : Alike p r :=
  ⟨hqr.essence.trans hpq.essence, hqr.story.trans hpq.story, hqr.setting.trans hpq.setting⟩

/-- Twins stay twins while nothing but the way changes. -/
lemma Twin.of_alike (h : Twin stepped k p q) (hp : Alike p p') (hq : Alike q q') :
    Twin stepped k p' q' where
  essence := by rw [hp.essence, hq.essence, h.essence]
  story := by rw [hp.story, hq.story, h.story]
  setting := by
    rw [hp.setting, hq.setting]
    exact h.setting

/-- A change of state. -/
lemma alike_commit {change : Cell × State.Change} : Alike p (p.commit r change) where
  essence := by
    simp only [commit, Player.publish, Bus.publish]
    split <;> rfl
  story := by
    simp only [commit, Player.publish, Bus.story_publish]
    split <;> simp [Event.told?, Event.kind, Event.Payload.kind]
  setting := rfl

lemma alike_moveFrom {a b : State} : Alike p (p.moveFrom r a b).2 := by
  unfold moveFrom
  split
  · exact alike_commit
  · exact .refl p

lemma alike_moveIfAllowed {b : State} : Alike p (p.moveIfAllowed r b) := by
  unfold moveIfAllowed
  split
  · exact alike_commit
  · exact .refl p

lemma alike_leaveWaiting : Alike p (p.leaveWaiting j) := by
  unfold leaveWaiting
  split
  · exact alike_moveFrom
  · exact .refl p

lemma alike_applyPause : Alike p (p.applyPause r) := by
  unfold applyPause
  split
  · have hasked : Alike p { p with pauseRequested := false } := ⟨rfl, rfl, rfl⟩
    exact hasked.trans alike_moveFrom
  · exact .refl p

lemma alike_measureMemory : Alike p p.measureMemory := by
  unfold measureMemory
  split
  · dsimp only
    split <;> exact ⟨rfl, rfl, rfl⟩
  · exact .refl p

/-! ### Changes of the context -/

namespace Twin

/-- The contexts of twins change in the same way. -/
lemma withContext {c d : Context} (h : Twin stepped k p q) (hessence : c.essence = d.essence)
    (hc : c.scene = p.context.scene) (hd : d.scene = q.context.scene) :
    Twin stepped k { p with context := c } { q with context := d } where
  essence := congrArg₂ (fun (r : Player) e => { r with context := e }) h.essence hessence
  story := h.story
  setting := by
    have hset : ∀ (r : Player) (e : Context), e.scene = r.context.scene →
        { r with context := e }.setting = r.setting := by
      intro r e he
      simp only [Context.scene, Prod.mk.injEq] at he
      simp only [Player.setting, he]
    rw [hset p c hc, hset q d hd]
    exact h.setting

/-- A rollback to checkpoints that are the same in essence. -/
lemma restore {s t : Snapshot} (h : Twin stepped k p q) (hessence : s.essence = t.essence)
    (hs : p.recovery.checkpoint = some s) (ht : q.recovery.checkpoint = some t) :
    Twin stepped k { p with context := p.context.restore s }
      { q with context := q.context.restore t } where
  essence :=
    congrArg₂ (fun (r : Player) u => { r with context := (r.context.restore u).essence })
      h.essence hessence
  story := h.story
  setting := by
    have hclear : ∀ (r : Player) (u : Snapshot), r.setting.Clear → r.recovery.checkpoint = some u →
        { r with context := r.context.restore u }.setting.Clear := by
      intro r u hr hu
      refine ⟨?_, hr.checkpoint⟩
      have hmarks : { r with context := r.context.restore u }.setting.breakpoints =
          Context.marks u.breakpoints := rfl
      rw [hmarks, hr.checkpoint u hu]
      rfl
    exact
      { later := h.setting.later
        evenly := h.setting.evenly
        blind := fun hstepped => ⟨(h.setting.blind hstepped).script,
          (h.setting.blind hstepped).loads⟩
        even := fun hunstepped =>
          ⟨(h.setting.even hunstepped).stepMode, hclear p s (h.setting.even hunstepped).clear hs,
            hclear q t (h.setting.even hunstepped).clear' ht⟩ }

/-- The checkpoints of twins are the same in essence. -/
lemma setCheckpoint (h : Twin stepped k p q) :
    Twin stepped k p.setCheckpoint q.setCheckpoint := by
  have hsnapshot : ∀ (r : Player) (at_ : Instant), r.essence.context.snapshot? (.ofMillis 0) =
      (r.context.snapshot? at_).map Snapshot.essence := by
    intro r at_
    simp only [Context.snapshot?, Option.map_map]
    rfl
  have heq : (p.context.snapshot? (.ofMillis p.now)).map Snapshot.essence =
      (q.context.snapshot? (.ofMillis q.now)).map Snapshot.essence := by
    rw [← hsnapshot p, ← hsnapshot q, h.essence]
  have hclear : ∀ (r : Player) (u : Snapshot), r.setting.Clear →
      r.context.snapshot? (.ofMillis r.now) = some u →
      { r with recovery := r.recovery.setCheckpoint u }.setting.Clear := by
    intro r u hr hu
    refine ⟨hr.breakpoints, fun c hc => ?_⟩
    obtain ⟨script, -, hu⟩ := Option.map_eq_some_iff.mp hu
    cases hc
    rw [← hu]
    exact hr.breakpoints
  unfold Player.setCheckpoint
  split
  · next s hs =>
    split
    · next t ht =>
      rw [hs, ht] at heq
      refine ⟨?_, h.story, ?_⟩
      · exact congrArg₂ (fun (r : Player) u => { r with recovery := r.recovery.setCheckpoint u })
          h.essence (Option.some.inj heq)
      · exact
          { later := h.setting.later
            evenly := h.setting.evenly
            blind := fun hstepped =>
              ⟨(h.setting.blind hstepped).script, (h.setting.blind hstepped).loads⟩
            even := fun hunstepped =>
              ⟨(h.setting.even hunstepped).stepMode,
                hclear p s (h.setting.even hunstepped).clear hs,
                hclear q t (h.setting.even hunstepped).clear' ht⟩ }
    · next ht =>
      rw [hs, ht] at heq
      cases heq
  · next hs =>
    split
    · next t ht =>
      rw [hs, ht] at heq
      cases heq
    · exact h

end Twin

end Player

end Recital

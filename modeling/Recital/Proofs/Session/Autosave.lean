import Recital.Proofs.Session.Checkpoint
import Recital.Proofs.Session.SavedSnapshot

/-!
# Automatic saves

A playback that is always to be saved goes through three steps for each line that does not end it.
The line ends; there may be a delay; and when the delay is over, a snapshot is taken, which becomes
the checkpoint at once and is written to the store in the next step.  While it waits to be written,
the save is due (`Session.Due`).

A store in memory refuses nothing but keys.  The configuration is checked for an empty key only; as
long as the key has no other defect either (`Store.IsPlain`), what was due can be loaded afterwards.
This rests on three things that are true whatever is done beside (`Session.Stores`): a script is
loaded as long as a playback is in progress, the store is one in memory, and the variables are
normal.
-/

namespace Recital

/-- The snapshot shows where a playback stands. -/
structure Snapshot.Shows (x : Snapshot) (c : Context) : Prop where
  scriptName : c.scriptName? = some x.scriptName
  cursor : x.cursor = c.cursor
  frames : x.frames = c.frames
  vars : x.vars = c.vars
  breakpoints : x.breakpoints = c.breakpoints
  linesExecuted : x.linesExecuted = c.linesExecuted
  commandsExecuted : x.commandsExecuted = c.commandsExecuted

lemma Snapshot.shows_of_snapshot? {c : Context} {at_ : Instant} {x : Snapshot}
    (h : c.snapshot? at_ = some x) : x.Shows c := by
  obtain ⟨script, hscript, rfl⟩ := Option.map_eq_some_iff.mp h
  exact ⟨congrArg (Option.map Script.name) hscript, rfl, rfl, rfl, rfl, rfl, rfl⟩

/-! ### Keys -/

/-- The key has no separator, no leading dot and not the ending of temporary files. -/
structure Store.IsPlain (key : String) : Prop where
  whole : (key.toList.contains '/' || key.toList.contains '\\') = false
  shown : key.toList.head? ≠ some '.'
  lasting : isTemporary key = false

/-- A plain key is not refused if it is not empty. -/
lemma Store.IsPlain.keyRefusal?_eq {key : String} (h : IsPlain key) (hne : key ≠ "") :
    keyRefusal? key = none := by
  have hnil : key.toList.isEmpty = false := by
    rw [List.isEmpty_eq_false_iff]
    exact fun hnil => hne (String.toList_inj.mp hnil)
  unfold keyRefusal?
  dsimp only
  rw [hnil, h.whole, h.lasting, if_neg Bool.false_ne_true, if_neg Bool.false_ne_true,
    if_neg h.shown, if_neg Bool.false_ne_true]

/-- A configuration that is accepted has a key for automatic saves. -/
lemma Config.autosaveKey_ne_empty {c : Config} (h : c.defect? = none) :
    c.pacing.autosaveKey ≠ "" := by
  intro hempty
  have htrim : (Text.trim "").isEmpty = true := rfl
  unfold defect? at h
  rw [hempty, htrim, if_pos rfl] at h
  split at h
  · exact absurd h (Option.some_ne_none _)
  · exact absurd h (Option.some_ne_none _)

namespace Player

variable {p q : Player} {id : Nat} {play : Play} {f : Finish} {key : String} {x : Snapshot}
  {m : Store.Memory}

/-! ### Between two lines -/

/-- What a snapshot is made of, and where it goes, is the same as before. -/
structure Leaves (p q : Player) : Prop where
  context : q.context = p.context
  host : q.host = p.host
  store : q.store = p.store

namespace Leaves

lemma refl (p : Player) : Leaves p p := ⟨rfl, rfl, rfl⟩

lemma trans {r : Player} (hpq : Leaves p q) (hqr : Leaves q r) : Leaves p r :=
  ⟨hqr.context.trans hpq.context, hqr.host.trans hpq.host, hqr.store.trans hpq.store⟩

end Leaves

/-- Where nobody may write, the store stays as it is. -/
lemma LastingChanges.store_eq {P : Json → Prop} (h : LastingChanges P (fun _ => False) p q) :
    q.store = p.store := by
  have hstore : q.lastingPart.store = p.lastingPart.store := by
    unfold LastingChanges at h
    generalize q.lastingPart = c at h
    induction h with
    | refl => rfl
    | tail _ hchange ih =>
      cases hchange with
      | writes _ hkey => exact hkey.elim
      | _ => exact ih
  exact hstore

/-- A store in memory stays one. -/
lemma LastingChanges.exists_memory {P : Json → Prop} {K : String → Prop}
    (h : LastingChanges P K p q)
    (hp : ∃ m, p.store = some (.memory m)) : ∃ m, q.store = some (.memory m) := by
  have hstore : ∃ m, q.lastingPart.store = some (.memory m) := by
    unfold LastingChanges at h
    generalize q.lastingPart = c at h
    induction h with
    | refl => exact hp
    | tail _ hchange ih =>
      cases hchange with
      | @writes _ key x hstore =>
        obtain ⟨m, hm⟩ := ih
        obtain rfl := Option.some.inj (hstore.symm.trans hm)
        simp only [Store.save]
        split
        · exact ⟨_, rfl⟩
        · exact ⟨_, rfl⟩
      | _ => exact ih
  exact hstore

lemma leaves_finish : Leaves p (p.finish f).1 ∧ (p.finish f).1.recovery = p.recovery := by
  have hcore : (p.finish f).1.core = { p.core with token := none, gate := p.gate.release } :=
    core_finish
  have hwithin : ChangesWithin (fun _ => True) (fun _ => False) p (p.finish f) :=
    changesWithin_finish
  exact ⟨⟨(congrArg Player.context hcore).trans rfl, (congrArg Player.host hcore).trans rfl,
    hwithin.changes.store_eq⟩, (congrArg Player.recovery hcore).trans rfl⟩

/-- A playback that goes on between two lines leaves all of this alone, and the checkpoint. -/
lemma leaves_continuePlay (id : Nat) (play : Play) :
    Leaves p (p.continuePlay id play).1 ∧ (p.continuePlay id play).1.recovery = p.recovery := by
  have hrefl : ∀ next, Leaves p (p, next).1 ∧ (p, next).1.recovery = p.recovery :=
    fun _ : Progress => ⟨.refl p, rfl⟩
  unfold continuePlay
  split
  · exact hrefl _
  · unfold playOn
    split
    · next f _ =>
      obtain ⟨hleaves, hrecovery⟩ := leaves_finish (p := { p with deferred := none }) (f := f)
      exact ⟨⟨hleaves.context, hleaves.host, hleaves.store⟩, hrecovery⟩
    · split
      · exact leaves_finish
      · split
        · exact ⟨⟨rfl, rfl, rfl⟩, rfl⟩
        · exact ⟨⟨rfl, rfl, rfl⟩, rfl⟩
        · exact hrefl _
        · exact leaves_finish
        · exact leaves_finish

/-- Only the checkpoint changes when it is looked whether a save is due. -/
lemma leaves_autosave : Leaves p (p.autosave id play).1 := by
  unfold autosave
  split
  · exact ⟨rfl, rfl, rfl⟩
  · exact (leaves_continuePlay id play).1

lemma leaves_afterLine_next : Leaves p (p.afterLine id play .next).1 := by
  obtain ⟨q, hq⟩ : ∃ q, q = { p with lineLock := p.lineLock.release } := ⟨_, rfl⟩
  have hreleased : Leaves p q := by
    rw [hq]
    exact ⟨rfl, rfl, rfl⟩
  rw [afterLine_next hq]
  split
  · exact hreleased.trans leaves_autosave
  · exact hreleased

/-- Nothing keeps it from going on. -/
lemma continuePlay_ne_blocked : (p.continuePlay id play).2 ≠ .blocked := by
  unfold continuePlay
  split
  · exact Progress.noConfusion
  · unfold playOn
    split
    · exact Progress.noConfusion
    · split
      · exact Progress.noConfusion
      · split <;> exact Progress.noConfusion

/-! ### Snapshots that are due -/

/-- Snapshots go to a store in memory, at every occasion. -/
structure Saves (p : Player) : Prop where
  always : p.host.config.pacing.autosaveSecs = some 0
  store : ∃ m, p.store = some (.memory m)

lemma Saves.of_leaves (h : q.Saves) (hleaves : Leaves p q) : p.Saves :=
  ⟨hleaves.host ▸ h.always, hleaves.store ▸ h.store⟩

/-- A snapshot is taken, becomes the checkpoint and is about to be written. -/
lemma autosave_of_saves (h : p.Saves) (hloaded : p.context.script.isSome = true) (id : Nat)
    (play : Play) : ∃ next x, (p.autosave id play).2 = .goes (.autosaving next x) ∧
      next.token = play.token ∧ x.Shows p.context ∧
      (p.autosave id play).1.recovery.checkpoint = some x := by
  obtain ⟨m, hstore⟩ := h.store
  obtain ⟨script, hscript⟩ := Option.isSome_iff_exists.mp hloaded
  obtain ⟨x, hx⟩ : ∃ x, p.context.snapshot? (Instant.ofMillis p.now) = some x := by
    unfold Context.snapshot?
    rw [hscript]
    exact ⟨_, rfl⟩
  have hinterval : p.host.config.pacing.autosaveInterval = some (Span.ofSeconds 0) := by
    unfold Pacing.autosaveInterval
    rw [h.always]
    rfl
  have hdue : p.autosaveDue play = some x := by
    unfold autosaveDue
    rw [hinterval, hstore]
    dsimp only
    rw [if_pos (by exact Nat.zero_le _), hx]
  unfold autosave
  rw [hdue]
  exact ⟨_, x, rfl, rfl, Snapshot.shows_of_snapshot? hx, rfl⟩

/-- A snapshot that was written to a store in memory is read again. -/
lemma readSnapshot_of_write (hstore : p.store = some (.memory m))
    (hkey : Store.keyRefusal? key = none) (hx : x.IsCounted) (hnormal : x.Holds Json.IsNormal)
    (hq : q.store = (p.write key x).2.store) : q.readSnapshot key = .ok x := by
  have hcheck : Store.checkKey key = .ok () := Store.checkKey_eq_ok_iff.mpr hkey
  have hwritten : (p.write key x).2.store = some (.memory ⟨m.documents.insert key x.sorted⟩) := by
    unfold write
    rw [hstore]
    simp only [Store.save, Store.Memory.save, hcheck, bind, Except.bind,
      Snapshot.normalize_toJson hnormal]
    rfl
  have hload : Store.load (.memory ⟨m.documents.insert key x.sorted⟩) key =
      .ok (some x.sorted) := by
    simp only [Store.load, Store.Memory.load, hcheck, bind, Except.bind, Table.get?_insert]
    rfl
  unfold readSnapshot
  rw [hq, hwritten]
  simp only [hload, Snapshot.ofJson?_sorted hx hnormal]

/-- Unless the playback is cancelled, what was due can be read when it has been written. -/
lemma step_autosaving (hstore : p.store = some (.memory m))
    (hkey : Store.keyRefusal? p.host.config.pacing.autosaveKey = none)
    (hcancelled : p.isCancelled play.token = false) (hx : x.IsCounted)
    (hnormal : x.Holds Json.IsNormal) :
    (p.step id (.autosaving play x)).1.readSnapshot p.host.config.pacing.autosaveKey = .ok x ∧
      (p.step id (.autosaving play x)).1.context = p.context ∧
      (p.step id (.autosaving play x)).1.recovery = p.recovery ∧
      (p.step id (.autosaving play x)).2 ≠ .blocked := by
  obtain ⟨q, hq⟩ : ∃ q, q = (p.write p.host.config.pacing.autosaveKey x).2.measureMemory := ⟨_, rfl⟩
  have hstep : p.step id (.autosaving play x) = q.continuePlay id play := by
    simp only [step]
    rw [hcancelled, Bool.and_false, if_neg Bool.false_ne_true, hq]
  have hcore : q.core = p.core := by
    rw [hq]
    exact congrArg Gist.core ((gist_measureMemory _).trans (gist_write p))
  have hwritten : q.store = (p.write p.host.config.pacing.autosaveKey x).2.store := by
    rw [hq]
    exact congrArg LastingPart.store lastingPart_measureMemory
  obtain ⟨hleaves, hrecovery⟩ := leaves_continuePlay (p := q) id play
  rw [hstep]
  exact ⟨readSnapshot_of_write hstore hkey hx hnormal (hleaves.store.trans hwritten),
    hleaves.context.trans ((congrArg Player.context hcore).trans rfl),
    hrecovery.trans ((congrArg Player.recovery hcore).trans rfl), continuePlay_ne_blocked⟩

end Player

namespace Session

variable {s s' : Session} {a : Action} {t : Task} {host : Host} {id : Nat} {play : Play}
  {x : Snapshot} {q : Player}

/-- A playback has taken a snapshot of where it stands, which is the checkpoint and is to be
written. -/
structure Due (id : Nat) (play : Play) (x : Snapshot) (s : Session) : Prop where
  mem : ⟨id, .autosaving play x⟩ ∈ s.tasks
  shows : x.Shows s.player.context
  checkpoint : s.player.recovery.checkpoint = some x

/-- Snapshots with normal variables go to a store in memory, and a script is loaded as long as a
playback is in progress. -/
structure Stores (host : Host) (s : Session) : Prop where
  scriptLoaded : s.ScriptLoaded
  sets : s.Sets Json.IsNormal
  host : s.player.host = host
  store : ∃ m, s.player.store = some (.memory m)

/-- A request that looks whether a save is due finds that it is. -/
lemma Moved.due_of_autosave {y : Player × Progress} (hmoved : s.Moved s' t y)
    (hy : y = q.autosave t.id play) (hsaves : q.Saves) (hloaded : q.context.script.isSome = true) :
    ∃ next x, next.token = play.token ∧ s'.Due t.id next x := by
  obtain ⟨next, x, hgoes, hsame, hshows, hcheckpoint⟩ :=
    Player.autosave_of_saves hsaves hloaded t.id play
  rw [← hy] at hgoes hcheckpoint
  have hcontext : s'.player.context = q.context := by
    rw [hmoved.player, hy]
    exact Player.leaves_autosave.context
  exact ⟨next, x, hsame, hmoved.mem_next hgoes, hcontext ▸ hshows, hmoved.player ▸ hcheckpoint⟩

namespace Stores

lemma created {bus : Bus} {m : Store.Memory}
    (hloads : ∀ load name script, host.loader = some load → load name = .ok script →
      script.Sets Json.IsNormal) :
    Stores host { player := .create host bus (some (.memory m)) } where
  scriptLoaded := .created
  sets := .created hloads fun store _ => store.yields_normal
  host := rfl
  store := ⟨m, rfl⟩

/-- This is so whatever is done with normal values. -/
lemma does (h : s.Stores host) (ha : a.Sets Json.IsNormal) (hdoes : s.Does a s') :
    s'.Stores host := by
  obtain ⟨hchanges, hsets⟩ := hdoes.lastingChanges_of_sets h.sets ha
  exact ⟨h.scriptLoaded.does hdoes, hsets, hchanges.host.trans h.host,
    hchanges.exists_memory h.store⟩

lemma evolves (h : s.Stores host) (hs : s.Evolves (Action.Sets Json.IsNormal) s') :
    s'.Stores host := by
  induction hs with
  | refl => exact h
  | tail _ hmay ih =>
    obtain ⟨a, ha, hdoes⟩ := hmay
    exact ih.does ha hdoes

lemma saves (h : s.Stores host) (halways : host.config.pacing.autosaveSecs = some 0) :
    s.player.Saves :=
  ⟨h.host ▸ halways, h.store⟩

/-- A request in progress is the one with its number. -/
lemma moved (h : s.Stores host) (ht : t ∈ s.tasks) (hdoes : s.Does (.go t.id) s') :
    ∃ y, s.Moved s' t y := by
  obtain ⟨u, y, hid, hmoved⟩ := hdoes.moved
  obtain rfl := List.inj_on_of_nodup_map h.scriptLoaded.attentive.distinct hmoved.mem ht hid
  exact ⟨y, hmoved⟩

/-- After a line that does not end the playback, the delay is waited for, or a save is due. -/
lemma due_of_line (h : s.Stores host) (halways : host.config.pacing.autosaveSecs = some 0)
    (ht : t ∈ s.tasks) (hplayback : t.phase.isPlayback = true)
    (hexec : s.player.execution? t.id t.phase = some (q, .ends .next))
    (hdoes : s.Does (.go t.id) s') : s'.player.context = q.context ∧
      ∃ play, t.phase.token? = some play.token ∧
        ((∃ until_, ⟨t.id, .delaying play until_⟩ ∈ s'.tasks) ∨ ∃ x, s'.Due t.id play x) := by
  obtain ⟨y, hmoved⟩ := h.moved ht hdoes
  obtain ⟨play, htoken, hstep⟩ : ∃ play : Play, t.phase.token? = some play.token ∧
      s.player.step t.id t.phase = q.afterLine t.id play .next := by
    rcases Player.step_of_execution hexec with ⟨hside, -⟩ | ⟨-, play, htoken, hstep⟩
    · rw [Phase.isSide_of_isPlayback hplayback] at hside
      cases hside
    · exact ⟨play, htoken, hstep⟩
  have hnext : s'.Stores host := h.does (a := .go t.id) trivial hdoes
  have hplayer : s'.player = (q.afterLine t.id play .next).1 := by
    rw [hmoved.player, ← hmoved.step, hstep]
  have hleaves : Player.Leaves q s'.player := hplayer ▸ Player.leaves_afterLine_next
  refine ⟨hleaves.context, ?_⟩
  have hloaded : q.context.script.isSome = true := by
    have hgate : ¬ Player.Enters t.id s.player t.phase := fun henters => by
      cases htoken.symm.trans henters.unlined.2
    have hsome : t.phase.token?.isSome = true := by rw [htoken]; rfl
    have hscript := Player.loaded_step t.id (hmoved.step ▸ hmoved.ready) hgate
      (h.scriptLoaded.loaded t ht) (h.scriptLoaded.loaded t ht hsome)
    rw [hmoved.step, ← hmoved.player, hleaves.context] at hscript
    exact hscript
  have hsaves : q.Saves := .of_leaves (hnext.saves halways) hleaves
  obtain ⟨r, hr⟩ : ∃ r, r = { q with lineLock := q.lineLock.release } := ⟨_, rfl⟩
  have hy : y = q.afterLine t.id play .next := hmoved.step.symm.trans hstep
  rw [Player.afterLine_next hr] at hy
  by_cases hdelay : r.lineDelay = .zero
  · rw [if_pos hdelay] at hy
    have hrsaves : r.Saves := by
      rw [hr]
      exact ⟨hsaves.always, hsaves.store⟩
    have hrloaded : r.context.script.isSome = true := by
      rw [hr]
      exact hloaded
    obtain ⟨next, x, hsame, hdue⟩ := hmoved.due_of_autosave hy hrsaves hrloaded
    exact ⟨next, by rw [hsame]; exact htoken, .inr ⟨x, hdue⟩⟩
  · rw [if_neg hdelay] at hy
    exact ⟨play, htoken, .inl ⟨_, hmoved.mem_next (by rw [hy])⟩⟩

/-- After the delay a save is due. -/
lemma due_of_delay {until_ : Nat} (h : s.Stores host)
    (halways : host.config.pacing.autosaveSecs = some 0) (ht : t ∈ s.tasks)
    (hphase : t.phase = .delaying play until_)
    (hcancelled : s.player.isCancelled play.token = false)
    (hdoes : s.Does (.go t.id) s') : s'.player.context = s.player.context ∧
      ∃ next x, next.token = play.token ∧ s'.Due t.id next x := by
  obtain ⟨y, hmoved⟩ := h.moved ht hdoes
  have hloaded : s.player.context.script.isSome = true :=
    h.scriptLoaded.loaded t ht (by rw [hphase]; rfl)
  have hy : y = s.player.autosave t.id play := by
    have hstep := hmoved.step
    have hready := hmoved.ready
    rw [hphase] at hstep
    simp only [Player.step] at hstep
    rw [hcancelled, Bool.false_and, if_neg Bool.false_ne_true] at hstep
    split at hstep
    · exact hstep.symm
    · rw [← hstep] at hready
      exact absurd rfl hready
  obtain ⟨next, x, hsame, hdue⟩ := hmoved.due_of_autosave hy (h.saves halways) hloaded
  refine ⟨?_, next, x, hsame, hdue⟩
  rw [hmoved.player, hy]
  exact Player.leaves_autosave.context

/-- What is due is written, and can be loaded then. -/
lemma load_of_due (h : s.Stores host)
    (hkey : Store.keyRefusal? host.config.pacing.autosaveKey = none) (hdue : s.Due id play x)
    (hcancelled : s.player.isCancelled play.token = false) (hx : x.IsCounted) :
    (∃ s', s.Does (.go id) s') ∧ ∀ s', s.Does (.go id) s' →
      s'.player.readSnapshot host.config.pacing.autosaveKey = .ok x ∧ x.Shows s'.player.context ∧
        s'.player.recovery.checkpoint = some x := by
  obtain ⟨m, hstore⟩ := h.store
  have hnormal : x.Holds Json.IsNormal := h.sets.tasks _ hdue.mem
  rw [← h.host] at hkey ⊢
  obtain ⟨hread, hcontext, hrecovery, hready⟩ :=
    Player.step_autosaving hstore hkey hcancelled hx hnormal
  refine ⟨?_, fun s' hdoes => ?_⟩
  · obtain ⟨i, hi⟩ := List.mem_iff_getElem?.mp hdue.mem
    exact ⟨s.turn i, does_turn hi hready⟩
  · obtain ⟨y, hmoved⟩ := h.moved hdue.mem hdoes
    rw [hmoved.player, ← hmoved.step]
    exact ⟨hread, hcontext ▸ hdue.shows, hrecovery ▸ hdue.checkpoint⟩

end Stores

/-! ### Automatic saves that last -/

/-- Automatic saves last.  Play scripts that set variables to any values, with a player that keeps
its snapshots in memory, whose configuration was accepted and asks for a save at every occasion
under a key that is plain, and make any other requests and calls beside, in any order.  After a line
that does not end the playback a save is due, at once or when the delay is over, unless the playback
is cancelled: a snapshot of where the playback stands was taken and is the checkpoint.  Nothing
keeps the snapshot from being written in the next step, and then it is what loading the key gives,
while the playback still stands there. -/
theorem autosaves_are_durable {bus : Bus} {m : Store.Memory}
    (hloads : ∀ load name script, host.loader = some load → load name = .ok script →
      script.Sets Json.IsNormal)
    (haccepted : host.config.defect? = none) (halways : host.config.pacing.autosaveSecs = some 0)
    (hplain : Store.IsPlain host.config.pacing.autosaveKey)
    (hs : Evolves (Action.Sets Json.IsNormal) { player := .create host bus (some (.memory m)) } s)
    (ht : t ∈ s.tasks) :
    (∀ q s', t.phase.isPlayback = true → s.player.execution? t.id t.phase = some (q, .ends .next) →
      s.Does (.go t.id) s' → s'.player.context = q.context ∧
        ∃ play, t.phase.token? = some play.token ∧
          ((∃ until_, ⟨t.id, .delaying play until_⟩ ∈ s'.tasks) ∨ ∃ x, s'.Due t.id play x)) ∧
    (∀ play until_ s', t.phase = .delaying play until_ → s.player.isCancelled play.token = false →
      s.Does (.go t.id) s' → s'.player.context = s.player.context ∧
        ∃ next x, next.token = play.token ∧ s'.Due t.id next x) ∧
    (∀ play x, s.Due t.id play x → s.player.isCancelled play.token = false → x.IsCounted →
      (∃ s', s.Does (.go t.id) s') ∧ ∀ s', s.Does (.go t.id) s' →
        x.Shows s'.player.context ∧ s'.player.recovery.checkpoint = some x ∧
          ∀ n, s'.IsNew n →
            (s'.ask n (.loadSnapshot host.config.pacing.autosaveKey) 2).answer? n =
              some (.snapshot x)) := by
  have hstores : s.Stores host := (Stores.created hloads).evolves hs
  have hkey : Store.keyRefusal? host.config.pacing.autosaveKey = none :=
    hplain.keyRefusal?_eq (Config.autosaveKey_ne_empty haccepted)
  refine ⟨fun q s' hplayback hexec hdoes => hstores.due_of_line halways ht hplayback hexec hdoes,
    fun play until_ s' hphase hcancelled hdoes =>
      hstores.due_of_delay halways ht hphase hcancelled hdoes,
    fun play x hdue hcancelled hx => ?_⟩
  obtain ⟨hgoes, hloads⟩ := hstores.load_of_due hkey hdue hcancelled hx
  refine ⟨hgoes, fun s' hdoes => ?_⟩
  obtain ⟨hread, hshows, hcheckpoint⟩ := hloads s' hdoes
  exact ⟨hshows, hcheckpoint, fun n hnew => ask_loadSnapshot hnew hread⟩

/-! ### A cantata -/

/-- Two texts. -/
def cantata : Script := ⟨"cantata", [.text "one", .text "two"]⟩

/-- The configuration asks for a save at every occasion. -/
def kapelle : Host := { config := { pacing := { autosaveSecs := some 0 } } }

/-- Nothing has been played; what is saved is kept in memory. -/
def choir : Session := { player := .create kapelle { capacity := 16 } (some (.memory {})) }

/-- The first line of the cantata can be executed. -/
def intoned : Session := ((choir.submit 0 (.play cantata .beginning false)).turn 0).turn 0

lemma evolves_intoned : choir.Evolves (Action.Sets Json.IsNormal) intoned := by
  have hsets : cantata.Sets Json.IsNormal := fun source c hc => by simp [cantata] at hc
  have hplayed : choir.Evolves (Action.Sets Json.IsNormal)
      (choir.submit 0 (.play cantata .beginning false)) :=
    .single ⟨.submit 0 (.play cantata .beginning false), ⟨hsets, trivial⟩,
      .submit fun t ht => absurd ht List.not_mem_nil⟩
  exact (hplayed.turn (fun _ => trivial) 0).turn (fun _ => trivial) 0

/-- The only request goes on when its turn changes anything. -/
lemma does_turn_of_ne (htasks : s.tasks = [t]) (hne : s.turn 0 ≠ s) :
    s.Does (.go t.id) (s.turn 0) := by
  rcases s.turn_eq_or_does 0 with heq | ⟨u, hu, hdoes⟩
  · exact absurd heq hne
  · rw [htasks] at hu
    obtain rfl := List.mem_singleton.mp hu
    exact hdoes

/-- The first line is followed by a save, and what was saved stands before the second line. -/
theorem cantata_is_saved :
    choir.Evolves (Action.Sets Json.IsNormal) intoned ∧ (∃ play x, (intoned.turn 0).Due 0 play x) ∧
      ∃ x, x.cursor = 1 ∧ x.Shows ((intoned.turn 0).turn 0).player.context ∧
        ((intoned.turn 0).turn 0).player.recovery.checkpoint = some x ∧
        (((intoned.turn 0).turn 0).ask 1 (.loadSnapshot "autosave") 2).answer? 1 =
          some (.snapshot x) := by
  have hloads : ∀ load name script, kapelle.loader = some load → load name = .ok script →
      script.Sets Json.IsNormal := fun load name script hload => by cases hload
  have haccepted : kapelle.config.defect? = none := by decide +kernel
  have hplain : Store.IsPlain kapelle.config.pacing.autosaveKey := ⟨rfl, by decide, rfl⟩
  obtain ⟨play, q, hplaying, hexec⟩ : ∃ play q, intoned.tasks = [⟨0, .playLock play⟩] ∧
      intoned.player.execution? 0 (.playLock play) = some (q, .ends .next) := ⟨_, _, rfl, rfl⟩
  obtain ⟨play', x, htasks, hcursor, hcancelled⟩ : ∃ play x,
      (intoned.turn 0).tasks = [⟨0, .autosaving play x⟩] ∧ x.cursor = 1 ∧
        (intoned.turn 0).player.isCancelled play.token = false := ⟨_, _, rfl, rfl, rfl⟩
  have ht : ⟨0, .playLock play⟩ ∈ intoned.tasks := hplaying ▸ List.mem_singleton_self _
  have hdoes : intoned.Does (.go 0) (intoned.turn 0) := by
    refine does_turn_of_ne hplaying fun hsame => ?_
    rw [hsame, hplaying] at htasks
    cases htasks
  have hdue : (intoned.turn 0).Due 0 play' x := by
    obtain ⟨hline, -⟩ := autosaves_are_durable hloads haccepted rfl hplain evolves_intoned ht
    obtain ⟨-, play, -, ⟨until_, hwaits⟩ | ⟨y, hdue⟩⟩ := hline q _ rfl hexec hdoes
    · rw [htasks] at hwaits
      cases List.mem_singleton.mp hwaits
    · have hmem := hdue.mem
      rw [htasks] at hmem
      cases List.mem_singleton.mp hmem
      exact hdue
  have hevolves : choir.Evolves (Action.Sets Json.IsNormal) (intoned.turn 0) :=
    evolves_intoned.tail (a := .go 0) trivial hdoes
  have hcounted : x.IsCounted := by
    have htaken : (intoned.turn 0).player.recovery.checkpoint = some x := hdue.checkpoint
    cases htaken
    exact
      { cursor := by decide
        frames := fun f hf => absurd hf List.not_mem_nil
        breakpoints := fun n hn => absurd hn List.not_mem_nil
        linesExecuted := by decide
        commandsExecuted := by decide
        savedAt := ⟨rfl, .inl (by decide)⟩ }
  obtain ⟨-, -, hsave⟩ := autosaves_are_durable hloads haccepted rfl hplain hevolves hdue.mem
  obtain ⟨-, hload⟩ := hsave play' x hdue hcancelled hcounted
  have hwritten : (intoned.turn 0).Does (.go 0) ((intoned.turn 0).turn 0) :=
    does_turn_of_ne htasks fun hsame => by
      have hplays : ∃ play, ((intoned.turn 0).turn 0).tasks = [⟨0, .playLock play⟩] := ⟨_, rfl⟩
      obtain ⟨play, hplays⟩ := hplays
      rw [hsame, htasks] at hplays
      cases hplays
  obtain ⟨hshows, hcheckpoint, hfound⟩ := hload _ hwritten
  have hnew : ((intoned.turn 0).turn 0).IsNew 1 := by
    refine ⟨fun t ht => ?_, rfl⟩
    have hall : ((intoned.turn 0).turn 0).tasks.all (·.id != 1) = true := rfl
    simpa using List.all_eq_true.mp hall t ht
  exact ⟨evolves_intoned, ⟨play', x, hdue⟩, x, hcursor, hshows, hcheckpoint, hfound 1 hnew⟩

end Session

end Recital

import Recital.Proofs.Script.Values
import Recital.Proofs.Session.SavedFile

/-!
# Saved snapshots load back

A snapshot that was saved in a file is loaded in two steps, or restored in three: the request is
taken up, the file is read, and to restore the snapshot the line lock is needed.  A request on this
way (`Phase.Seeks`) finds what was saved as long as the file is kept, and so it is answered with the
snapshot, or the playback stands again where it stood when it was saved (`Context.Resumes`).

Two conditions are needed for this.  The file wraps the values of the variables into three more
levels of nesting, so they may not nest so deeply as what a command can set: at most
`Json.depthLimit - 3` levels.  And to be restored, the snapshot must be at a line of its script or
at the end, which is so as long as playbacks keep to their scripts (`Session.InPlace`).
-/

namespace Recital

/-- A playback stands where another one stood, with its variables, breakpoints and counters. -/
structure Context.Resumes (c d : Context) : Prop where
  cursor : c.cursor = d.cursor
  frames : c.frames = d.frames
  vars : c.vars = d.vars
  breakpoints : c.breakpoints = d.breakpoints
  linesExecuted : c.linesExecuted = d.linesExecuted
  commandsExecuted : c.commandsExecuted = d.commandsExecuted

/-- Restoring a snapshot leads to where it was taken. -/
lemma Context.resumes_restore {c d : Context} {at_ : Instant} {x : Snapshot}
    (hx : d.snapshot? at_ = some x) (hd : d.breakpoints.Pairwise (· < ·)) :
    (c.restore x).Resumes d := by
  obtain ⟨script, -, rfl⟩ := Option.map_eq_some_iff.mp hx
  exact ⟨rfl, rfl, rfl, marks_of_pairwise hd, rfl, rfl⟩

/-- The request loads the snapshot that was saved under the key, to be restored or not. -/
def Phase.Seeks (key : String) (x : Snapshot) (restoring : Bool) : Phase → Prop
  | .entering (.loadSnapshot k) => k = key ∧ restoring = false
  | .entering (.loadState k) => k = key ∧ restoring = true
  | .fetching k r => k = key ∧ r = restoring
  | .restoreLock y => y = x ∧ restoring = true
  | _ => False

namespace Player

variable {p q : Player} {id : Nat} {key : String} {x : Snapshot} {restoring : Bool}

/-- A snapshot that is in its file is read. -/
lemma readSnapshot_of_document? (h : p.lastingPart.document? key = some x.sorted)
    (hx : x.IsPortable) :
    p.readSnapshot key = .ok x := by
  obtain ⟨store, hstore, hdocument⟩ := Option.bind_eq_some_iff.mp h
  have hstore : p.store = some store := hstore
  unfold readSnapshot
  rw [hstore]
  simp only [Store.load_of_document? hdocument, Snapshot.ofJson?_sorted hx.toIsCounted hx.normal]

lemma isSome_store_of_readSnapshot (h : p.readSnapshot key = .ok x) : p.store.isSome = true := by
  unfold readSnapshot at h
  split at h
  · cases h
  · next hstore => rw [hstore]; rfl

lemma step_loadSnapshot (id : Nat) (h : p.readSnapshot key = .ok x) :
    p.step id (.entering (.loadSnapshot key)) = (p, .goes (.fetching key false)) := by
  have hstore := isSome_store_of_readSnapshot h
  change p.requestSnapshot key false = _
  unfold requestSnapshot
  rw [if_neg (by simp [Option.isNone_iff_eq_none, Option.isSome_iff_ne_none.mp hstore])]

/-- At a pause a request to restore a snapshot is taken up. -/
lemma step_loadState (id : Nat) (h : p.readSnapshot key = .ok x) (hpaused : p.state = .paused) :
    p.step id (.entering (.loadState key)) = (p, .goes (.fetching key true)) := by
  have hstore := isSome_store_of_readSnapshot h
  have haccept : p.step id (.entering (.loadState key)) = p.requestSnapshot key true :=
    if_neg (not_not.mpr hpaused)
  rw [haccept]
  unfold requestSnapshot
  rw [if_neg (by simp [Option.isNone_iff_eq_none, Option.isSome_iff_ne_none.mp hstore])]

lemma step_fetching (id : Nat) (h : p.readSnapshot key = .ok x) :
    p.step id (.fetching key restoring) =
      if restoring then p.requestLine id (.restoreLock x) else (p, .ends (.snapshot x)) := by
  change p.fetchSnapshot id key restoring = _
  unfold fetchSnapshot
  rw [h]

/-- Whoever has the line lock restores a snapshot of the loaded script. -/
lemma step_restoreLock (hheld : p.lineLock.isHeldBy id = true)
    (hname : p.context.scriptName? = some x.scriptName) (hcursor : x.cursor ≤ p.context.lineCount) :
    ∃ q, p.step id (.restoreLock x) = (q, .ends .done) ∧ q.context = p.context.restore x := by
  have hstep : p.step id (.restoreLock x) = p.restoreSnapshot x := if_pos hheld
  have hrestored : p.restoreSnapshot x =
      { p with
        context := p.context.restore x
        recovery := p.recovery.setCheckpoint x
        spent := {} }.publishProgress.unlock .done := by
    unfold restoreSnapshot
    rw [hname]
    dsimp only
    rw [if_neg (not_not.mpr rfl), if_neg (Nat.not_lt.mpr hcursor)]
  exact ⟨_, hstep.trans hrestored, rfl⟩

/-- A request that seeks a snapshot goes on to do so, or it has found the snapshot: it is answered
with it, or the playback, if it is paused and can be restored, is where the snapshot was taken. -/
lemma step_seeks {phase : Phase} (hread : p.readSnapshot key = .ok x)
    (hphase : phase.Seeks key x restoring)
    (hheld : phase = .restoreLock x → p.lineLock.isHeldBy id = true) :
    (∃ next, (p.step id phase).2 = .goes next ∧ next.Seeks key x restoring) ∨
      ∃ answer, (p.step id phase).2 = .ends answer ∧
        (restoring = false → answer = .snapshot x) ∧
        (restoring = true → p.state = .paused → p.context.scriptName? = some x.scriptName →
          x.cursor ≤ p.context.lineCount →
          answer = .done ∧ (p.step id phase).1.context = p.context.restore x) := by
  cases phase with
  | entering r =>
    cases r with
    | loadSnapshot k =>
      obtain ⟨rfl, rfl⟩ := hphase
      rw [step_loadSnapshot id hread]
      exact .inl ⟨_, rfl, rfl, rfl⟩
    | loadState k =>
      obtain ⟨rfl, rfl⟩ := hphase
      by_cases hpaused : p.state = .paused
      · rw [step_loadState id hread hpaused]
        exact .inl ⟨_, rfl, rfl, rfl⟩
      · have hrefused : p.step id (.entering (.loadState k)) =
            (p, .ends (.refused (.wrongState "load execution state" p.state))) := if_pos hpaused
        rw [hrefused]
        exact .inr ⟨_, rfl, Bool.noConfusion, fun _ h => absurd h hpaused⟩
    | _ => exact hphase.elim
  | fetching k r =>
    obtain ⟨rfl, rfl⟩ := hphase
    rw [step_fetching id hread]
    cases r with
    | false => exact .inr ⟨_, rfl, fun _ => rfl, Bool.noConfusion⟩
    | true => exact .inl ⟨_, rfl, rfl, rfl⟩
  | restoreLock y =>
    obtain ⟨rfl, rfl⟩ := hphase
    have hstep : p.step id (.restoreLock y) = p.restoreSnapshot y := if_pos (hheld rfl)
    have hends : ∃ answer, (p.step id (.restoreLock y)).2 = .ends answer := by
      rw [hstep]
      unfold restoreSnapshot
      split
      · exact ⟨_, rfl⟩
      · split
        · exact ⟨_, rfl⟩
        · split <;> exact ⟨_, rfl⟩
    obtain ⟨answer, hanswer⟩ := hends
    refine .inr ⟨answer, hanswer, Bool.noConfusion, fun _ _ hname hcursor => ?_⟩
    obtain ⟨q, hq, hcontext⟩ := step_restoreLock (hheld rfl) hname hcursor
    rw [hq] at hanswer ⊢
    cases hanswer
    exact ⟨rfl, hcontext⟩
  | _ => exact hphase.elim

end Player

namespace Session

variable {s s' : Session} {a : Action} {d : Store.Directory} {host : Host} {id n : Nat}
  {key : String} {x : Snapshot} {restoring : Bool}

/-- Identifiers are given in order. -/
lemma Evolves.serial_le {allowed : Action → Prop} (hs : s.Evolves allowed s') :
    s.player.serial ≤ s'.player.serial := by
  induction hs with
  | refl => exact Nat.le_refl _
  | tail _ hmay ih =>
    obtain ⟨a, -, hdoes⟩ := hmay
    exact Nat.le_trans ih hdoes.serial_le

/-! ### Requests on their way -/

/-- The request with the number seeks the snapshot that was saved under the key. -/
def Seeks (id : Nat) (key : String) (x : Snapshot) (restoring : Bool) (s : Session) : Prop :=
  s.answer? id = none ∧ ∃ phase, ⟨id, phase⟩ ∈ s.tasks ∧ phase.Seeks key x restoring

/-- It goes on to do so whatever is done, and finds the snapshot in its last step. -/
lemma Seeks.does (h : s.Seeks id key x restoring) (hread : s.player.readSnapshot key = .ok x)
    (hdistinct : s.Distinct) (hdoes : s.Does a s') :
    s'.Seeks id key x restoring ∨
      ∃ answer, s'.answer? id = some answer ∧ (restoring = false → answer = .snapshot x) ∧
        (restoring = true → s.player.state = .paused →
          s.player.context.scriptName? = some x.scriptName →
          x.cursor ≤ s.player.context.lineCount →
          answer = .done ∧ s'.player.context = s.player.context.restore x) := by
  obtain ⟨hnone, phase, hmem, hphase⟩ := h
  cases a with
  | submit =>
    cases hdoes
    exact .inl ⟨hnone, phase, List.mem_append_left _ hmem, hphase⟩
  | call | wait =>
    cases hdoes
    exact .inl ⟨hnone, phase, hmem, hphase⟩
  | go =>
    obtain ⟨t, y, -, hmoved⟩ := hdoes.moved
    by_cases hid : t.id = id
    · obtain rfl := List.inj_on_of_nodup_map hdistinct hmoved.mem hmem hid
      have hstep : s.player.step id phase = y := hmoved.step
      subst hstep
      rw [hmoved.player]
      have hheld : phase = .restoreLock x → s.player.lineLock.isHeldBy id = true := by
        rintro rfl
        by_contra hheld
        exact hmoved.ready (congrArg Prod.snd (if_neg hheld))
      rcases Player.step_seeks hread hphase hheld with
        ⟨next, hgoes, hseeks⟩ | ⟨answer, hends, hfinds⟩
      · exact .inl ⟨(hmoved.answer?_of_goes hgoes).trans hnone, next, hmoved.mem_next hgoes, hseeks⟩
      · exact .inr ⟨answer, hmoved.answer?_of_ends hends hnone, hfinds⟩
    · exact .inl ⟨(hmoved.answer?_of_ne hid).trans hnone, phase,
        hmoved.mem_of_ne hmem fun heq => hid (heq ▸ rfl), hphase⟩

/-- It can go on as soon as it has the line lock. -/
lemma Seeks.goes (h : s.Seeks id key x restoring) (hread : s.player.readSnapshot key = .ok x)
    (hheld : s.player.lineLock.isHeldBy id = true) : ∃ s', s.Does (.go id) s' := by
  obtain ⟨-, phase, hmem, hphase⟩ := h
  obtain ⟨i, hi⟩ := List.mem_iff_getElem?.mp hmem
  refine ⟨s.turn i, does_turn hi ?_⟩
  rcases Player.step_seeks hread hphase fun _ => hheld with ⟨_, hgoes, -⟩ | ⟨_, hends, -⟩
  · rw [hgoes]
    exact Progress.noConfusion
  · rw [hends]
    exact Progress.noConfusion

/-- What is kept can be read. -/
lemma Keeps.readSnapshot (h : s.Keeps n x) (hx : x.IsPortable) :
    s.player.readSnapshot (Snapshot.key n) = .ok x :=
  Player.readSnapshot_of_document? h.document hx

/-- As long as the snapshot is kept, a request that seeks it is on its way or has been answered, and
if the snapshot is not to be restored, the answer is the snapshot. -/
lemma Seeks.evolves (h : s.Seeks id (Snapshot.key n) x restoring) (hx : x.IsPortable)
    (hkeeps : s.Keeps n x) (harchives : s.Archives d host)
    (hautosave : host.config.pacing.autosaveKey ≠ Snapshot.key n)
    (hs : s.Evolves (Action.Sets Json.IsReadable) s') (hleft : s'.player.serial ≤ 32 ^ 26) :
    s'.Seeks id (Snapshot.key n) x restoring ∨
      ∃ answer, s'.answer? id = some answer ∧ (restoring = false → answer = .snapshot x) := by
  induction hs with
  | refl => exact .inl h
  | @tail u v hs hmay ih =>
    obtain ⟨a, ha, hdoes⟩ := hmay
    have hleft' : u.player.serial ≤ 32 ^ 26 := Nat.le_trans hdoes.serial_le hleft
    have hread : u.player.readSnapshot (Snapshot.key n) = .ok x :=
      (hkeeps.evolves harchives hautosave hs hleft').readSnapshot hx
    rcases ih hleft' with hseeks | ⟨answer, hanswer, hshows⟩
    · rcases hseeks.does hread (harchives.evolves hs).distinct hdoes with
        hseeks | ⟨answer, hanswer, hshows, -⟩
      · exact .inl hseeks
      · exact .inr ⟨answer, hanswer, hshows⟩
    · exact .inr ⟨answer, hdoes.answer?_of_some hanswer, hshows⟩

/-! ### Requests with nothing beside them -/

/-- No request has the number, neither in progress nor answered. -/
structure IsNew (s : Session) (n : Nat) : Prop where
  unused : ∀ t ∈ s.tasks, t.id ≠ n
  unanswered : s.answer? n = none

/-- A request is made and has a number of turns before anything else happens. -/
def ask (s : Session) (n : Nat) (r : Request) (turns : Nat) : Session :=
  (fun s' => s'.turn s.tasks.length)^[turns] (s.submit n r)

section Youngest

variable {p q : Player} {ts : List Task} {ended : Array Ending} {phase : Phase} {answer : Answer}

/-- The youngest request makes a step and waits for something else. -/
lemma turn_of_goes {next : Phase} (hstep : p.step n phase = (q, .goes next)) :
    turn { player := p, tasks := ts ++ [⟨n, phase⟩], ended } ts.length =
      { player := q, tasks := ts ++ [⟨n, next⟩], ended } := by
  unfold turn
  simp only [List.getElem?_concat_length, hstep, List.take_left']
  rw [List.drop_eq_nil_of_le (by simp)]

/-- The youngest request makes its last step. -/
lemma turn_of_ends (hstep : p.step n phase = (q, .ends answer)) :
    turn { player := p, tasks := ts ++ [⟨n, phase⟩], ended } ts.length =
      { player := q, tasks := ts, ended := ended.push ⟨n, q.now, answer⟩ } := by
  unfold turn
  simp only [List.getElem?_concat_length, hstep, List.take_left']
  rw [List.drop_eq_nil_of_le (by simp), List.append_nil]

/-- The first answer that is given to a number counts. -/
lemma answer?_push {us : List Task} {at_ : Nat}
    (h : answer? { player := p, tasks := ts, ended } n = none) :
    answer? { player := q, tasks := us, ended := ended.push ⟨n, at_, answer⟩ } n = some answer := by
  unfold answer? at h ⊢
  rw [Option.map_eq_none_iff] at h
  rw [Array.find?_push, h]
  simp

end Youngest

/-- A snapshot that can be read is shown. -/
lemma ask_loadSnapshot (hnew : s.IsNew n) (hread : s.player.readSnapshot key = .ok x) :
    (s.ask n (.loadSnapshot key) 2).answer? n = some (.snapshot x) := by
  have hstep : s.player.step n (.fetching key false) = (s.player, .ends (.snapshot x)) :=
    s.player.step_fetching n hread
  have hask : s.ask n (.loadSnapshot key) 2 =
      { s with ended := s.ended.push ⟨n, s.player.now, .snapshot x⟩ } := by
    change ((s.submit n (.loadSnapshot key)).turn s.tasks.length).turn s.tasks.length = _
    unfold submit
    rw [turn_of_goes (s.player.step_loadSnapshot n hread), turn_of_ends hstep]
  rw [hask]
  exact answer?_push hnew.unanswered

/-- A snapshot that can be read is restored at a pause in its script, when nobody holds the line
lock. -/
lemma ask_loadState (hnew : s.IsNew n) (hread : s.player.readSnapshot key = .ok x)
    (hpaused : s.player.state = .paused) (hfree : s.player.lineLock.isFree = true)
    (hname : s.player.context.scriptName? = some x.scriptName)
    (hcursor : x.cursor ≤ s.player.context.lineCount) :
    (s.ask n (.loadState key) 3).answer? n = some .done ∧
      (s.ask n (.loadState key) 3).player.context = s.player.context.restore x := by
  obtain ⟨p, hp⟩ : ∃ p, p = { s.player with lineLock := s.player.lineLock.request n } := ⟨_, rfl⟩
  have hstep : s.player.step n (.fetching key true) = (p, .goes (.restoreLock x)) := by
    rw [hp]
    exact s.player.step_fetching n hread
  have hheld : p.lineLock.isHeldBy n = true := by
    simp [hp, Lock.request, hfree, Lock.isHeldBy]
  have hsame : p.context = s.player.context := by rw [hp]
  rw [← hsame] at hname hcursor ⊢
  obtain ⟨q, hq, hcontext⟩ := Player.step_restoreLock hheld hname hcursor
  have hask : s.ask n (.loadState key) 3 =
      { player := q, tasks := s.tasks, ended := s.ended.push ⟨n, q.now, .done⟩ } := by
    change (((s.submit n (.loadState key)).turn s.tasks.length).turn s.tasks.length).turn
      s.tasks.length = _
    unfold submit
    rw [turn_of_goes (s.player.step_loadState n hread hpaused), turn_of_goes hstep, turn_of_ends hq]
  rw [hask]
  exact ⟨answer?_push hnew.unanswered, hcontext⟩

/-- Whoever asks for a snapshot that is kept is on the way to it from then on. -/
lemma Keeps.seeks {r : Request} (h : s.Keeps n x) (hx : x.IsPortable)
    (harchives : s.Archives d host)
    (hautosave : host.config.pacing.autosaveKey ≠ Snapshot.key n) (hnew : s.IsNew id)
    (hr : r.Sets Json.IsReadable)
    (hphase : (Phase.entering r).Seeks (Snapshot.key n) x restoring)
    (hs : (s.submit id r).Evolves (Action.Sets Json.IsReadable) s')
    (hleft : s'.player.serial ≤ 32 ^ 26) :
    s'.Distinct ∧ s'.Keeps n x ∧ (s'.Seeks id (Snapshot.key n) x restoring ∨
      ∃ answer, s'.answer? id = some answer ∧ (restoring = false → answer = .snapshot x)) := by
  have ha : (Action.submit id r).Sets Json.IsReadable := hr
  have hdoes : s.Does (.submit id r) (s.submit id r) := .submit hnew.unused
  have hsubmitted : (s.submit id r).Archives d host := harchives.does ha hdoes
  have hkept : (s.submit id r).Keeps n x :=
    h.does harchives ha hautosave hdoes (Nat.le_trans hs.serial_le hleft)
  have hopen : (s.submit id r).Seeks id (Snapshot.key n) x restoring :=
    ⟨hnew.unanswered, _, List.mem_append_right _ (List.mem_singleton_self _), hphase⟩
  exact ⟨(hsubmitted.evolves hs).distinct, hkept.evolves hsubmitted hautosave hs hleft,
    hopen.evolves hx hkept hsubmitted hautosave hs hleft⟩

/-! ### Snapshots that were saved -/

/-- Saved snapshots load back from disk.  Play scripts that set variables to values that can be
read, as all scripts of built-in commands do (`Parser.sets_of_parse`), with a player that keeps its
snapshots in a directory, and make any other requests and calls beside, in any order.  Let a request
to save be taken up when the variables nest at most so deeply that three more levels can be read,
and let it be answered with a key.  Whatever happens then, as long as identifiers last, a request to
load what is under the key is answered with the snapshot.  If the snapshot was taken at a line of
the script or at its end, a request to restore it that is made at a pause in the same script is
answered well, and the playback stands where it stood when it was saved; when lines are being
executed beside, this is so as soon as the request has the line lock. -/
theorem saved_snapshots_load_back {bus : Bus} {tree : FileTree} {t : Task} {s₁ s₂ : Session}
    (htree : tree.IsSound) (hloads : host.LoadsReadable)
    (hs : Evolves (Action.Sets Json.IsReadable)
      { player := .create host bus (some (.directory d tree)) } s)
    (ht : t ∈ s.tasks) (hphase : t.phase = .entering .save) (hnone : s.answer? t.id = none)
    (htaken : s.player.snapshot? = some x) (hcounted : x.IsCounted)
    (hshallow : ∀ e ∈ x.vars.entries, e.2.Fits (Json.depthLimit - 3))
    (hautosave : host.config.pacing.autosaveKey ≠ Snapshot.key s.player.serial)
    (hsave : s.Does (.go t.id) s₁) (hlater : s₁.Evolves (Action.Sets Json.IsReadable) s₂)
    (hleft : s₂.player.serial ≤ 32 ^ 26) (hsaved : s₂.answer? t.id = some (.key key)) :
    (∀ n, s₂.IsNew n →
      (s₂.ask n (.loadSnapshot key) 2).answer? n = some (.snapshot x) ∧
      ∀ s₃, (s₂.submit n (.loadSnapshot key)).Evolves (Action.Sets Json.IsReadable) s₃ →
        s₃.player.serial ≤ 32 ^ 26 →
        s₃.answer? n = none ∨ s₃.answer? n = some (.snapshot x)) ∧
    (s.player.context.cursor ≤ s.player.context.lineCount → ∀ n, s₂.IsNew n →
      (s₂.player.state = .paused → s₂.player.context.script = s.player.context.script →
        s₂.player.lineLock.isFree = true →
        (s₂.ask n (.loadState key) 3).answer? n = some .done ∧
          (s₂.ask n (.loadState key) 3).player.context.Resumes s.player.context) ∧
      ∀ s₃, (s₂.submit n (.loadState key)).Evolves (Action.Sets Json.IsReadable) s₃ →
        s₃.player.serial ≤ 32 ^ 26 → s₃.answer? n = none → s₃.player.state = .paused →
        s₃.player.context.script = s.player.context.script →
        (s₃.player.lineLock.isHeldBy n = true → ∃ s₄, s₃.Does (.go n) s₄) ∧
        ∀ s₄, s₃.Does (.go n) s₄ →
          s₄.answer? n = none ∨
            s₄.answer? n = some .done ∧ s₄.player.context.Resumes s.player.context) := by
  have harchives : s.Archives d host := (Archives.created htree hloads).evolves hs
  have harchives₁ : s₁.Archives d host := harchives.does (a := .go t.id) trivial hsave
  have harchives₂ : s₂.Archives d host := harchives₁.evolves hlater
  obtain ⟨script, hscript, hx⟩ := Option.map_eq_some_iff.mp htaken
  have hvars : x.vars = s.player.context.vars := by rw [← hx]
  have hportable : x.IsPortable :=
    ⟨hcounted, fun e he => ⟨(harchives.sets.player.vars e (hvars ▸ he)).normal, hshallow e he⟩⟩
  have hleft₁ : s₁.player.serial ≤ 32 ^ 26 := Nat.le_trans hlater.serial_le hleft
  have hsaving := (Saving.taken harchives ht hphase hnone htaken hsave hleft₁).evolves hportable
    harchives₁ hautosave hlater hleft
  obtain ⟨rfl, hkeeps⟩ : key = Snapshot.key s.player.serial ∧ s₂.Keeps s.player.serial x := by
    cases hsaving with
    | waits _ hnone => cases hnone.symm.trans hsaved
    | ended hanswer hkeeps => exact hkeeps key (Option.some.inj (hanswer.symm.trans hsaved))
  have hread : s₂.player.readSnapshot (Snapshot.key s.player.serial) = .ok x :=
    hkeeps.readSnapshot hportable
  refine ⟨fun n hnew => ⟨ask_loadSnapshot hnew hread, fun s₃ hs₃ hleft₃ => ?_⟩,
    fun hplace n hnew => ?_⟩
  · obtain ⟨-, -, hseeks | ⟨answer, hanswer, hshows⟩⟩ :=
      hkeeps.seeks (r := .loadSnapshot _) hportable
      harchives₂ hautosave hnew trivial ⟨rfl, rfl⟩ hs₃ hleft₃
    · exact .inl hseeks.1
    · exact .inr (hshows rfl ▸ hanswer)
  · have hresumes : ∀ c : Context, (c.restore x).Resumes s.player.context := fun c =>
      Context.resumes_restore htaken harchives.filed.breakpoints
    have hfits : ∀ c : Context, c.script = s.player.context.script →
        c.scriptName? = some x.scriptName ∧ x.cursor ≤ c.lineCount := fun c hc => by
      refine ⟨?_, ?_⟩
      · rw [Context.scriptName?, hc, hscript, ← hx]
        rfl
      · rw [Context.lineCount_of_script hc, ← hx]
        exact hplace
    refine ⟨fun hpaused hsame hfree => ?_, fun s₃ hs₃ hleft₃ hnone₃ hpaused hsame => ?_⟩
    · obtain ⟨hname, hcursor⟩ := hfits _ hsame
      obtain ⟨hanswer, hcontext⟩ := ask_loadState hnew hread hpaused hfree hname hcursor
      rw [hcontext]
      exact ⟨hanswer, hresumes _⟩
    · obtain ⟨hname, hcursor⟩ := hfits _ hsame
      obtain ⟨hdistinct₃, hkeeps₃, hseeks | ⟨answer, hanswer, -⟩⟩ :=
        hkeeps.seeks (r := .loadState _) hportable
        harchives₂ hautosave hnew trivial ⟨rfl, rfl⟩ hs₃ hleft₃
      · have hread₃ := hkeeps₃.readSnapshot hportable
        refine ⟨hseeks.goes hread₃, fun s₄ hdoes => ?_⟩
        rcases hseeks.does hread₃ hdistinct₃ hdoes with hseeks | ⟨answer, hanswer, -, hrestores⟩
        · exact .inl hseeks.1
        · obtain ⟨rfl, hcontext⟩ := hrestores rfl hpaused hname hcursor
          rw [hcontext]
          exact .inr ⟨hanswer, hresumes _⟩
      · cases hnone₃.symm.trans hanswer

/-! ### A ricercar -/

/-- A piece whose first line sets a variable. -/
def ricercar : Script :=
  ⟨"ricercar", [.command "@set voices 3" (some (.assign "voices" (.nat 3))), .text "one"]⟩

/-- Nothing has been played; what is saved goes to a directory that is yet to be made. -/
def library : Session :=
  { player := .create {} { capacity := 16 } (some (.directory ⟨["scores"]⟩ ⟨[]⟩)) }

/-- The first line of the piece has been played. -/
def performed : Session :=
  ((((library.submit 0 (.play ricercar .beginning false)).turn 0).turn 0).turn 0).turn 0

/-- The piece is paused. -/
def held : Session := turn { performed with player := performed.player.perform .pause } 0

/-- It is to be saved. -/
def copied : Session := held.submit 1 .save

/-- It has been saved. -/
def shelved : Session := (copied.turn 1).turn 1

/-- All variables have been removed since. -/
def bare : Session := { shelved with player := shelved.player.perform .unassignAll }

lemma evolves_copied : library.Evolves (Action.Sets Json.IsReadable) copied := by
  have hthree : (Json.nat 3).IsReadable := ⟨.num, .num (Json.isProper_nat (by decide))⟩
  have hsets : ricercar.Sets Json.IsReadable := by
    intro source c hc
    simp only [ricercar, List.mem_cons, List.not_mem_nil, or_false, Line.command.injEq,
      reduceCtorEq, Option.some.injEq] at hc
    rw [hc.2]
    exact Command.IsReadable.sets (c := .assign "voices" (.nat 3)) hthree
  have hplayed : library.Evolves (Action.Sets Json.IsReadable)
      (library.submit 0 (.play ricercar .beginning false)) :=
    .single ⟨.submit 0 (.play ricercar .beginning false), ⟨hsets, trivial⟩,
      .submit fun t ht => absurd ht List.not_mem_nil⟩
  have hperformed : library.Evolves (Action.Sets Json.IsReadable) performed :=
    (((hplayed.turn (fun _ => trivial) 0).turn (fun _ => trivial) 0).turn (fun _ => trivial) 0).turn
      (fun _ => trivial) 0
  have hheld : library.Evolves (Action.Sets Json.IsReadable) held :=
    (hperformed.tail (a := .call .pause) trivial .call).turn (fun _ => trivial) 0
  refine hheld.tail (a := .submit 1 .save) trivial (.submit fun t ht => ?_)
  have hall : held.tasks.all (·.id != 1) = true := rfl
  simpa using List.all_eq_true.mp hall t ht

/-- The piece loads back after its variables have been removed, and goes on with them. -/
theorem ricercar_is_recovered :
    library.Evolves (Action.Sets Json.IsReadable) copied ∧
      (copied.turn 1).Evolves (Action.Sets Json.IsReadable) bare ∧
      bare.answer? 1 = some (.key (Snapshot.key 2)) ∧ bare.player.context.vars = ∅ ∧
      ∃ x, copied.player.snapshot? = some x ∧ x.IsCounted ∧
        (bare.ask 2 (.loadSnapshot (Snapshot.key 2)) 2).answer? 2 = some (.snapshot x) ∧
        (bare.ask 2 (.loadState (Snapshot.key 2)) 3).answer? 2 = some .done ∧
        (bare.ask 2 (.loadState (Snapshot.key 2)) 3).player.context.Resumes
          copied.player.context := by
  have hlater : (copied.turn 1).Evolves (Action.Sets Json.IsReadable) bare :=
    (Evolves.turn .refl (fun _ => trivial) 1).tail (a := .call .unassignAll) trivial .call
  obtain ⟨x, hx⟩ : ∃ x, copied.player.snapshot? = some x := ⟨_, rfl⟩
  have hvars : copied.player.context.vars.entries = [("voices", .nat 3)] := rfl
  have hcounted : x.IsCounted := by
    cases hx
    exact
      { cursor := by decide
        frames := fun f hf => absurd hf List.not_mem_nil
        breakpoints := fun n hn => absurd hn List.not_mem_nil
        linesExecuted := by decide
        commandsExecuted := by decide
        savedAt := ⟨rfl, .inl (by decide)⟩ }
  have hshallow : ∀ e ∈ x.vars.entries, e.2.Fits (Json.depthLimit - 3) := by
    cases hx
    intro e he
    obtain rfl := List.mem_singleton.mp (hvars ▸ he)
    exact .num (Json.isProper_nat (by decide))
  have hdoes : copied.Does (.go 1) (copied.turn 1) :=
    does_turn (t := ⟨1, .entering .save⟩) rfl Progress.noConfusion
  have htree : FileTree.IsSound ⟨[]⟩ := by
    refine ⟨List.nodup_nil, fun l name hentry => ?_⟩
    rw [FileTree.entry?_of_ne_nil (by simp)] at hentry
    exact absurd rfl hentry
  have hnew : bare.IsNew 2 := by
    refine ⟨fun t ht => ?_, rfl⟩
    have hall : bare.tasks.all (·.id != 2) = true := rfl
    simpa using List.all_eq_true.mp hall t ht
  have hloads : Host.LoadsReadable {} := fun load name script hload => by cases hload
  have hmem : ⟨1, .entering .save⟩ ∈ copied.tasks := List.mem_append_right _ (.head _)
  have hautosave : "autosave" ≠ Snapshot.key copied.player.serial := by
    intro heq
    have hfirst := congrArg (fun name : String => name.toList.head?) heq
    simp only [Snapshot.key, String.toList_append] at hfirst
    cases hfirst
  have hserial : bare.player.serial = 3 := rfl
  have hsaved : bare.answer? 1 = some (.key (Snapshot.key 2)) := rfl
  have hback :=
    saved_snapshots_load_back (t := ⟨1, .entering .save⟩) htree hloads evolves_copied hmem
    rfl rfl hx hcounted hshallow hautosave hdoes hlater (by omega) hsaved
  obtain ⟨hdone, hresumes⟩ := (hback.2 (by decide) 2 hnew).1 rfl rfl rfl
  exact ⟨evolves_copied, hlater, hsaved, rfl, x, hx, hcounted, (hback.1 2 hnew).1, hdone, hresumes⟩

end Session

end Recital

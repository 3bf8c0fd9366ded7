import Recital.Proofs.Place.Request
import Recital.Proofs.Session.Interleaving

/-!
# Every playback keeps to its script

A session is reached from a new player by any sequence of requests, calls and steps.  The scripts
are those of built-in commands, and a snapshot is restored only if it stands where one stood that
was taken of the same script: `Session.Reached` keeps account of the snapshots that were taken, each
with the script that was loaded then.

A line, and a save under a new key, is seen through before another request goes on.  Under this
condition the place of the playback always belongs to the loaded script, and so does the checkpoint
while the playback is playing, paused or waiting.  Hence no snapshot that was taken is refused when
it is to be restored.  Only while a playback is loading the checkpoint may be that of the playback
before it (`Session.changeover_keeps_checkpoint`); another one takes its place before the first
line.
-/

namespace Recital

/-- A snapshot at the place of one that was taken of the script. -/
def Snapshot.IsTaken (taken : List (Script × Snapshot)) (script : Script) (s : Snapshot) : Prop :=
  ∃ t, (script, t) ∈ taken ∧
    s.scriptName = t.scriptName ∧ s.cursor = t.cursor ∧ s.frames = t.frames

namespace Session

variable {s s' : Session} {taken : List (Script × Snapshot)} {a : Action}

/-- The action concerns scripts of built-in commands and snapshots that were taken of them, and
comes between no two steps of a line. -/
def Admits (s : Session) (taken : List (Script × Snapshot)) : Action → Prop
  | .submit _ (.play script start _) =>
    script.IsBuiltin ∧ ∀ snapshot, start = .snapshot snapshot → snapshot.IsTaken taken script
  | .go id =>
    (∀ t ∈ s.tasks, t.id ≠ id → t.phase.isBusy = false) ∧
    ∀ t ∈ s.tasks, t.id = id → ∀ snapshot script, t.phase = .restoreLock snapshot →
      s.player.context.script = some script → snapshot.scriptName = script.name →
      snapshot.IsTaken taken script
  | _ => True

/-- The sessions that can be reached, with the snapshots that were taken on the way. -/
inductive Reached : Session → List (Script × Snapshot) → Prop
  | created {host : Host} {bus : Bus} {store : Option Store} (hloads : host.LoadsBuiltin) :
    Reached { player := .create host bus store } []
  | does {s s' : Session} {taken : List (Script × Snapshot)} {a : Action}
    (hs : Reached s taken) (hadmits : s.Admits taken a) (hdoes : s.Does a s') : Reached s' taken
  /-- A snapshot is taken. -/
  | takes {s : Session} {taken : List (Script × Snapshot)} {script : Script} {snapshot : Snapshot}
    (hs : Reached s taken) (hscript : s.player.context.script = some script)
    (hsnapshot : s.player.snapshot? = some snapshot) : Reached s ((script, snapshot) :: taken)

/-- The playback keeps to its script. -/
structure InPlace (s : Session) (taken : List (Script × Snapshot)) : Prop where
  distinct : s.Distinct
  consistent : s.player.IsConsistent
  fits : ∀ t ∈ s.tasks, t.phase.Fits s.player
  taken : ∀ script snapshot, (script, snapshot) ∈ taken → snapshot.Fits { script := some script }

end Session

/-- What stands where a snapshot stood that was taken of a script fits the script. -/
lemma Snapshot.IsTaken.fits {taken : List (Script × Snapshot)} {script : Script} {s : Snapshot}
    (hs : s.IsTaken taken script)
    (htaken : ∀ script snapshot, (script, snapshot) ∈ taken →
      snapshot.Fits { script := some script }) : s.Fits { script := some script } := by
  obtain ⟨t, hmem, hname, hcursor, hframes⟩ := hs
  have hfits := htaken script t hmem
  refine ⟨?_, ?_, ?_⟩
  · rw [hname]
    exact hfits.name
  · rw [hcursor]
    exact hfits.cursor_le
  · rw [hframes]
    exact hfits.isReturn

/-- Only a line and a save depend on the player that they are to go on with. -/
lemma Phase.Fits.of_not_busy {p q : Player} {phase : Phase} (h : phase.Fits p)
    (hbusy : phase.isBusy = false) : phase.Fits q := by
  cases phase with
  | playing | stepping | storing => cases hbusy
  | entering | playGate => exact h
  | _ => trivial

/-- A phase still fits a player that has stayed in place. -/
lemma Phase.Fits.of_stays {p q : Player} {phase : Phase} (h : phase.Fits p)
    (hpq : Player.Stays p q) : phase.Fits q := by
  have hbare : q.context.bare = p.context.bare := congrArg Player.Place.context hpq.place
  have hline : ∀ line : LinePhase, line.Fits p.context → line.Fits q.context := by
    intro line hfits
    cases line with
    | flying | resting => exact Job.IsAt.of_bare hfits hbare
    | presenting | switching => exact Work.IsAt.of_bare hfits hbare
  cases phase with
  | playing play line => exact ⟨h.1.of_place hpq.place, hline line h.2⟩
  | stepping line => exact ⟨h.1.of_place hpq.place, hline line h.2⟩
  | storing key s => exact Snapshot.Fits.of_script (Context.script_of_bare hbare) h
  | entering | playGate => exact h
  | _ => trivial

/-- Calls leave a player in place. -/
lemma Player.stays_perform (p : Player) (c : Call) : Player.Stays p (p.perform c) := by
  cases c with
  | pause =>
    simp only [perform, pause]
    split
    · exact .refl p
    · have hmoved : Stays p (p.moveFrom p.run .playing .paused).2 := stays_moveFrom fun _ => rfl
      exact hmoved.trans ⟨rfl, fun h => h⟩
    · exact ⟨rfl, fun h => h⟩
    · exact .refl p
  | resume =>
    have htaken : Stays p { p with pauseRequested := false } := ⟨rfl, fun h => h⟩
    simp only [perform, resume]
    split
    · exact htaken.trans (stays_moveFrom fun _ => rfl)
    · exact htaken
    · exact htaken
    · exact htaken
  | stop => exact stays_stop
  | cancel => exact ⟨rfl, fun h => h⟩
  | setSpeed speed =>
    simp only [perform, setSpeed]
    split
    · exact ⟨rfl, fun h => h⟩
    · exact .refl p
  | addBreakpoint index => exact ⟨rfl, fun h => h⟩
  | removeBreakpoint index =>
    have hbare : (p.context.removeBreakpoint index).bare = p.context.bare :=
      Context.bare_removeBreakpoint
    exact ⟨congrArg (Place.mk p.host · p.recovery.checkpoint) hbare, fun h => h⟩
  | clearBreakpoints => exact ⟨rfl, fun h => h⟩
  | assign name value => exact ⟨rfl, fun h => h⟩
  | unassignAll =>
    have hgist := gist_clearVariables p p.run
    have hplace : (p.clearVariables p.run).place =
        { p with context := p.context.clearVariables }.place := place_of_gist hgist
    have hstate : (p.clearVariables p.run).state = p.state := congrArg Gist.state hgist
    refine ⟨hplace, fun h => ?_⟩
    rwa [perform, unassignAll, hstate] at h

namespace Session

variable {s s' : Session} {taken : List (Script × Snapshot)} {a : Action}

/-- A new session has nothing to keep to. -/
lemma inPlace_created {host : Host} {bus : Bus} {store : Option Store}
    (hloads : host.LoadsBuiltin) : InPlace { player := .create host bus store } [] := by
  have hsound : (Player.create host bus store).IsSound := by
    refine ⟨⟨Nat.zero_le _, fun f hf => absurd hf List.not_mem_nil, fun name index hget => ?_⟩,
      fun script hscript => ?_, hloads⟩
    · cases hget
    · cases hscript
  have hsafe : (Player.create host bus store).IsSafe := ⟨hsound, fun s hs => by cases hs⟩
  exact ⟨List.nodup_nil, hsafe.consistent, fun t ht => absurd ht List.not_mem_nil,
    fun script snapshot hmem => absurd hmem List.not_mem_nil⟩

/-- A session whose player has stayed in place. -/
lemma InPlace.of_stays {q : Player} (hs : s.InPlace taken) (hq : Player.Stays s.player q) :
    InPlace { s with player := q } taken :=
  ⟨hs.distinct, hs.consistent.of_stays hq, fun t ht => (hs.fits t ht).of_stays hq, hs.taken⟩

/-- The step of a request that is admitted keeps to the script. -/
lemma InPlace.keepsOrder {t : Task} (hs : s.InPlace taken) (ht : t ∈ s.tasks)
    (hadmits : s.Admits taken (.go t.id)) : Player.KeepsOrder (s.player.step t.id t.phase) := by
  refine Player.keepsOrder_step hs.consistent (hs.fits t ht) fun snapshot hphase hname => ?_
  obtain ⟨script, hscript, hscriptName⟩ := Option.map_eq_some_iff.mp hname
  have htaken : snapshot.IsTaken taken script :=
    hadmits.2 t ht rfl snapshot script hphase hscript hscriptName.symm
  exact (htaken.fits hs.taken).of_script hscript

/-- While a request goes on, the others wait for nothing that depends on the place. -/
lemma InPlace.fits_others {t : Task} {left right : List Task} {q : Player} (hs : s.InPlace taken)
    (htasks : s.tasks = left ++ t :: right) (hadmits : s.Admits taken (.go t.id)) :
    ∀ u ∈ left ++ right, u.phase.Fits q := by
  intro u hu
  have hmem : u ∈ s.tasks := by
    rw [htasks]
    rcases List.mem_append.mp hu with hu | hu
    · exact List.mem_append_left _ hu
    · exact List.mem_append_right _ (List.mem_cons_of_mem _ hu)
  exact (hs.fits u hmem).of_not_busy (hadmits.1 u hmem (hs.distinct.ne htasks hu))

/-- Whatever is admitted keeps to the script. -/
lemma InPlace.does (hs : s.InPlace taken) (hadmits : s.Admits taken a) (h : s.Does a s') :
    s'.InPlace taken := by
  have hdistinct := h.distinct hs.distinct
  cases h with
  | @submit id request hnew =>
    refine ⟨hdistinct, hs.consistent, fun t ht => ?_, hs.taken⟩
    rcases List.mem_append.mp ht with hold | hnew
    · exact hs.fits t hold
    · rw [List.mem_singleton.mp hnew]
      cases request with
      | play script start bound =>
        refine ⟨hadmits.1, ?_⟩
        cases start with
        | snapshot snapshot => exact fun _ => (hadmits.2 snapshot rfl).fits hs.taken
        | beginning | line => trivial
      | _ => trivial
  | @call c => exact hs.of_stays (s.player.stays_perform c)
  | @goes t left right q phase htasks hstep =>
    have ht : t ∈ s.tasks := by rw [htasks]; simp
    have horder := hs.keepsOrder ht hadmits
    rw [hstep] at horder
    have hothers := hs.fits_others (q := q) htasks hadmits
    refine ⟨hdistinct, horder.consistent, fun u hu => ?_, hs.taken⟩
    rcases List.mem_append.mp hu with hleft | hright
    · exact hothers u (List.mem_append_left _ hleft)
    · rcases List.mem_cons.mp hright with hu | hright
      · rw [hu]
        exact horder.fits phase rfl
      · exact hothers u (List.mem_append_right _ hright)
  | @ends t left right q answer htasks hstep =>
    have ht : t ∈ s.tasks := by rw [htasks]; simp
    have horder := hs.keepsOrder ht hadmits
    rw [hstep] at horder
    exact ⟨hdistinct, horder.consistent, hs.fits_others htasks hadmits, hs.taken⟩
  | wait => exact hs.of_stays ⟨rfl, fun h => h⟩

/-- Every session that can be reached keeps to its scripts. -/
lemma Reached.inPlace (h : s.Reached taken) : s.InPlace taken := by
  induction h with
  | created hloads => exact inPlace_created hloads
  | does _ hadmits hdoes ih => exact ih.does hadmits hdoes
  | @takes s taken script snapshot _ hscript hsnapshot ih =>
    refine ⟨ih.distinct, ih.consistent, ih.fits, fun other t hmem => ?_⟩
    rcases List.mem_cons.mp hmem with hnew | hold
    · obtain ⟨rfl, rfl⟩ := Prod.mk.inj hnew
      exact (ih.consistent.context.fits hsnapshot).of_script hscript.symm
    · exact ih.taken other t hold

/-- The place of a playback always belongs to the loaded script: the cursor is on a line or at the
end, each return address follows a subroutine call, and each label leads to a line that carries it.
While the playback is playing, paused or waiting, the same goes for the checkpoint.  A snapshot that
was taken of a script is not refused when the script is to be played from it, nor when it is to be
restored in a playback of the script. -/
theorem place_belongs_to_script (h : s.Reached taken) :
    s.player.context.IsSound ∧
      (s.player.state.isUnderway = true →
        ∀ c, s.player.recovery.checkpoint = some c → c.Fits s.player.context) ∧
      ∀ script snapshot, (script, snapshot) ∈ taken →
        Player.startRefusal? script (.snapshot snapshot) = none ∧
        (s.player.context.script = some script →
          (s.player.restoreSnapshot snapshot).2 = .ends .done) := by
  have hplace := h.inPlace
  refine ⟨hplace.consistent.context, fun hstate => hplace.consistent.fits (.inl hstate), ?_⟩
  intro script snapshot hmem
  have hfits := hplace.taken script snapshot hmem
  have hname : script.name = snapshot.scriptName := Option.some.inj hfits.name
  have hcursor : snapshot.cursor ≤ script.size := hfits.cursor_le
  refine ⟨?_, fun hscript => ?_⟩
  · simp only [Player.startRefusal?]
    rw [if_neg (not_not.mpr hname.symm), if_neg (Nat.not_lt.mpr hcursor)]
  · have hloaded : s.player.context.scriptName? = some script.name := by
      rw [Context.scriptName?, hscript]
      rfl
    have hcount : s.player.context.lineCount = script.size := by
      rw [Context.lineCount, hscript]
      rfl
    unfold Player.restoreSnapshot
    rw [hloaded]
    dsimp only
    rw [if_neg (not_not.mpr hname), hcount, if_neg (Nat.not_lt.mpr hcursor)]
    rfl

/-! ### A subroutine at the end of a script -/

/-- A call of a subroutine, which is the last line. -/
def lullaby : Script :=
  ⟨"lullaby", [.command "@gosub #hush" (some (.gosub "hush")), .text "#hush"]⟩

/-- The lullaby is to be played. -/
def nursery : Session :=
  submit { player := .create {} { capacity := 16 } none } 0 (.play lullaby .beginning false)

/-- A request may go on if none of them restores a snapshot and the others are not busy. -/
lemma Reached.turn (h : s.Reached taken) (n : Nat)
    (hidle : s.tasks.all (fun t => s.tasks.all fun u => u.id == t.id || !u.phase.isBusy) = true)
    (hphase : s.tasks.all (fun t => !t.phase matches .restoreLock _) = true) :
    (s.turn n).Reached taken := by
  rcases s.turn_eq_or_does n with heq | ⟨t, ht, hdoes⟩
  · rw [heq]
    exact h
  · have hadmits : s.Admits taken (.go t.id) := by
      refine ⟨fun u hu hne => ?_, fun u hu _ snapshot script hrestore => ?_⟩
      · have hother := List.all_eq_true.mp (List.all_eq_true.mp hidle t ht) u hu
        simpa [hne] using hother
      · have hother := List.all_eq_true.mp hphase u hu
        rw [hrestore] at hother
        cases hother
    exact h.does hadmits hdoes

/-- In the subroutine the cursor is on its label, and a snapshot that is taken there can be
restored. -/
theorem lullaby_in_subroutine :
    let s := (((nursery.turn 0).turn 0).turn 0).turn 0
    s.player.context.cursor = 1 ∧ s.player.context.frames = [⟨1⟩] ∧
      s.player.context.IsSound ∧
      ∀ snapshot, s.player.snapshot? = some snapshot →
        Player.startRefusal? lullaby (.snapshot snapshot) = none ∧
        (s.player.restoreSnapshot snapshot).2 = .ends .done := by
  have hbuiltin : lullaby.IsBuiltin := by
    intro line hline
    simp only [lullaby, List.mem_cons, List.not_mem_nil, or_false] at hline
    rcases hline with rfl | rfl
    · simp [Line.IsBuiltin, Command.IsBuiltin]
    · trivial
  have hopen : nursery.Reached [] := by
    refine .does (.created fun load hload => ?_) (a := .submit 0 (.play lullaby .beginning false))
      ⟨hbuiltin, fun snapshot hstart => ?_⟩ (.submit fun t ht => absurd ht List.not_mem_nil)
    · cases hload
    · cases hstart
  have hreached := (((hopen.turn 0 rfl rfl).turn 0 rfl rfl).turn 0 rfl rfl).turn 0 rfl rfl
  refine ⟨rfl, rfl, (place_belongs_to_script hreached).1, fun snapshot hsnapshot => ?_⟩
  have hloaded := (place_belongs_to_script (hreached.takes rfl hsnapshot)).2.2
  exact (hloaded lullaby snapshot List.mem_cons_self).imp_right fun h => h rfl

/-! ### A playback that is loading -/

/-- Three lines of text. -/
def chaconne : Script := ⟨"chaconne", [.text "dawn", .text "lark", .text "farewell"]⟩

/-- One line of text. -/
def ditty : Script := ⟨"ditty", [.text "tra la"]⟩

/-- The chaconne is to be played from its last line, by a player that loads for half a second. -/
def matins : Session :=
  submit { player := .create { preloader := some ⟨.ofMillis 500⟩ } { capacity := 16 } none } 0
    (.play chaconne (.line 2) false)

/-- The chaconne has begun, and the ditty is to be played. -/
def interval : Session :=
  submit (turn (setClock (turn (turn matins 0) 0) 500) 0) 1 (.play ditty .beginning false)

/-- The chaconne has ended, and the ditty is loading. -/
def changeover : Session := ((interval.turn 1).turn 0).turn 0

/-- A playback that is loading may have the checkpoint of the playback before it, which may lie
beyond the end of its script. -/
theorem changeover_keeps_checkpoint :
    changeover.Reached [] ∧ changeover.player.state = .loading ∧
      changeover.player.context.script = some ditty ∧ changeover.player.token.isSome = true ∧
      ∃ c, changeover.player.recovery.checkpoint = some c ∧
        c.cursor = 2 ∧ changeover.player.context.lineCount = 1 ∧
        ¬ c.Fits changeover.player.context := by
  have hbuiltin : ∀ script ∈ [chaconne, ditty], script.IsBuiltin := by
    intro script hscript line hline
    simp only [chaconne, ditty, List.mem_cons, List.not_mem_nil, or_false] at hscript
    rcases hscript with rfl | rfl
    all_goals
      simp only [List.mem_cons, List.not_mem_nil, or_false] at hline
      rcases hline with rfl | rfl | rfl <;> trivial
  have hopen : matins.Reached [] := by
    refine .does (.created fun load hload => ?_) (a := .submit 0 (.play chaconne (.line 2) false))
      ⟨hbuiltin _ List.mem_cons_self, fun snapshot hstart => ?_⟩
      (.submit fun t ht => absurd ht List.not_mem_nil)
    · cases hload
    · cases hstart
  have hloaded := ((hopen.turn 0 rfl rfl).turn 0 rfl rfl)
  have hwaited := hloaded.does (a := .wait 500) trivial (.wait (by decide))
  have hinterval : interval.Reached [] := by
    refine (hwaited.turn 0 rfl rfl).does (a := .submit 1 (.play ditty .beginning false))
      ⟨hbuiltin _ (.tail _ List.mem_cons_self), fun snapshot hstart => ?_⟩ (.submit ?_)
    · cases hstart
    · decide
  have hreached : changeover.Reached [] :=
    ((hinterval.turn 1 rfl rfl).turn 0 rfl rfl).turn 0 rfl rfl
  refine ⟨hreached, rfl, rfl, rfl, _, rfl, rfl, rfl, fun hfits => ?_⟩
  have hle : 2 ≤ 1 := hfits.cursor_le
  omega

end Session

end Recital

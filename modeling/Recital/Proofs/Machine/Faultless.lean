import Recital.Proofs.Machine.Simulation

/-!
# Playbacks that meet no error

A playback meets no error if nothing goes wrong in any phase that it can come to, whenever its steps
are made: no attempt fails or takes too long, every flow action can be carried out, every text can
be shown, every script that is called can be entered, and no line lacks its command.

Then every turn of the script machine can be followed, under any configuration of the player, and
none of them fails.
-/

namespace Recital

/-- The playback is before its first line, between two lines, or has ended. -/
def Progress.isBetween : Progress → Bool
  | .goes (.entering (.play ..)) | .goes (.playGate ..) | .goes (.preloading ..)
  | .goes (.playLock _) | .goes (.paused _) | .goes (.delaying ..) | .goes (.autosaving ..) => true
  | .goes _ => false
  | _ => true

/-- A built-in command that the machine can fail on takes no time. -/
lemma Command.IsBuiltin.pace_of_failed {command : Command} {find : String → Option Script}
    {m m' : Machine} {line : Nat} (h : command.IsBuiltin)
    (hfails : m.execute find command = .halts m' (.failed line)) (n : Nat) (view : View) :
    (command.attempt n view).pace = .lasts .zero := by
  cases command with
  | custom => exact absurd h id
  | wait => cases hfails
  | gosub label =>
    unfold Command.attempt
    dsimp only
    split <;> rfl
  | assign | clear | jump | back | stop | log | call => rfl

/-- A script that the machine enters was found. -/
lemma Machine.find_of_enters {command : Command} {find : String → Option Script} {m m' : Machine}
    (h : m.execute find command = .enters m') : ∃ name script, find name = some script := by
  cases command with
  | assign | clear | wait | log | stop | custom => cases h
  | jump target =>
    simp only [execute] at h
    cases hline : m.lineAt? target <;> rw [hline] at h <;> cases h
  | gosub label =>
    simp only [execute] at h
    cases hline : m.script.lineOf? label <;> rw [hline] at h <;> cases h
  | back =>
    simp only [execute] at h
    cases hstack : m.stack <;> rw [hstack] at h <;> cases h
  | call name =>
    simp only [execute] at h
    cases hfind : find name with
    | none =>
      rw [hfind] at h
      cases h
    | some script => exact ⟨name, script, hfind⟩

namespace Player

variable {id : Nat} {play : Play} {host : Host} {before : List Milestone} {r : Performance}
  {p q : Player} {w : Work} {c d : Player × Progress}

/-- Nothing goes wrong in the phase that the playback is in. -/
def Unfaulted : Player × Progress → Prop
  | (p, .goes (.playLock _)) =>
    ∀ source, p.context.settleCursor.currentLine ≠ some (.command source none)
  | (p, .goes (.playing _ (.flying j f))) =>
    ∀ now verdict, p.now ≤ now → (p.at_ now).landing j f = some verdict →
      ∃ flow resolution, j.command.conclude verdict = .ok flow ∧
        p.context.resolve flow = .ok resolution
  | (_, .goes (.playing _ (.resting ..))) => False
  | (_, .goes (.playing _ (.presenting _ _ verdict))) => verdict = .ok ()
  | (p, .goes (.playing _ (.switching w _ name _))) => ∃ found, p.fetch w name = .ok found
  | (_, .ends (.report report)) => report.outcome ≠ .failure
  | _ => True

/-- Nothing goes wrong in any phase that the request can come to. -/
def MeetsNoError (id : Nat) (c : Player × Progress) : Prop :=
  ∀ d, Relation.ReflTransGen (Advances id) c d → Unfaulted d

lemma MeetsNoError.step (h : MeetsNoError id c) (hstep : Advances id c d) : MeetsNoError id d :=
  fun e he => h e (.head hstep he)

/-- A request that meets no error never comes inevitably to one. -/
lemma MeetsNoError.not_inevitably (h : MeetsNoError id c) :
    ¬ Inevitably (AdvancesWithin id) (fun d => ¬ Unfaulted d) c := by
  intro hbad
  obtain ⟨d, hd, hfault⟩ := hbad.reached
  have hle : AdvancesWithin id ≤ Advances id := fun _ _ hstep => hstep.2
  exact hfault (h d (Relation.ReflTransGen.mono hle _ _ hd))

lemma ne_blocked_of_not_unfaulted (h : ¬ Unfaulted d) : d.2 ≠ .blocked := by
  obtain ⟨p, progress⟩ := d
  rintro rfl
  exact h trivial

/-- No step of a request that meets no error leads inevitably to one. -/
lemma MeetsNoError.not_inevitably_step {phase : Phase} (h : MeetsNoError id c)
    (hc : c.2 = .goes phase) :
    ¬ Inevitably (AdvancesWithin id) (fun d => ¬ Unfaulted d)
      ((c.1.at_ c.1.now).step id phase) := by
  intro hbad
  have hne := ne_blocked_of_inevitably hbad fun _ => ne_blocked_of_not_unfaulted
  exact (h.step ⟨phase, c.1.now, hc, Nat.le_refl _, rfl, hne⟩).not_inevitably hbad

/-- A text that cannot be shown is an error. -/
lemma leads_unshown {source text : String} {presenter : Presenter} {failure : Failure}
    (hgoing : p.isCancelled w.token = false) (hkind : TextKind.ofText source = .narrative text)
    (hpresenter : p.host.presenter = some presenter)
    (hrespond : presenter.respond text = .error failure) :
    Leads id play (fun d => ¬ Unfaulted d) (p.beginText w source) := by
  have hbegin : p.beginText w source =
      ({ p with trace := p.trace.push (.presented text p.now) },
        .goes (.presenting w (p.timer presenter.span) (.error failure))) := by
    unfold beginText
    rw [hkind, hpresenter, ← hrespond]
    dsimp only
    rw [hgoing, Bool.and_false]
    rfl
  rw [hbegin]
  refine .here fun h => ?_
  cases h

section Command

/- A command line is about to be executed in a playback that stands where the machine does. -/
variable {command : Command} {m : Machine} {course : List Milestone}
  (hp : OnCourse id play.token host course p) (hstate : p.state = .playing)
  (hindex : w.index = m.pc) (htoken : w.token = play.token) (hshows : p.context.Shows m)
  (hbuiltin : command.IsBuiltin)

include hp hstate htoken hbuiltin

/-- A command that takes longer than it may is an error. -/
lemma leads_late {n : Nat} {view : View} {span : Span}
    (hspan : (command.attempt n view).pace = .lasts span)
    (hlate : (host.policy command.type).timeout.ticks < span.ticks) :
    Leads id play (fun d => ¬ Unfaulted d) (p.beginCommand w (some command)) := by
  refine leads_beginCommand hstate fun q₁ hgist₁ => ?_
  have hcore₁ : q₁.core = p.core := congrArg Gist.core hgist₁
  have hp₁ := hp.of_core hcore₁ ((congrArg Gist.course hgist₁).trans hp.course)
  have hgoing₁ : q₁.isCancelled w.token = false := by
    rw [htoken]
    exact hp₁.undisturbed.going
  obtain ⟨n', q₂, f, attempt, hlaunch, hattempt, hgist₂, -, hdone, hlimit, hnow⟩ :=
    launch_spec (p := q₁) (j := { work := w, command, entered := true, attempt := 1 }) hgoing₁
  have hgoing₂ : q₂.isCancelled w.token = false :=
    (congrArg (fun g : Gist => g.core.isCancelled w.token) hgist₂).trans hgoing₁
  have hpace : attempt.pace = .lasts span := by
    rw [hattempt, ← hspan]
    exact hbuiltin.pace_eq _ _ _ _
  have hdone' : f.doneAt = some (q₁.now + span.ticks) := hdone span hpace
  have hlimit' : f.limit = q₁.now + (host.policy command.type).timeout.ticks := by
    rw [hlimit, hp₁.host, timer_eq]
  rw [hlaunch]
  refine .here fun h => ?_
  -- At its limit the attempt is found to have taken too long.
  obtain ⟨elapsed, hlanding⟩ := landing_late (p := q₂.at_ f.limit)
    (j := { work := w, command, entered := true, attempt := 1 }) (f := f) hgoing₂
    (Nat.le_refl _) (by
      intro done hsome
      rw [hdone'] at hsome
      cases hsome
      simp only [at_now]
      omega)
  obtain ⟨flow, resolution, hconclude, -⟩ := h f.limit _ (by omega) hlanding
  cases hconclude

include hindex hshows in
/-- A command that the machine fails on is an error. -/
lemma leads_failed {m' : Machine} {line : Nat} {load : String → Except LoadError Script}
    (hload : host.loader = some load)
    (hfails : m.execute host.find command = .halts m' (.failed line)) :
    Leads id play (fun d => ¬ Unfaulted d) (p.beginCommand w (some command)) := by
  refine leads_beginCommand hstate fun q₁ hgist₁ => ?_
  have hcore₁ : q₁.core = p.core := congrArg Gist.core hgist₁
  have hp₁ := hp.of_core hcore₁ ((congrArg Gist.course hgist₁).trans hp.course)
  have hgoing₁ : q₁.isCancelled w.token = false := by
    rw [htoken]
    exact hp₁.undisturbed.going
  obtain ⟨n, q₂, f, attempt, hlaunch, hattempt, hgist₂, hverdict, hdone, hlimit, hnow⟩ :=
    launch_spec (p := q₁) (j := { work := w, command, entered := true, attempt := 1 }) hgoing₁
  obtain ⟨hp₂, hstate₂, hcontext₂, hview⟩ := hp.launched hindex hgist₁ hattempt hgist₂
  have hgoing₂ : q₂.isCancelled w.token = false := by
    rw [htoken]
    exact hp₂.undisturbed.going
  -- A command that can fail takes no time, so that its end is seen at once.
  have hpace : attempt.pace = .lasts .zero := by
    rw [hview]
    exact hbuiltin.pace_of_failed hfails n _
  have hdone' : f.doneAt = some q₂.now := by
    rw [hdone _ hpace, hnow]
    rfl
  have hlanding : (q₂.at_ q₂.now).landing
      { work := w, command, entered := true, attempt := 1 } f = some f.verdict :=
    landing_done (p := q₂.at_ q₂.now) hgoing₂ hdone' (Nat.le_refl _)
  rw [hlaunch]
  rcases hshows.executes host.find hbuiltin n w.script with
    ⟨m₁, flow, context, hcontext, hshows₁, -, -, hconclude, hcarries⟩ |
    ⟨label, detail, hgosub, -, hattempt'⟩
  · rw [hview, hcontext] at hcontext₂
    have hverdict' : command.conclude f.verdict = .ok flow := by
      rw [hverdict, hview]
      exact hconclude
    have hshows₂ : q₂.context.Shows m₁ := by
      rw [hcontext₂]
      exact hshows₁
    have hturn := hcarries q₂.context hshows₂
    obtain ⟨turn, hturn'⟩ : ∃ turn, turn = m.execute host.find command := ⟨_, rfl⟩
    rw [← hturn'] at hturn hfails
    cases hturn with
    | goes => cases hfails
    | calls => cases hfails
    | @ends _ resolution _ _ finish halt _ hfinish _ houtcome =>
      cases hfails
      cases resolution <;> cases hfinish <;> cases houtcome
    | fails hrefuse =>
      refine .here fun h => ?_
      obtain ⟨flow', resolution, hok, hresolve⟩ := h q₂.now _ (Nat.le_refl _) hlanding
      cases hok.symm.trans hverdict'
      cases hrefuse.symm.trans hresolve
    | @misses name _ hfind =>
      refine leads_flying hgoing₂ (fun _ => ne_blocked_of_not_unfaulted) fun now verdict
        hle hland => ?_
      have hends : (q₂.at_ now).landing { work := w, command, entered := true, attempt := 1 } f =
          some f.verdict := landing_done (p := q₂.at_ now) hgoing₂ hdone' hle
      cases hland.symm.trans hends
      refine leads_land rfl hstate₂ hverdict' fun q₃ hgist₃ => ?_
      have hcore₃ := congrArg Gist.core hgist₃
      have hp₃ := hp₂.of_core hcore₃ ((congrArg Gist.course hgist₃).trans hp₂.course)
      refine leads_finishLine fun q₄ hgist₄ => ?_
      have hcore₄ := congrArg Gist.core hgist₄
      have hhost₄ : q₄.host = host := (congrArg Player.host hcore₄).trans hp₃.host
      rw [applyFlow_call (by rw [hhost₄]; exact hload)]
      refine .here fun h => ?_
      obtain ⟨found, hfound⟩ := h
      have hnone : q₄.host.find name = none := by
        rw [hhost₄]
        exact hfind
      obtain ⟨fault, hfault⟩ := fetch_eq_error (w := w) hnone
      cases hfound.symm.trans hfault
  · refine .here fun h => ?_
    obtain ⟨flow', resolution, hok, -⟩ := h q₂.now _ (Nat.le_refl _) hlanding
    rw [hverdict, hview, hattempt'] at hok
    cases hok

end Command

/-- The line that a playback without errors is at does not lead to an error as soon as it is
begun. -/
lemma MeetsNoError.not_leads_line {phase : Phase} {m : Machine} {line : Line}
    (hfine : MeetsNoError id c) (h : Agrees id host before r c) (hc : c.2 = .goes phase)
    (hm : r.machine.unwind = m)
    (hleads : ∀ (play : Play) (q : Player) (w : Work), w.index = m.pc → w.token = play.token →
      OnCourse id play.token host (before ++ (r.course ++ [.line m.pc])) q →
      q.state = .playing → q.context.Shows m →
      Leads id play (fun d => ¬ Unfaulted d)
        (match line with
        | .command _ command => q.beginCommand w command
        | .text text => q.beginText w text)) :
    m.script.line? m.pc ≠ some line := by
  intro hline
  refine hfine.not_inevitably_step hc (h.inevitably_begin hc hm ?_ ?_)
  · intro hnone
    rw [hline] at hnone
    cases hnone
  · intro play' line' q w hline' hindex htoken hq hqstate hshows _ _
    cases hline.symm.trans hline'
    exact hleads play' q w hindex htoken hq hqstate hshows

/-- A playback that meets no error follows the machine, which does not fail. -/
lemma MeetsNoError.playable {load : String → Except LoadError Script} (hfine : MeetsNoError id c)
    (h : Agrees id host before r c) (hhead : c.2.isLoopHead = true)
    (hbuiltin : r.machine.script.IsBuiltin)
    (hnames : ∀ name script, host.find name = some script → script.name = name)
    (hload : host.loader = some load) :
    r.Playable host ∧ ∀ line, (r.step host.find).halt ≠ some (.failed line) := by
  have hhalt : r.halt = none := h.halt_eq_none hhead
  obtain ⟨play, hc, hstate, hp⟩ := h.going hhalt
  obtain ⟨m, hm⟩ : ∃ m, r.machine.unwind = m := ⟨_, rfl⟩
  have hmbuiltin : m.script.IsBuiltin := by
    rw [← hm, Machine.unwind_script]
    exact hbuiltin
  have hgood : ∀ line, m.script.line? m.pc = some line →
      line.GoesWell host ∧ ∀ m' index, m.read host.find line ≠ .halts m' (.failed index) := by
    intro line hline
    have hlinebuiltin : line.IsBuiltin := hmbuiltin line (List.mem_of_getElem? hline)
    cases line with
    | text source =>
      refine ⟨fun presenter text hpresenter hkind => ?_, fun _ _ => Machine.Turn.noConfusion⟩
      cases hrespond : presenter.respond text with
      | ok _ => rfl
      | error failure =>
        refine absurd hline (hfine.not_leads_line h hc hm fun play' q w _ htoken hq _ _ => ?_)
        refine leads_unshown ?_ hkind (by rw [hq.host]; exact hpresenter) hrespond
        rw [htoken]
        exact hq.undisturbed.going
    | command source command =>
      cases command with
      | none =>
        have hlocked := hfine c .refl
        obtain ⟨p, progress⟩ := c
        obtain rfl : progress = .goes (.playLock play) := hc
        refine absurd ?_ (hlocked source)
        rw [h.shows.settleCursor.currentLine, hm]
        exact hline
      | some command =>
        constructor
        · intro n view span hspan
          by_contra hle
          refine hfine.not_leads_line h hc hm (fun play' q w _ htoken hq hqstate _ => ?_) hline
          exact leads_late hq hqstate htoken hlinebuiltin hspan (Nat.lt_of_not_le hle)
        · intro m' index hfails
          refine hfine.not_leads_line h hc hm (fun play' q w hindex htoken hq hqstate hshows => ?_)
            hline
          exact leads_failed hq hqstate hindex htoken hshows hlinebuiltin hload hfails
  refine ⟨?_, fun index => ?_⟩
  · refine ⟨hbuiltin, hnames, ?_, ?_⟩
    · rw [hm]
      exact fun line hline => (hgood line hline).1
    · rw [hm]
      exact fun line m' index hline hfails => absurd hfails ((hgood line hline).2 m' index)
  · cases hline : m.script.line? m.pc with
    | none =>
      rw [Performance.step_eq_end hhalt hm hline]
      simp
    | some line =>
      rw [Performance.step_eq_record hhalt hm hline]
      intro hfailed
      cases hturn : m.read host.find line with
      | goes m' =>
        rw [hturn] at hfailed
        cases hhalt.symm.trans hfailed
      | enters m' =>
        rw [hturn] at hfailed
        cases hhalt.symm.trans hfailed
      | halts m' halt =>
        rw [hturn] at hfailed
        cases hfailed
        exact (hgood line hline).2 m' index hturn

/-! ### Playbacks that follow an unfailing machine -/

/-- A phase without a fault whose steps meet no error meets none. -/
lemma meetsNoError_of_step {phase : Phase} (h : Unfaulted (p, .goes phase))
    (hstep : ∀ now, p.now ≤ now → ((p.at_ now).step id phase).2 ≠ .blocked →
      MeetsNoError id ((p.at_ now).step id phase)) : MeetsNoError id (p, .goes phase) := by
  intro d hd
  rcases hd.cases_head with rfl | ⟨e, hfirst, hrest⟩
  · exact h
  · obtain ⟨now, hnow, rfl, hne⟩ := advances_iff.mp hfirst
    exact hstep now hnow hne d hrest

/-- A playback that has ended without a failure meets no error. -/
lemma meetsNoError_of_report {report : Report} (h : report.outcome ≠ .failure) :
    MeetsNoError id (p, .ends (.report report)) := by
  intro d hd
  rcases hd.cases_head with rfl | ⟨e, hfirst, -⟩
  · exact h
  · exact absurd hfirst (not_advances_of_isEnded rfl)

lemma isBetween_playOn : (p.playOn id play).2.isBetween = true := by
  unfold playOn
  split
  · rfl
  · split
    · rfl
    · split <;> rfl

lemma isBetween_continuePlay : (p.continuePlay id play).2.isBetween = true := by
  unfold continuePlay
  split
  · rfl
  · exact isBetween_playOn

lemma isBetween_autosave : (p.autosave id play).2.isBetween = true := by
  unfold autosave
  split
  · rfl
  · exact isBetween_continuePlay

/-- A line that has ended leaves the playback between two lines. -/
lemma isBetween_afterLine (by_ : LineEnd) : (p.afterLine id play by_).2.isBetween = true := by
  cases by_ with
  | finished f => rfl
  | next =>
    have hunfold : ∃ q, p.afterLine id play .next =
        if q.lineDelay = .zero then q.autosave id play
        else (q, .goes (.delaying play (q.timer q.lineDelay))) :=
      ⟨{ p with lineLock := p.lineLock.release }, rfl⟩
    obtain ⟨q, hq⟩ := hunfold
    rw [hq]
    split
    · exact isBetween_autosave
    · rfl

lemma isBetween_followPlay {x : Player × LineProgress} {by_ : LineEnd} (h : x.2 = .ends by_) :
    (followPlay id play x).2.isBetween = true := by
  obtain ⟨p, progress⟩ := x
  obtain rfl : progress = .ends by_ := h
  exact isBetween_afterLine by_

lemma isBetween_startLines {token : Token} {run : Run} {script : String} :
    (p.startLines id token run script).2.isBetween = true := by
  unfold startLines
  split
  · rfl
  · dsimp only
    split
    · exact isBetween_continuePlay
    · rfl

lemma isBetween_beginPlay {script : Script} {start : Start} {bound : Bool} :
    (p.beginPlay id script start bound).2.isBetween = true := by
  unfold beginPlay
  split
  · rfl
  · dsimp only
    split
    · rfl
    · split
      · split <;> rfl
      · exact isBetween_startLines

lemma isBetween_requestPlay {script : Script} {start : Start} {bound : Bool} :
    (p.requestPlay id script start bound).2.isBetween = true := by
  unfold requestPlay
  split
  · rfl
  · split <;> rfl

/-- The playback stays between two lines until the next round. -/
lemma isBetween_step {phase : Phase} (h : (Progress.goes phase).isBetween = true)
    (hhead : (Progress.goes phase).isLoopHead = false) : (p.step id phase).2.isBetween = true := by
  cases phase with
  | playLock => cases hhead
  | entering request =>
    cases request with
    | play => exact isBetween_requestPlay
    | _ => cases h
  | playGate =>
    unfold step
    dsimp only
    split
    · exact isBetween_beginPlay
    · rfl
  | preloading =>
    unfold step
    dsimp only
    split
    · exact isBetween_startLines
    · rfl
  | paused =>
    unfold step
    dsimp only
    split
    · rfl
    · split
      · rfl
      · exact isBetween_playOn
  | delaying =>
    unfold step
    dsimp only
    split
    · rfl
    · split
      · exact isBetween_autosave
      · rfl
  | autosaving => exact isBetween_continuePlay
  | _ => cases h

/-- No error is met between two lines. -/
lemma meetsNoError_of_isBetween (h : Inevitably (AdvancesWithin id) (MeetsNoError id) c)
    (hc : c.2.isBetween = true) : MeetsNoError id c := by
  induction h with
  | here h => exact h
  | @later c hex _ ih =>
    obtain ⟨_, hhead, phase, -, hphase, -⟩ := hex
    obtain ⟨p, progress⟩ := c
    obtain rfl : progress = .goes phase := hphase
    refine meetsNoError_of_step ?_ fun now hnow hne => ?_
    · cases phase with
      | playLock => cases hhead
      | playing => cases hc
      | _ => trivial
    · exact ih _ ⟨hhead, advances_iff.mpr ⟨now, hnow, rfl, hne⟩⟩ (isBetween_step hc hhead)

/-- A text that nobody shows is done at once. -/
lemma isBetween_beginText {source : String} (hpresenter : p.host.presenter = none) :
    (followPlay id play (p.beginText w source)).2.isBetween = true := by
  have hbegin : p.beginText w source = p.finishLine w .next false := by
    unfold beginText
    rw [hpresenter]
    cases TextKind.ofText source <;> rfl
  rw [hbegin]
  exact isBetween_followPlay (show (p.finishLine w .next false).2 = .ends .next from rfl)

/-- A flow action that is not a call ends the line. -/
lemma applyFlow_ends {flow : Flow} {turn : Machine.Turn} {find : String → Option Script}
    (h : p.context.Carries find flow turn) (hcall : ∀ m, turn ≠ .enters m)
    (hfails : ∀ m line, turn ≠ .halts m (.failed line)) :
    ∃ by_, (p.applyFlow w flow false).2 = .ends by_ := by
  cases h with
  | goes hresolve hgoes =>
    rw [applyFlow_eq_of_goesTo hresolve hgoes]
    exact ⟨_, rfl⟩
  | ends hresolve hfinish =>
    rw [applyFlow_eq_of_finish hresolve hfinish]
    exact ⟨_, rfl⟩
  | calls => exact absurd rfl (hcall _)
  | fails => exact absurd rfl (hfails _ _)
  | misses => exact absurd rfl (hfails _ _)

/-- A command in time that the machine does not fail on meets no error, unless it is a call. -/
lemma meetsNoError_beginCommand {command : Command} {m : Machine} {course : List Milestone}
    (hp : OnCourse id play.token host course p) (hstate : p.state = .playing)
    (hindex : w.index = m.pc) (htoken : w.token = play.token) (hshows : p.context.Shows m)
    (hbuiltin : command.IsBuiltin)
    (hwell : ∀ n view span, (command.attempt n view).pace = .lasts span →
      span.ticks ≤ (host.policy command.type).timeout.ticks)
    (hfails : ∀ m' line, m.execute host.find command ≠ .halts m' (.failed line))
    (hcall : ∀ m', m.execute host.find command ≠ .enters m')
    (hnext : Leads id play (MeetsNoError id) (p.beginCommand w (some command))) :
    MeetsNoError id (followPlay id play (p.beginCommand w (some command))) := by
  obtain ⟨q₁, hgist₁, hbegin⟩ := exists_beginCommand (w := w) command hstate
  have hcore₁ : q₁.core = p.core := congrArg Gist.core hgist₁
  have hp₁ := hp.of_core hcore₁ ((congrArg Gist.course hgist₁).trans hp.course)
  have hgoing₁ : q₁.isCancelled w.token = false := by
    rw [htoken]
    exact hp₁.undisturbed.going
  obtain ⟨j, hj⟩ : ∃ j : Job, j = { work := w, command, entered := true, attempt := 1 } :=
    ⟨_, rfl⟩
  have hjwork : j.work = w := by rw [hj]
  have hjcommand : j.command = command := by rw [hj]
  rw [← hj] at hbegin
  obtain ⟨n, q₂, f, attempt, hlaunch, hattempt, hgist₂, hverdict, hdone, hlimit, -⟩ :=
    launch_spec (p := q₁) (j := j) (by rw [hjwork]; exact hgoing₁)
  rw [hjwork, hjcommand] at hattempt
  rw [hjwork] at hgist₂
  rw [hjcommand] at hlimit
  obtain ⟨hp₂, hstate₂, hcontext₂, hview⟩ := hp.launched hindex hgist₁ hattempt hgist₂
  have hgoing₂ : q₂.isCancelled j.work.token = false := by
    rw [hjwork, htoken]
    exact hp₂.undisturbed.going
  -- The command is in time, so that it ends with what it reports.
  have hlanding : ∀ now verdict, (q₂.at_ now).landing j f = some verdict →
      verdict = f.verdict := by
    intro now verdict hland
    rcases landing_cases (p := q₂.at_ now) hgoing₂ hland with hends | ⟨-, hle, hlate⟩
    · exact hends
    · obtain ⟨span, hspan⟩ := hbuiltin.exists_lasts n (p.context.view m.pc w.script)
      have hticks := hwell n (p.context.view m.pc w.script) span hspan
      have hlt := Nat.lt_of_le_of_lt hle (hlate _ (hdone span (by rw [hview]; exact hspan)))
      rw [hlimit, hp₁.host, timer_eq, timer_eq] at hlt
      exact absurd (Nat.lt_of_add_lt_add_left hlt) (Nat.not_lt.mpr hticks)
  rcases hshows.executes host.find hbuiltin n w.script with
    ⟨m₁, flow, context, hcontext, hshows₁, -, -, hconclude, hcarries⟩ |
    ⟨label, detail, -, hfailed, -⟩
  swap
  · exact absurd hfailed (hfails _ _)
  have hok : j.command.conclude f.verdict = .ok flow := by
    rw [hjcommand, hverdict, hview]
    exact hconclude
  have hshows₂ : q₂.context.Shows m₁ := by
    rw [hcontext₂, hview, hcontext]
    exact hshows₁
  rw [hbegin, hlaunch] at hnext ⊢
  cases hnext with
  | here h => exact h
  | later _ hall =>
    refine meetsNoError_of_step ?_ fun now hnow hne => ?_
    · intro now verdict _ hland
      obtain rfl := hlanding now verdict hland
      obtain ⟨turn, hturn⟩ : ∃ turn, turn = m.execute host.find command := ⟨_, rfl⟩
      have hcarried := hcarries q₂.context hshows₂
      rw [← hturn] at hcarried hfails
      cases hcarried with
      | goes hresolve => exact ⟨flow, _, hok, hresolve⟩
      | ends hresolve => exact ⟨flow, _, hok, hresolve⟩
      | calls => exact ⟨_, _, hok, rfl⟩
      | fails => exact absurd rfl (hfails _ _)
      | misses => exact absurd rfl (hfails _ _)
    · refine meetsNoError_of_isBetween (hall _ ⟨rfl, advances_iff.mpr ⟨now, hnow, rfl, hne⟩⟩) ?_
      cases hland : (q₂.at_ now).landing j f with
      | none =>
        refine absurd ?_ hne
        simp only [step, stepLine, hland, followPlay]
      | some verdict =>
        obtain rfl := hlanding now verdict hland
        have hstep : (q₂.at_ now).step id (.playing play (.flying j f)) =
            followPlay id play ((q₂.at_ now).land j f f.verdict) := by
          simp only [step, stepLine, hland]
        obtain ⟨q₃, hgist₃, hlands⟩ := exists_land (f := f) (p := q₂.at_ now)
          (show j.entered = true by rw [hj]) hstate₂ hok
        obtain ⟨q₄, hgist₄, hfinish⟩ := exists_finishLine (p := q₃) (w := j.work) flow false
        have hcontext₃ : q₃.context = q₂.context.recordCommand :=
          congrArg (fun g : Gist => g.core.context) hgist₃
        have hcontext₄ : q₄.context = q₃.context.recordLine.lineFinished j.work.index :=
          congrArg (fun g : Gist => g.core.context) hgist₄
        have hshows₄ : q₄.context.Shows m₁ := by
          rw [hcontext₄, hcontext₃]
          exact hshows₂.recordCommand.recordLine.lineFinished _
        obtain ⟨by_, hby⟩ := applyFlow_ends (w := j.work) (hcarries _ hshows₄) hcall hfails
        rw [hstep, hlands, hfinish]
        exact isBetween_followPlay hby

/-- A round in which the machine does not fail meets no error, if nobody shows texts and there are
no scripts to call. -/
lemma Agrees.meetsNoError_round (h : Agrees id host before r c) (hhead : c.2.isLoopHead = true)
    (hplayable : r.Playable host) (hpresenter : host.presenter = none)
    (hfind : ∀ name, host.find name = none)
    (hfails : ∀ line, (r.step host.find).halt ≠ some (.failed line))
    (hnext : ∀ d, Agrees id host before (r.step host.find) d → MeetsNoError id d) :
    MeetsNoError id c := by
  have hhalt : r.halt = none := h.halt_eq_none hhead
  obtain ⟨play, hc, hstate, hp⟩ := h.going hhalt
  obtain ⟨m, hm⟩ : ∃ m, r.machine.unwind = m := ⟨_, rfl⟩
  have hshows := h.shows.settleCursor
  rw [hm] at hshows
  have hread : ∀ line, m.script.line? m.pc = some line →
      ∀ m' index, m.read host.find line ≠ .halts m' (.failed index) := by
    intro line hline m' index hturn
    refine hfails index ?_
    rw [Performance.step_eq_record hhalt hm hline, hturn]
    rfl
  obtain ⟨p, progress⟩ := c
  obtain rfl : progress = .goes (.playLock play) := hc
  refine meetsNoError_of_step ?_ fun now _ _ => ?_
  · intro source hline
    rw [hshows.currentLine] at hline
    exact hread _ hline m m.pc rfl
  have hround : Inevitably (AdvancesWithin id) (MeetsNoError id)
      ((p.at_ now).step id (.playLock play)) := (h.inevitably_step rfl hplayable).mono hnext
  have hlater : OnCourse id play.token host (before ++ r.course) (p.at_ now) :=
    hp.of_core rfl hp.course
  have hplay := step_playLock hlater.undisturbed hstate h.shows.breakpoints
  cases hcurrent : m.script.line? m.pc with
  | none =>
    have hnone : (p.at_ now).context.settleCursor.currentLine = none :=
      hshows.currentLine.trans hcurrent
    have hends : ((p.at_ now).beginLine play.token).2 = .ends (.finished .completed) := by
      unfold beginLine
      dsimp only
      rw [hnone]
    refine meetsNoError_of_isBetween hround ?_
    rw [hplay]
    exact isBetween_followPlay hends
  | some line =>
    obtain ⟨q, w, hindex, -, htoken, hcore, hqstate, -, hbegin⟩ :=
      exists_beginLine (p := p.at_ now) play.token rfl
        (hshows.currentLine.trans hcurrent)
    have hq : OnCourse id play.token host q.bus.course q := hlater.of_core hcore rfl
    have hqcontext : q.context = p.context.settleCursor := (congrArg Player.context hcore).trans rfl
    rw [hplay, hbegin] at hround ⊢
    cases line with
    | text source =>
      refine meetsNoError_of_isBetween hround (isBetween_beginText ?_)
      rw [hq.host]
      exact hpresenter
    | command source command =>
      cases command with
      | none => exact absurd rfl (hread _ hcurrent m m.pc)
      | some command =>
        have hmem : .command source (some command) ∈ r.machine.script.lines := by
          rw [← Machine.unwind_script, hm]
          exact List.mem_of_getElem? hcurrent
        have hwell : (Line.command source (some command)).GoesWell host :=
          hplayable.well _ (by rw [hm]; exact hcurrent)
        refine meetsNoError_beginCommand hq (hqstate.trans hstate)
          (hindex.trans hshows.cursor) htoken (by rw [hqcontext]; exact hshows)
          (hplayable.builtin _ hmem) hwell (hread _ hcurrent) ?_ hround
        intro m' henters
        obtain ⟨name, script, hsome⟩ := Machine.find_of_enters henters
        cases (hfind name).symm.trans hsome

/-- A playback that has ended without a failure meets no error. -/
lemma Agrees.meetsNoError_ended {halt : Machine.Halt} (h : Agrees id host before r c)
    (hhalt : r.halt = some halt) (hne : halt.outcome ≠ .failure) : MeetsNoError id c := by
  obtain ⟨report, hc, houtcome, -⟩ := h.ended halt hhalt
  obtain ⟨p, progress⟩ := c
  obtain rfl : progress = .ends (.report report) := hc
  refine meetsNoError_of_report ?_
  rw [houtcome]
  exact hne

end Player

end Recital

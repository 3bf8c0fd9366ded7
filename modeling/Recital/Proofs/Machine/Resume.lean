import Recital.Proofs.Machine.Faultless
import Recital.Proofs.Machine.Reference

/-!
# Resuming a playback from a snapshot

A playback that meets no error can be cut after any of its lines: a playback that starts from the
snapshot taken there executes the rest of the lines and ends in the same way.  There is one
exception.  A `stop` ends the playback and leaves the cursor on its line, so that a playback that is
resumed after it executes the `stop` once more.

Both playbacks follow the script machine, so the proof has two parts: the machine goes on from where
it is, whatever it has done before, and the snapshot holds all of its state.
-/

namespace Recital

/-! ### The machine goes on from where it is -/

namespace Machine

variable {m : Machine} {find : String → Option Script}

/-- The next line and all return addresses are lines of the script, or its end. -/
structure Fits (m : Machine) : Prop where
  pc : m.pc ≤ m.script.size
  stack : ∀ line ∈ m.stack, line ≤ m.script.size

/-- Returning keeps to the script.  It ends at a line, or at the end of the script with nothing left
to return to. -/
lemma fits_unwindAlong {stack : List Nat} (hpc : m.pc ≤ m.script.size)
    (hstack : ∀ line ∈ stack, line ≤ m.script.size) :
    (m.unwindAlong stack).Fits ∧
      ((m.unwindAlong stack).pc < m.script.size ∨ (m.unwindAlong stack).stack = []) := by
  induction stack generalizing m with
  | nil => exact ⟨⟨hpc, fun line hline => absurd hline List.not_mem_nil⟩, .inr rfl⟩
  | cons line stack ih =>
    unfold unwindAlong
    split
    · next hlt => exact ⟨⟨hpc, hstack⟩, .inl hlt⟩
    · exact ih (m := m.moveTo line) (hstack line List.mem_cons_self)
        fun other hother => hstack other (List.mem_cons_of_mem _ hother)

lemma Fits.unwind (h : m.Fits) :
    m.unwind.Fits ∧ (m.unwind.pc < m.script.size ∨ m.unwind.stack = []) :=
  fits_unwindAlong h.pc h.stack

/-- A line that the machine is at keeps it in its script or at the beginning of another one. -/
lemma Fits.read (h : m.Fits) (hlt : m.pc < m.script.size) (line : Line) :
    (m.read find line).machine.Fits := by
  have hnext : m.next.Fits := ⟨hlt, h.stack⟩
  cases line with
  | text source => exact hnext
  | command source command =>
    cases command with
    | none => exact h
    | some command =>
      cases command with
      | assign name value => exact ⟨hlt, h.stack⟩
      | clear => exact ⟨hlt, h.stack⟩
      | wait ms => exact hnext
      | log message => exact hnext
      | stop reason => exact h
      | custom type structured behaviour => exact h
      | jump target =>
        simp only [Machine.read, execute]
        cases hline : m.lineAt? target with
        | none => exact h
        | some index =>
          refine ⟨?_, h.stack⟩
          cases target with
          | line index' =>
            simp only [lineAt?] at hline
            split at hline
            · next hlt' =>
              cases hline
              exact Nat.le_of_lt hlt'
            · cases hline
          | label label => exact Nat.le_of_lt (Script.label?_of_lineOf? hline).1
      | gosub label =>
        simp only [Machine.read, execute]
        cases hline : m.script.lineOf? label with
        | none => exact h
        | some index =>
          refine ⟨Nat.le_of_lt (Script.label?_of_lineOf? hline).1, ?_⟩
          intro line hmem
          rcases List.mem_cons.mp hmem with rfl | hmem
          · exact hlt
          · exact h.stack line hmem
      | back =>
        simp only [Machine.read, execute]
        cases hstack : m.stack with
        | nil => exact ⟨Nat.le_refl _, h.stack⟩
        | cons line stack =>
          have hmem : ∀ other, other ∈ line :: stack → other ≤ m.script.size := by
            intro other hother
            exact h.stack other (hstack ▸ hother)
          exact ⟨hmem line List.mem_cons_self,
            fun other hother => hmem other (List.mem_cons_of_mem _ hother)⟩
      | call name =>
        simp only [Machine.read, execute]
        cases find name with
        | none => exact h
        | some script =>
          exact ⟨Nat.zero_le _, fun line hline => absurd hline List.not_mem_nil⟩

/-- Only a `return` succeeds, and it does so at the end of the script with nothing to return to. -/
lemma read_success {line : Line} {m' : Machine}
    (h : m.read find line = .halts m' .success) : m'.pc = m'.script.size ∧ m'.stack = [] := by
  cases line with
  | text source => cases h
  | command source command =>
    cases command with
    | none => cases h
    | some command =>
      cases command with
      | assign | clear | wait | log | stop | custom => cases h
      | jump target =>
        simp only [Machine.read, execute] at h
        cases hline : m.lineAt? target <;> rw [hline] at h <;> cases h
      | gosub label =>
        simp only [Machine.read, execute] at h
        cases hline : m.script.lineOf? label <;> rw [hline] at h <;> cases h
      | call name =>
        simp only [Machine.read, execute] at h
        cases hfind : find name <;> rw [hfind] at h <;> cases h
      | back =>
        simp only [Machine.read, execute] at h
        cases hstack : m.stack with
        | nil =>
          rw [hstack] at h
          cases h
          exact ⟨rfl, hstack⟩
        | cons line stack =>
          rw [hstack] at h
          cases h

end Machine

namespace Performance

variable {find : String → Option Script} {r : Performance}

/-- The machine keeps to its script, and at the end of a performance that succeeds there is nothing
left to read or to return to. -/
structure Sound (r : Performance) : Prop where
  fits : r.machine.Fits
  success : r.halt = some .success → r.machine.pc = r.machine.script.size ∧ r.machine.stack = []

lemma sound_opening (script : Script) : (opening script).Sound :=
  ⟨⟨Nat.zero_le _, fun _ hline => absurd hline List.not_mem_nil⟩, fun h => by cases h⟩

/-- Each turn keeps the machine to its script. -/
lemma Sound.step (h : r.Sound) : (r.step find).Sound := by
  cases hhalt : r.halt with
  | some halt =>
    rw [step_eq_self hhalt]
    exact h
  | none =>
    obtain ⟨m, hm⟩ : ∃ m, r.machine.unwind = m := ⟨_, rfl⟩
    obtain ⟨hfits, hend⟩ := h.fits.unwind
    have hscript : m.script = r.machine.script := by rw [← hm, Machine.unwind_script]
    rw [← hscript] at hend
    rw [hm] at hfits hend
    cases hline : m.script.line? m.pc with
    | none =>
      rw [step_eq_end hhalt hm hline]
      have hpast : m.script.size ≤ m.pc := List.getElem?_eq_none_iff.mp hline
      refine ⟨hfits, fun _ => ⟨Nat.le_antisymm hfits.pc hpast, ?_⟩⟩
      exact hend.resolve_left (Nat.not_lt.mpr hpast)
    | some line =>
      have hlt : m.pc < m.script.size := (List.getElem?_eq_some_iff.mp hline).1
      rw [step_eq_record hhalt hm hline]
      refine ⟨?_, fun hsuccess => ?_⟩
      · rw [record_machine]
        exact hfits.read hlt line
      · cases hturn : m.read find line with
        | goes m' =>
          rw [hturn] at hsuccess
          cases hhalt.symm.trans hsuccess
        | enters m' =>
          rw [hturn] at hsuccess
          cases hhalt.symm.trans hsuccess
        | halts m' halt =>
          rw [hturn] at hsuccess
          cases hsuccess
          exact Machine.read_success hturn

lemma Sound.after (h : r.Sound) (n : Nat) : (r.after find n).Sound := by
  induction n with
  | zero => exact h
  | succ n ih =>
    rw [after_succ]
    exact ih.step

/-- The performance after an earlier course. -/
def prepend (l : List Milestone) (r : Performance) : Performance :=
  { r with course := l ++ r.course }

/-- A turn does not depend on what was read before. -/
lemma step_prepend (l : List Milestone) (r : Performance) :
    (r.prepend l).step find = (r.step find).prepend l := by
  cases hhalt : r.halt with
  | some halt => rw [step_eq_self hhalt, step_eq_self (r := r.prepend l) hhalt]
  | none =>
    obtain ⟨m, hm⟩ : ∃ m, r.machine.unwind = m := ⟨_, rfl⟩
    cases hline : m.script.line? m.pc with
    | none => rw [step_eq_end hhalt hm hline, step_eq_end (r := r.prepend l) hhalt hm hline]; rfl
    | some line =>
      rw [step_eq_record hhalt hm hline, step_eq_record (r := r.prepend l) hhalt hm hline]
      cases m.read find line <;> simp [record, prepend]

lemma after_prepend (l : List Milestone) (r : Performance) (n : Nat) :
    (r.prepend l).after find n = (r.after find n).prepend l := by
  induction n with
  | zero => rfl
  | succ n ih => rw [after_succ, ih, step_prepend, after_succ]

/-- A performance that begins where another one has got to. -/
def resume (r : Performance) : Performance :=
  { r with course := [.script r.machine.script.name], halt := none }

/-- A machine at the end of its script with nothing to return to stays there. -/
lemma unwind_end {m : Machine} (hstack : m.stack = []) : m.unwind = m := by
  unfold Machine.unwind
  rw [hstack]
  cases m
  cases hstack
  rfl

/-- What follows in a resumed performance is what follows in the performance itself, if that goes on
or has succeeded.  One that has succeeded takes another turn to notice. -/
lemma after_resume (find : String → Option Script) (hsound : r.Sound)
    (hhalt : r.halt = none ∨ r.halt = some .success) (n : Nat) :
    ∃ rest, (r.after find n).course = r.course ++ rest ∧
      (r.resume.after find n).course = .script r.machine.script.name :: rest ∧
      (r.resume.after find n).machine = (r.after find n).machine ∧
      (r.resume.after find n).lines = (r.after find n).lines ∧
      (r.resume.after find n).commands = (r.after find n).commands ∧
      (r.halt = none ∨ 0 < n → (r.resume.after find n).halt = (r.after find n).halt) := by
  rcases hhalt with hnone | hsuccess
  · obtain ⟨base, hbase⟩ : ∃ base : Performance, base = { r with course := [] } := ⟨_, rfl⟩
    have hr : r = base.prepend r.course := by
      rw [hbase, prepend, List.append_nil]
    have hresume : r.resume = base.prepend [.script r.machine.script.name] := by
      rw [hbase, resume, prepend, ← hnone]
      rfl
    have hafter : r.after find n = (base.after find n).prepend r.course := by
      rw [← after_prepend, ← hr]
    have hafter' : r.resume.after find n =
        (base.after find n).prepend [.script r.machine.script.name] := by
      rw [hresume, after_prepend]
    refine ⟨(base.after find n).course, ?_⟩
    rw [hafter, hafter']
    exact ⟨rfl, rfl, rfl, rfl, rfl, fun _ => rfl⟩
  · obtain ⟨hpc, hstack⟩ := hsound.success hsuccess
    have hline : r.machine.script.line? r.machine.pc = none := by
      rw [hpc]
      exact List.getElem?_eq_none_iff.mpr (Nat.le_refl _)
    refine ⟨[], ?_⟩
    rw [after_eq_self hsuccess]
    cases n with
    | zero =>
      refine ⟨(List.append_nil _).symm, rfl, rfl, rfl, rfl, ?_⟩
      rintro (hnone | hpos)
      · cases hsuccess.symm.trans hnone
      · cases hpos
    | succ n =>
      have hstep : r.resume.step find = { r.resume with halt := some .success } := by
        rw [step_eq_end (r := r.resume) rfl (unwind_end hstack) hline]
      have hrest : r.resume.after find (n + 1) = { r.resume with halt := some .success } := by
        rw [Nat.add_comm, after_add, after_succ, after_zero, hstep]
        exact after_eq_self rfl n
      rw [hrest]
      exact ⟨(List.append_nil _).symm, rfl, rfl, rfl, rfl, fun _ => hsuccess.symm⟩

/-- Whether a turn can be followed depends on where the machine is. -/
lemma Playable.of_machine {r' : Performance} {host : Host} (h : r.Playable host)
    (hmachine : r'.machine = r.machine) : r'.Playable host := by
  obtain ⟨hbuiltin, hnames, hwell, hplain⟩ := h
  rw [← hmachine] at hbuiltin hwell hplain
  exact ⟨hbuiltin, hnames, hwell, hplain⟩

/-- After a success there is no line left that could not be followed. -/
lemma Sound.playable {host : Host} (h : r.Sound) (hhalt : r.halt = some .success)
    (hbuiltin : r.machine.script.IsBuiltin)
    (hnames : ∀ name script, host.find name = some script → script.name = name) :
    r.Playable host := by
  obtain ⟨hpc, hstack⟩ := h.success hhalt
  have hline : r.machine.unwind.script.line? r.machine.unwind.pc = none := by
    rw [unwind_end hstack, hpc]
    exact List.getElem?_eq_none_iff.mpr (Nat.le_refl _)
  refine ⟨hbuiltin, hnames, fun line hsome => ?_, fun line _ _ hsome => ?_⟩
  · cases hline.symm.trans hsome
  · cases hline.symm.trans hsome

end Performance

/-- Two playbacks stand at the same place. -/
structure Context.Alike (c d : Context) : Prop where
  script : c.script = d.script
  cursor : c.cursor = d.cursor
  frames : c.frames = d.frames
  vars : c.vars = d.vars
  lines : c.linesExecuted = d.linesExecuted
  commands : c.commandsExecuted = d.commandsExecuted

/-- Two reports are the same but for the time it took. -/
structure Report.Alike (r s : Report) : Prop where
  outcome : r.outcome = s.outcome
  scriptName : r.scriptName = s.scriptName
  lines : r.linesExecuted = s.linesExecuted
  commands : r.commandsExecuted = s.commandsExecuted
  line : r.lineIndex = s.lineIndex

/-! ### A playback without errors -/

namespace Player

variable {id id' : Nat} {p p' : Player} {script : Script} {family : Table Script}
  {load : String → Except LoadError Script} {name : String}

/-- A playback that has started from a snapshot agrees with the resumed performance. -/
lemma Started.agrees_resume {c d : Player × Progress} {r : Performance} {host : Host}
    {before : List Milestone} {at_ : Instant} {s : Snapshot}
    (hc : Agrees id host before r c) (hs : c.1.context.snapshot? at_ = some s)
    (hhalt : ∀ line, r.halt ≠ some (.failed line))
    (h : Started id' p' r.machine.script (.snapshot s) d) (hopen : p'.bus.closed = false)
    (hhost : p'.host = host) : Agrees id' host p'.bus.course r.resume d := by
  obtain ⟨play, hprogress, hundisturbed⟩ := h.progress
  obtain ⟨now, hcontext⟩ := h.context
  obtain ⟨hlines, hcommands⟩ := hc.counts hhalt
  have hcourse := h.course hopen
  simp only [Context.snapshot?, hc.shows.script, Option.map_some, Option.some.injEq] at hs
  subst hs
  have hshows : d.1.context.Shows r.machine := by
    rw [hcontext]
    refine ⟨rfl, hc.shows.cursor, rfl, hc.shows.frames, hc.shows.vars, ?_⟩
    simp only [startAt, Context.restore, hc.shows.breakpoints]
    rfl
  exact
    { shows := hshows
      course := hcourse
      counts := fun _ => by
        rw [hcontext]
        exact ⟨hlines, hcommands⟩
      going := fun _ =>
        ⟨play, hprogress, h.state, hundisturbed, h.host.trans hhost, h.closed.trans hopen, hcourse⟩
      ended := fun halt hhalt => by cases hhalt }

/-- Where no error is met, the script to begin with has no defects that are refused. -/
lemma MeetsNoError.clean (hready : Ready p)
    (hfine : MeetsNoError id (p, .goes (.entering (.play script .beginning false))))
    (hrefuse : p.tolerance.refuseDefects = true) : script.survey.fault? script.name = none := by
  cases hfault : script.survey.fault? script.name with
  | none => rfl
  | some fault =>
    refine absurd ?_ hfine.not_inevitably
    refine (inevitably_refused hready rfl hrefuse hfault).mono ?_
    rintro ⟨q, progress⟩ ⟨p', report, hreport⟩ hunfaulted
    obtain rfl : progress = .ends (.report report) := hreport.progress
    exact hunfaulted hreport.outcome

section First

/- A playback that meets no error, of a script of the family that the player is equipped with. -/
variable (hp : Equipped p family load) (hscript : family.get? name = some script)
  (hfine : MeetsNoError id (p, .goes (.entering (.play script .beginning false))))

include hp hfine in
/-- The playback begins where the machine does. -/
lemma inevitably_opening :
    Inevitably (AdvancesWithin id)
      (fun c => Agrees id p.host p.bus.course (.opening script) c ∧ MeetsNoError id c)
      (p, .goes (.entering (.play script .beginning false))) := by
  refine Inevitably.and_of_step ?_ hfine fun a b ha hab => ha.step hab.2
  exact (inevitably_started hp.ready rfl (hfine.clean hp.ready)).mono fun c hc =>
    hc.agrees_opening hp.closed hp.breakpoints

include hp hscript hfine

/-- At the head of its loop the playback can follow the next turn, which does not fail. -/
lemma playable_of_agrees {n : Nat} {d : Player × Progress}
    (hd : Agrees id p.host p.bus.course ((Performance.opening script).after p.host.find n) d)
    (herror : MeetsNoError id d) (hhead : d.2.isLoopHead = true) :
    ((Performance.opening script).after p.host.find n).Playable p.host ∧
      ∀ line, ((Performance.opening script).after p.host.find (n + 1)).halt ≠
        some (.failed line) := by
  obtain ⟨hget, -⟩ := hp.after_script hscript (hfine.clean hp.ready) n rfl
  rw [Performance.after_succ]
  exact herror.playable hd hhead (hp.isBuiltin hget) (fun _ _ => hp.find_name) hp.loader

/-- Each round of the playback follows the machine. -/
lemma inevitably_agrees_round (n : Nat) (d e : Player × Progress)
    (h : Agrees id p.host p.bus.course ((Performance.opening script).after p.host.find n) d ∧
      MeetsNoError id d)
    (hhead : d.2.isLoopHead = true) (hstep : Advances id d e) :
    Inevitably (AdvancesWithin id)
      (fun c => Agrees id p.host p.bus.course
        ((Performance.opening script).after p.host.find (n + 1)) c ∧ MeetsNoError id c) e := by
  obtain ⟨hplayable, -⟩ := playable_of_agrees hp hscript hfine h.1 h.2 hhead
  refine Inevitably.and_of_step ?_ (h.2.step hstep) fun a b ha hab => ha.step hab.2
  obtain ⟨phase, now, hphase, -, rfl, -⟩ := hstep
  rw [Performance.after_succ]
  exact h.1.inevitably_step hphase hplayable

/-- After any number of rounds the playback stands where the machine does. -/
lemma agrees_first {n : Nat} {c : Player × Progress}
    (hc : After id (p, .goes (.entering (.play script .beginning false))) n c) :
    Agrees id p.host p.bus.course ((Performance.opening script).after p.host.find n) c ∧
      MeetsNoError id c :=
  After.settled
    (Q := fun n c => Agrees id p.host p.bus.course
      ((Performance.opening script).after p.host.find n) c ∧ MeetsNoError id c)
    (inevitably_opening hp hfine) (inevitably_agrees_round hp hscript hfine)
    (fun _ _ hd => hd.1.settled) (fun _ _ _ hk hd hend => ⟨hd.1.stay hend hk, hd.2⟩) hc

/-- Any number of rounds is played. -/
lemma exists_after_first (n : Nat) :
    ∃ c, After id (p, .goes (.entering (.play script .beginning false))) n c := by
  refine exists_after
    (Q := fun n c => Agrees id p.host p.bus.course
      ((Performance.opening script).after p.host.find n) c ∧ MeetsNoError id c)
    (inevitably_opening hp hfine) (inevitably_agrees_round hp hscript hfine)
    (fun _ _ hd => hd.1.settled) ?_ n
  intro k d hd hhead
  exact hd.1.exists_advances hhead (playable_of_agrees hp hscript hfine hd.1 hd.2 hhead).1

/-- Every turn of the machine can be followed, and the next one does not fail. -/
lemma playable_first (n : Nat)
    (hhalt : ((Performance.opening script).after p.host.find n).halt = none) :
    ((Performance.opening script).after p.host.find n).Playable p.host ∧
      ∀ line, ((Performance.opening script).after p.host.find (n + 1)).halt ≠
        some (.failed line) := by
  obtain ⟨d, hd⟩ := exists_after_first hp hscript hfine n
  obtain ⟨hagrees, herror⟩ := agrees_first hp hscript hfine hd
  obtain ⟨play, hprogress, -⟩ := hagrees.going hhalt
  exact playable_of_agrees hp hscript hfine hagrees herror (by rw [hprogress]; rfl)

/-- The machine does not fail. -/
lemma not_failed_first (n line : Nat) :
    ((Performance.opening script).after p.host.find n).halt ≠ some (.failed line) := by
  induction n with
  | zero => exact fun h => by cases h
  | succ n ih =>
    cases hhalt : ((Performance.opening script).after p.host.find n).halt with
    | none => exact (playable_first hp hscript hfine n hhalt).2 line
    | some halt =>
      rw [Performance.after_succ, Performance.step_eq_self hhalt]
      exact ih

end First

/-- Playbacks that agree with performances at the same place stand at the same place. -/
lemma Agrees.alike {host host' : Host} {before before' : List Milestone} {r r' : Performance}
    {c c' : Player × Progress} (h : Agrees id host before r c)
    (h' : Agrees id' host' before' r' c') (hmachine : r.machine = r'.machine)
    (hlines : r.lines = r'.lines) (hcommands : r.commands = r'.commands)
    (hhalt : ∀ line, r.halt ≠ some (.failed line))
    (hhalt' : ∀ line, r'.halt ≠ some (.failed line)) :
    c.1.context.Alike c'.1.context := by
  obtain ⟨hl, hc⟩ := h.counts hhalt
  obtain ⟨hl', hc'⟩ := h'.counts hhalt'
  exact
    { script := by rw [h.shows.script, h'.shows.script, hmachine]
      cursor := by rw [h.shows.cursor, h'.shows.cursor, hmachine]
      frames := by rw [h.shows.frames, h'.shows.frames, hmachine]
      vars := by rw [h.shows.vars, h'.shows.vars, hmachine]
      lines := by rw [hl, hl', hlines]
      commands := by rw [hc, hc', hcommands] }

/-- Playbacks that agree with performances that have halted alike have ended alike. -/
lemma Agrees.ended_alike {host host' : Host} {before before' : List Milestone} {r r' : Performance}
    {c c' : Player × Progress} (h : Agrees id host before r c)
    (h' : Agrees id' host' before' r' c') (halike : c.1.context.Alike c'.1.context)
    (hmachine : r.machine = r'.machine) (hhalt : r.halt = r'.halt) :
    c.2.isLoopHead = true ∧ c'.2.isLoopHead = true ∨
      ∃ report report', c.2 = .ends (.report report) ∧ c'.2 = .ends (.report report') ∧
        report.Alike report' := by
  cases hr : r.halt with
  | none =>
    obtain ⟨play, hc, -⟩ := h.going hr
    obtain ⟨play', hc', -⟩ := h'.going (hhalt.symm.trans hr)
    rw [hc, hc']
    exact .inl ⟨rfl, rfl⟩
  | some halt =>
    obtain ⟨report, hc, houtcome, hline, hname, hlines, hcommands⟩ := h.ended halt hr
    obtain ⟨report', hc', houtcome', hline', hname', hlines', hcommands'⟩ :=
      h'.ended halt (hhalt.symm.trans hr)
    refine .inr ⟨report, report', hc, hc', ?_⟩
    exact
      { outcome := houtcome.trans houtcome'.symm
        scriptName := by rw [hname, hname', hmachine]
        lines := by rw [hlines, hlines', halike.lines]
        commands := by rw [hcommands, hcommands', halike.commands]
        line := hline.trans hline'.symm }

/-- A playback that meets no error can be resumed from the snapshot taken after any number of lines,
unless a `stop` has ended it by then: the resumed playback executes the lines and enters the scripts
that the first one does from there on, always stands at the same place, and ends with the same
report. -/
theorem resumed_playback_continues (id' : Nat) {k : Nat} {c : Player × Progress} {at_ : Instant}
    {s : Snapshot} {script' : Script} (hp : Equipped p family load)
      (hscript : family.get? name = some script)
    (hfine : MeetsNoError id (p, .goes (.entering (.play script .beginning false))))
    (hc : After id (p, .goes (.entering (.play script .beginning false))) k c)
    (hcut : ∀ report, c.2.report? = some report → report.outcome = .success)
    (hs : c.1.context.snapshot? at_ = some s)
    (hscript' : family.get? s.scriptName = some script')
    (hready : Ready p') (hopen : p'.bus.closed = false) (hhost : p'.host = p.host) (n : Nat) :
    (∃ d, After id' (p', .goes (.entering (.play script' (.snapshot s) false))) n d) ∧
    (∃ e, After id (p, .goes (.entering (.play script .beginning false))) (k + n) e) ∧
    ∀ d e, After id' (p', .goes (.entering (.play script' (.snapshot s) false))) n d →
      After id (p, .goes (.entering (.play script .beginning false))) (k + n) e →
      ∃ rest, d.1.bus.course = p'.bus.course ++ .script script'.name :: rest ∧
        e.1.bus.course = c.1.bus.course ++ rest ∧ d.1.context.Alike e.1.context ∧
        (c.2.isEnded = false ∨ 0 < n →
          d.2.isLoopHead = true ∧ e.2.isLoopHead = true ∨
            ∃ report report', d.2 = .ends (.report report) ∧ e.2 = .ends (.report report') ∧
              report.Alike report') := by
  obtain ⟨r, hr⟩ : ∃ r, r = (Performance.opening script).after p.host.find k := ⟨_, rfl⟩
  have hagrees := (agrees_first hp hscript hfine hc).1
  rw [← hr] at hagrees
  have hnotfailed : ∀ n line, (r.after p.host.find n).halt ≠ some (.failed line) := by
    intro n line
    rw [hr, ← Performance.after_add]
    exact not_failed_first hp hscript hfine (k + n) line
  have hsound : r.Sound := by
    rw [hr]
    exact (Performance.sound_opening script).after k
  -- The cut is one after which the playback goes on, or has succeeded.
  have hhalt : r.halt = none ∨ r.halt = some .success := by
    cases hhalt : r.halt with
    | none => exact .inl rfl
    | some halt =>
      obtain ⟨report, hended, houtcome, -⟩ := hagrees.ended halt hhalt
      have hsuccess := hcut report (by rw [hended]; rfl)
      rw [houtcome] at hsuccess
      cases halt <;> cases hsuccess
      exact .inr rfl
  -- The script of the snapshot is the one that the machine is in.
  obtain ⟨hget, hclean⟩ := hp.after_script hscript (hfine.clean hp.ready) k
    (congrArg (fun r : Performance => r.machine.script) hr.symm)
  have hsname : s.scriptName = r.machine.script.name ∧ s.cursor = r.machine.pc := by
    simp only [Context.snapshot?, hagrees.shows.script, Option.map_some, Option.some.injEq] at hs
    subst hs
    exact ⟨rfl, hagrees.shows.cursor⟩
  have hsame : script' = r.machine.script := by
    rw [hsname.1] at hscript'
    exact Option.some.inj (hscript'.symm.trans hget)
  subst hsame
  have hrefusal : startRefusal? r.machine.script (.snapshot s) = none :=
    startRefusal?_snapshot hsname.1 (by rw [hsname.2]; exact hsound.fits.pc)
  have hstart : Inevitably (AdvancesWithin id') (Agrees id' p.host p'.bus.course r.resume)
      (p', .goes (.entering (.play r.machine.script (.snapshot s) false))) := by
    refine (inevitably_started hready hrefusal ?_).mono fun d hd =>
      hd.agrees_resume hagrees hs (hnotfailed 0) hopen hhost
    intro hrefuse
    apply hclean
    rw [tolerance, ← hhost]
    exact hrefuse
  have hplayable : ∀ n, (r.resume.after p.host.find n).halt = none →
      (r.resume.after p.host.find n).Playable p.host := by
    intro n hnone
    obtain ⟨-, -, -, hmachine, -, -, hhalts⟩ :=
      Performance.after_resume p.host.find hsound hhalt n
    refine Performance.Playable.of_machine ?_ hmachine
    rcases hhalt with hgoing | hsuccess
    · rw [hhalts (.inl hgoing), hr, ← Performance.after_add] at hnone
      rw [hr, ← Performance.after_add]
      exact (playable_first hp hscript hfine (k + n) hnone).1
    · rw [Performance.after_eq_self hsuccess]
      exact hsound.playable hsuccess (hp.isBuiltin hget) fun _ _ => hp.find_name
  refine ⟨exists_after_of_playable hstart hplayable n,
    exists_after_first hp hscript hfine (k + n), fun d e hd he => ?_⟩
  have hdagrees := agrees_of_after hstart hplayable hd
  have heagrees := (agrees_first hp hscript hfine he).1
  rw [Performance.after_add, ← hr] at heagrees
  obtain ⟨rest, hcourse, hcourse', hmachine, hlines, hcommands, hhalts⟩ :=
    Performance.after_resume p.host.find hsound hhalt n
  have hnotfailed' : ∀ line, (r.resume.after p.host.find n).halt ≠ some (.failed line) := by
    intro line hfailed
    cases n with
    | zero => cases hfailed
    | succ n =>
      rw [hhalts (.inr n.succ_pos)] at hfailed
      exact hnotfailed (n + 1) line hfailed
  have halike := hdagrees.alike heagrees hmachine hlines hcommands hnotfailed' (hnotfailed n)
  refine ⟨rest, ?_, ?_, halike, fun hmore => ?_⟩
  · rw [hdagrees.course, hcourse']
  · rw [heagrees.course, hcourse, hagrees.course, List.append_assoc]
  · refine hdagrees.ended_alike heagrees halike hmachine (hhalts ?_)
    refine hmore.imp_left fun hgoing => ?_
    cases hnone : r.halt with
    | none => rfl
    | some halt =>
      obtain ⟨report, hended, -⟩ := hagrees.ended halt hnone
      rw [hended] at hgoing
      cases hgoing

/-! ### A cut in a subroutine -/

/-- A playback of regular scripts without calls that the machine comes to the end of meets no error,
under the default configuration. -/
lemma Equipped.meetsNoError {n : Nat} {halt : Machine.Halt} (hp : Equipped p family load)
    (hplain : p.host.Plain) (hpresenter : p.host.presenter = none)
    (hregular : ∀ name s, family.get? name = some s → s.Regular)
    (hscript : family.get? name = some script) (hfind : ∀ name, p.host.find name = none)
    (hhalt : ((Performance.opening script).after p.host.find n).halt = some halt)
    (hne : halt.outcome ≠ .failure) :
    MeetsNoError id (p, .goes (.entering (.play script .beginning false))) := by
  have hplayable := hp.playable_after hplain
    (fun _ _ hsome => by rw [hpresenter] at hsome; cases hsome) hregular hscript
  have hstay : ∀ k j h, k + j = n →
      ((Performance.opening script).after p.host.find k).halt = some h → h = halt := by
    rintro k j h rfl hk
    rw [Performance.after_add, Performance.after_eq_self hk, hk] at hhalt
    exact Option.some.inj hhalt
  -- The induction is on the number of turns that are left.
  have hrest : ∀ j k, k + j = n → ∀ c,
      Agrees id p.host p.bus.course ((Performance.opening script).after p.host.find k) c →
      MeetsNoError id c := by
    intro j
    induction j with
    | zero =>
      rintro k rfl c hc
      exact hc.meetsNoError_ended hhalt hne
    | succ j ih =>
      intro k hk c hc
      cases hnow : ((Performance.opening script).after p.host.find k).halt with
      | some h =>
        obtain rfl := hstay k (j + 1) h hk hnow
        exact hc.meetsNoError_ended hnow hne
      | none =>
        obtain ⟨play, hgoes, -⟩ := hc.going hnow
        refine hc.meetsNoError_round (by rw [hgoes]; rfl) (hplayable k) hpresenter hfind ?_ ?_
        · intro line hfailed
          rw [← Performance.after_succ] at hfailed
          obtain rfl := hstay (k + 1) j _ (by omega) hfailed
          exact hne rfl
        · rw [← Performance.after_succ]
          exact ih (k + 1) (by omega)
  refine meetsNoError_of_isBetween ?_ rfl
  refine (inevitably_started hp.ready rfl fun _ => ?_).mono fun c hc =>
    hrest n 0 (Nat.zero_add n) c (hc.agrees_opening hp.closed hp.breakpoints)
  exact Script.fault?_survey_eq_none (hregular name script hscript).clean _

/-- A subroutine at the end of the script, which is executed once more after it. -/
def refrain : Script :=
  ⟨"refrain", [.command "@gosub #theme" (some (.gosub "theme")), .text "#theme"]⟩

/-- Ends at once. -/
def finale : Script := ⟨"finale", [.command "@stop enough" (some (.stop "enough"))]⟩

/-- Both scripts. -/
def songbook : Table Script :=
  ((∅ : Table Script).insert "finale" finale).insert "refrain" refrain

/-- Finds no scripts. -/
def loadNothing (name : String) : Except LoadError Script := .error (.notFound name)

/-- A player without scripts to call. -/
def singer : Player := { host := { loader := some loadNothing }, bus := { capacity := 16 } }

lemma songbook_cases {s : Script} (h : songbook.get? name = some s) :
    name = "refrain" ∧ s = refrain ∨ name = "finale" ∧ s = finale := by
  rw [songbook, Table.get?_insert, Table.get?_insert] at h
  split at h
  · next hname => exact .inl ⟨hname, (Option.some.inj h).symm⟩
  · split at h
    · next hname => exact .inr ⟨hname, (Option.some.inj h).symm⟩
    · cases h

lemma equipped_singer : Equipped singer songbook loadNothing where
  ready := ready_of_new
  closed := rfl
  breakpoints := rfl
  loader := rfl
  knows := fun name s hs => by cases hs
  parsed := by
    intro name s hs
    rcases songbook_cases hs with ⟨rfl, rfl⟩ | ⟨rfl, rfl⟩
    · exact ⟨"@gosub #theme\n#theme", rfl⟩
    · exact ⟨"@stop enough", rfl⟩

lemma singer_meetsNoError (n : Nat) (halt : Machine.Halt)
    (hscript : songbook.get? name = some script)
    (hhalt : ((Performance.opening script).after singer.host.find n).halt = some halt)
    (hne : halt.outcome ≠ .failure) :
    MeetsNoError id (singer, .goes (.entering (.play script .beginning false))) := by
  refine equipped_singer.meetsNoError ⟨rfl, rfl⟩ rfl ?_ hscript (fun _ => rfl) hhalt hne
  intro name s hs
  rcases songbook_cases hs with ⟨-, rfl⟩ | ⟨-, rfl⟩
  · exact ⟨by decide, by simp [refrain]⟩
  · exact ⟨by decide, by simp [finale]⟩

/-- A playback that is cut at the end of the script, where it is to return from the subroutine, does
so when it is resumed. -/
theorem refrain_resumed :
    ∃ c s, After 0 (singer, .goes (.entering (.play refrain .beginning false))) 2 c ∧
      c.1.context.snapshot? (.ofMillis 0) = some s ∧ s.frames = [⟨1⟩] ∧
      (∃ d, After 1 (singer, .goes (.entering (.play refrain (.snapshot s) false))) 2 d) ∧
      (∃ e, After 0 (singer, .goes (.entering (.play refrain .beginning false))) 4 e) ∧
      ∀ d e, After 1 (singer, .goes (.entering (.play refrain (.snapshot s) false))) 2 d →
        After 0 (singer, .goes (.entering (.play refrain .beginning false))) 4 e →
        d.1.bus.course = [.script "refrain", .line 1] ∧
        e.1.bus.course = [.script "refrain", .line 0, .line 1, .line 1] ∧
        d.1.context.Alike e.1.context ∧
        ∃ report report', d.2 = .ends (.report report) ∧ e.2 = .ends (.report report') ∧
          report.Alike report' := by
  have hget : songbook.get? "refrain" = some refrain := rfl
  have hfine : MeetsNoError 0 (singer, .goes (.entering (.play refrain .beginning false))) :=
    singer_meetsNoError 4 .success hget rfl (by decide)
  obtain ⟨c, hc⟩ := exists_after_first equipped_singer hget hfine 2
  have hagrees := (agrees_first equipped_singer hget hfine hc).1
  obtain ⟨play, hgoes, -⟩ := hagrees.going rfl
  have hscript : c.1.context.script = some refrain := hagrees.shows.script
  have hframes : c.1.context.frames = [⟨1⟩] := hagrees.shows.frames
  obtain ⟨s, hs, hname, hstack⟩ : ∃ s, c.1.context.snapshot? (.ofMillis 0) = some s ∧
      s.scriptName = "refrain" ∧ s.frames = [⟨1⟩] := by
    rw [Context.snapshot?, hscript]
    exact ⟨_, rfl, rfl, hframes⟩
  have hready : Ready singer := ready_of_new
  obtain ⟨hd, he, hall⟩ := resumed_playback_continues 1 equipped_singer hget hfine hc
    (fun report hreport => by rw [hgoes] at hreport; cases hreport) hs
    (by rw [hname]; exact hget) hready rfl rfl 2
  refine ⟨c, s, hc, hs, hstack, hd, he, fun d e hafter hafter' => ?_⟩
  obtain ⟨rest, hcourse, hcourse', halike, hend⟩ := hall d e hafter hafter'
  have hagrees' := (agrees_first equipped_singer hget hfine hafter').1
  have hcut : c.1.bus.course = [.script "refrain", .line 0, .line 1] := hagrees.course
  have hwhole : e.1.bus.course = [.script "refrain", .line 0, .line 1] ++ [.line 1] :=
    hagrees'.course
  obtain rfl : rest = [.line 1] := by
    rw [hcut, hwhole] at hcourse'
    exact (List.append_cancel_left hcourse').symm
  refine ⟨hcourse, hwhole, halike, ?_⟩
  rcases hend (.inr (by decide)) with ⟨-, hhead⟩ | hreports
  · obtain ⟨report, hended, -⟩ := hagrees'.ended .success rfl
    rw [hended] at hhead
    cases hhead
  · exact hreports

/-- A `stop` that has ended the playback is executed once more when it is resumed. -/
theorem stop_repeated_when_resumed :
    MeetsNoError 0 (singer, .goes (.entering (.play finale .beginning false))) ∧
    ∃ c s d, After 0 (singer, .goes (.entering (.play finale .beginning false))) 1 c ∧
      c.2.isEnded = true ∧ c.1.bus.course = [.script "finale", .line 0] ∧
      c.1.context.linesExecuted = 1 ∧ c.1.context.snapshot? (.ofMillis 0) = some s ∧
      s.scriptName = "finale" ∧
      After 1 (singer, .goes (.entering (.play finale (.snapshot s) false))) 1 d ∧
      d.1.bus.course = [.script "finale", .line 0] ∧ d.1.context.linesExecuted = 2 := by
  have hget : songbook.get? "finale" = some finale := rfl
  have hfine : MeetsNoError 0 (singer, .goes (.entering (.play finale .beginning false))) :=
    singer_meetsNoError 1 .stopped hget rfl (by decide)
  obtain ⟨r, hr⟩ : ∃ r, r = (Performance.opening finale).after singer.host.find 1 := ⟨_, rfl⟩
  have hmachine : r.machine = (Performance.opening finale).machine := by
    rw [hr]
    rfl
  have hscript : r.machine.script = finale := by
    rw [hmachine]
    rfl
  have hnotfailed : ∀ line, r.halt ≠ some (.failed line) := by
    rw [hr]
    exact not_failed_first equipped_singer hget hfine 1
  obtain ⟨c, hc⟩ := exists_after_first equipped_singer hget hfine 1
  have hagrees := (agrees_first equipped_singer hget hfine hc).1
  have hcourse : c.1.bus.course = [.script "finale", .line 0] := hagrees.course
  rw [← hr] at hagrees
  obtain ⟨report, hended, -⟩ := hagrees.ended .stopped (by rw [hr]; rfl)
  obtain ⟨s, hs, hname, hcursor⟩ : ∃ s, c.1.context.snapshot? (.ofMillis 0) = some s ∧
      s.scriptName = "finale" ∧ s.cursor = 0 := by
    rw [Context.snapshot?, hagrees.shows.script, hscript]
    exact ⟨_, rfl, rfl, by rw [hagrees.shows.cursor, hmachine]; rfl⟩
  have hrefusal : startRefusal? finale (.snapshot s) = none :=
    startRefusal?_snapshot hname (by rw [hcursor]; exact Nat.zero_le _)
  have hstart : Inevitably (AdvancesWithin 1) (Agrees 1 singer.host [] r.resume)
      (singer, .goes (.entering (.play finale (.snapshot s) false))) := by
    refine (inevitably_started ready_of_new hrefusal fun _ => rfl).mono fun d hd => ?_
    rw [← hscript] at hd
    exact hd.agrees_resume hagrees hs hnotfailed rfl rfl
  have hplayable : ∀ n, (r.resume.after singer.host.find n).halt = none →
      (r.resume.after singer.host.find n).Playable singer.host := by
    intro n hnone
    cases n with
    | zero =>
      refine (playable_first equipped_singer hget hfine 0 rfl).1.of_machine ?_
      exact hmachine
    | succ n =>
      have hhalt : (r.resume.after singer.host.find 1).halt = some .stopped := by
        rw [hr]
        rfl
      rw [Nat.add_comm, Performance.after_add, Performance.after_eq_self hhalt, hhalt] at hnone
      cases hnone
  obtain ⟨d, hd⟩ := exists_after_of_playable hstart hplayable 1
  have hresumed := agrees_of_after hstart hplayable hd
  rw [hr] at hresumed hagrees
  refine ⟨hfine, c, s, d, hc, by rw [hended]; rfl, hcourse, ?_, hs, hname, hd, hresumed.course, ?_⟩
  · exact (hagrees.counts fun line hfailed => by cases hfailed).1
  · exact (hresumed.counts fun line hfailed => by cases hfailed).1

end Player

end Recital

import Recital.Proofs.Machine.Simulation

/-!
# Reference semantics of a playback

Under the default configuration, a playback of scripts of built-in commands that nothing interferes
with does exactly what the script machine does, round for round: it executes the same lines in the
same scripts, has the same variables and return addresses, and ends with the same outcome at the
same line.
-/

namespace Recital

/-- A script without defects that waits for less than the default timeout each time. -/
structure Script.Regular (s : Script) : Prop where
  clean : s.survey.isClean = true
  brief : ∀ source ms, .command source (some (.wait ms)) ∈ s.lines →
    ms < ({} : Policy).timeoutMs

/-- A timer for a number of milliseconds is set so far ahead. -/
lemma Span.ticks_ofMillis {ms : Nat} (h : ms < Nat.pow 2 64) : (ofMillis ms).ticks = ms := by
  have hword : Nat.pow 2 64 = 18446744073709551616 := by decide
  rw [hword] at h
  have hsecs : ¬ Nat.pow 2 63 ≤ (ofMillis ms).secs := by
    have hpow : Nat.pow 2 63 = 9223372036854775808 := by decide
    simp only [ofMillis, secs, perSecond, hpow]
    omega
  have hmillis : (ofMillis ms).millisUp = ms := by
    simp only [ofMillis, millisUp]
    omega
  rw [ticks, if_neg hsecs, hmillis]

/-- Each line of a regular script goes well under the default configuration. -/
lemma Script.Regular.goesWell {s : Script} {host : Host} {line : Line} (h : s.Regular)
    (hbuiltin : line.IsBuiltin) (hplain : host.Plain)
    (hshown : ∀ presenter text, host.presenter = some presenter → presenter.respond text = .ok ())
    (hline : line ∈ s.lines) : line.GoesWell host := by
  cases line with
  | text source => exact fun presenter text hpresenter _ => hshown presenter text hpresenter
  | command source command =>
    cases command with
    | none => trivial
    | some command =>
      intro n view span hspan
      rw [hplain.policy]
      have hlimit : ({} : Policy).timeout.ticks = 30000 := Span.ticks_ofMillis (by decide)
      rw [hlimit]
      cases command with
      | custom => exact absurd hbuiltin id
      | wait ms =>
        have hms : ms < 30000 := h.brief source ms hline
        cases hspan
        rw [Span.ticks_ofMillis (Nat.lt_trans hms (by decide))]
        omega
      | gosub label =>
        have hzero : ((Command.gosub label).attempt n view).pace = .lasts .zero := by
          unfold Command.attempt
          dsimp only
          split <;> rfl
        rw [hzero] at hspan
        cases hspan
        exact Nat.zero_le _
      | assign | clear | jump | back | stop | log | call =>
        cases hspan
        exact Nat.zero_le _

namespace Player

variable {id : Nat} {p : Player} {script : Script} {family : Table Script}
  {load : String → Except LoadError Script} {name : String}

/-- Regular scripts are entered as they are found. -/
lemma Equipped.find_eq (hp : Equipped p family load)
    (hregular : ∀ name s, family.get? name = some s → s.Regular) :
    p.host.find = fun name => (load name).toOption := by
  funext name
  unfold Host.find
  rw [hp.loader]
  cases hloaded : load name with
  | error e =>
    simp only [hloaded]
    rfl
  | ok s =>
    have hclean := (hregular name s (hp.knows name s hloaded)).clean
    simp only [hloaded, Script.fault?_survey_eq_none hclean, Option.isSome_none, Bool.and_false]
    rfl

/-- Each turn of the machine can be followed. -/
lemma Equipped.playable_after (hp : Equipped p family load) (hplain : p.host.Plain)
    (hshown : ∀ presenter text, p.host.presenter = some presenter →
      presenter.respond text = .ok ())
    (hregular : ∀ name s, family.get? name = some s → s.Regular)
    (hscript : family.get? name = some script) (n : Nat) :
    ((Performance.opening script).after p.host.find n).Playable p.host := by
  obtain ⟨s, hs⟩ :
      ∃ s, ((Performance.opening script).after p.host.find n).machine.script = s := ⟨_, rfl⟩
  obtain ⟨hget, -⟩ := hp.after_script hscript
    (fun _ => Script.fault?_survey_eq_none (hregular name script hscript).clean _) n hs
  refine ⟨hs ▸ hp.isBuiltin hget, fun _ _ => hp.find_name, fun line hline => ?_,
    fun _ _ _ _ _ => hplain⟩
  rw [Machine.unwind_script, hs] at hline
  have hmem : line ∈ s.lines := List.mem_of_getElem? hline
  exact (hregular _ s hget).goesWell (hp.isBuiltin hget line hmem) hplain hshown hmem

/-- After any number of rounds, a playback stands where the machine does after as many turns: it has
executed the same lines, has the same script, variables and return addresses, and has ended if and
only if the machine has halted, with its outcome and the line that failed.  The playback is one of a
script of a regular family, by a player with the default configuration whose presenter, if it has
one, can show every text. -/
theorem playback_agrees_with_machine (id : Nat) (hp : Equipped p family load)
    (hplain : p.host.Plain)
    (hshown : ∀ presenter text, p.host.presenter = some presenter →
      presenter.respond text = .ok ())
    (hregular : ∀ name s, family.get? name = some s → s.Regular)
    (hscript : family.get? name = some script) (n : Nat) :
    (∃ c, After id (p, .goes (.entering (.play script .beginning false))) n c) ∧
    ∀ c, After id (p, .goes (.entering (.play script .beginning false))) n c →
      ∃ r, r = (Performance.opening script).after (fun name => (load name).toOption) n ∧
        c.1.bus.course = p.bus.course ++ r.course ∧
        c.1.context.vars = r.machine.vars ∧
        c.1.context.frames.map Frame.returnLine = r.machine.stack.reverse ∧
        c.1.context.script = some r.machine.script ∧
        match r.halt with
        | none => c.2.isEnded = false
        | some halt => ∃ report, c.2 = .ends (.report report) ∧
            report.outcome = halt.outcome ∧ report.lineIndex = halt.line? := by
  have hstart : Inevitably (AdvancesWithin id)
      (Agrees id p.host p.bus.course (.opening script))
      (p, .goes (.entering (.play script .beginning false))) := by
    refine (inevitably_started hp.ready rfl ?_).mono fun c hc =>
      hc.agrees_opening hp.closed hp.breakpoints
    exact fun _ => Script.fault?_survey_eq_none (hregular name script hscript).clean _
  have hplayable := hp.playable_after hplain hshown hregular hscript
  refine ⟨exists_after_of_playable hstart (fun n _ => hplayable n) n, fun c hc => ?_⟩
  have hagrees := agrees_of_after hstart (fun n _ => hplayable n) hc
  rw [hp.find_eq hregular] at hagrees
  refine ⟨_, rfl, hagrees.course, hagrees.shows.vars, ?_, hagrees.shows.script, ?_⟩
  · simp [hagrees.shows.frames, List.map_reverse, Function.comp_def]
  · split
    · next hhalt =>
      obtain ⟨play, hprogress, -⟩ := hagrees.going hhalt
      rw [hprogress]
      rfl
    · next halt hhalt =>
      obtain ⟨report, hprogress, houtcome, hline, -⟩ := hagrees.ended halt hhalt
      exact ⟨report, hprogress, houtcome, hline⟩

/-! ### A subroutine and a call -/

/-- Calls a subroutine and then another script. -/
def overture : Script :=
  ⟨"overture", [.command "@gosub #theme" (some (.gosub "theme")),
    .command "@call coda" (some (.call "coda")), .text "#theme", .command "@return" (some .back)]⟩

/-- Waits a little and ends the playback. -/
def coda : Script :=
  ⟨"coda", [.command "@wait 20" (some (.wait 20)), .command "@stop enough" (some (.stop "enough"))]⟩

/-- Both scripts. -/
def repertoire : Table Script :=
  ((∅ : Table Script).insert "coda" coda).insert "overture" overture

/-- Knows `coda` only. -/
def loadCoda (name : String) : Except LoadError Script :=
  if name = "coda" then .ok coda else .error (.notFound name)

/-- A player that can call `coda`. -/
def soloist : Player := { host := { loader := some loadCoda }, bus := { capacity := 16 } }

/-- The subroutine is executed before the other script is called, which then ends the playback. -/
theorem soloist_plays_overture :
    (∃ c, After 0 (soloist, .goes (.entering (.play overture .beginning false))) 7 c) ∧
    ∀ c, After 0 (soloist, .goes (.entering (.play overture .beginning false))) 7 c →
      c.1.bus.course = [.script "overture", .line 0, .line 2, .line 3, .line 1, .script "coda",
        .line 0, .line 1] ∧
      c.1.context.script = some coda ∧
      ∃ report, c.2 = .ends (.report report) ∧ report.outcome = .stopped := by
  have hmembers : ∀ name s, repertoire.get? name = some s →
      name = "overture" ∧ s = overture ∨ name = "coda" ∧ s = coda := by
    intro name s hs
    rw [repertoire, Table.get?_insert, Table.get?_insert] at hs
    split at hs
    · next hname => exact .inl ⟨hname, (Option.some.inj hs).symm⟩
    · split at hs
      · next hname => exact .inr ⟨hname, (Option.some.inj hs).symm⟩
      · cases hs
  have hregular : ∀ name s, repertoire.get? name = some s → s.Regular := by
    intro name s hs
    rcases hmembers name s hs with ⟨-, rfl⟩ | ⟨-, rfl⟩
    · exact ⟨by decide, by simp [overture]⟩
    · exact ⟨by decide, by simp [coda]⟩
  have hsoloist : Equipped soloist repertoire loadCoda :=
    { ready := ready_of_new
      closed := rfl
      breakpoints := rfl
      loader := rfl
      knows := by
        intro name s hs
        unfold loadCoda at hs
        split at hs
        · next hname =>
          cases hs
          rw [hname]
          rfl
        · cases hs
      parsed := by
        intro name s hs
        rcases hmembers name s hs with ⟨rfl, rfl⟩ | ⟨rfl, rfl⟩
        · exact ⟨"@gosub #theme\n@call coda\n#theme\n@return", rfl⟩
        · exact ⟨"@wait 20\n@stop enough", rfl⟩ }
  have hget : repertoire.get? "overture" = some overture := rfl
  obtain ⟨hex, hall⟩ := playback_agrees_with_machine 0 hsoloist ⟨rfl, rfl⟩
    (fun _ _ h => by cases h) hregular hget 7
  refine ⟨hex, fun c hc => ?_⟩
  obtain ⟨r, hr, hcourse, -, -, hscript, hend⟩ := hall c hc
  have hrun : r = { course := [.script "overture", .line 0, .line 2, .line 3, .line 1,
        .script "coda", .line 0, .line 1]
                    machine := { script := coda, pc := 1 }
                    halt := some .stopped, lines := 6, commands := 5 } := hr
  rw [hrun] at hcourse hscript hend
  obtain ⟨report, hreport, houtcome, -⟩ := hend
  exact ⟨hcourse, hscript, report, hreport, houtcome⟩

end Player

end Recital

import Recital.Proofs.Player.RequestChanges
import Recital.Proofs.Player.Endless
import Recital.Proofs.Twin.Abreast

/-!
# Stepping equals running

A playback that is stepped through from a pause tells the same story as one that is resumed without
breakpoints, and comes to the same end with the same variables and return addresses.  The calls that
step through it come back one after the other.

Calls pass over breakpoints, whereas a rollback brings back those of the checkpoint, which may stop
the playback that was resumed.  The stories are compared as long as that does not happen.  Whether
calls come back has nothing to do with it: there the playback is compared with one whose checkpoint
has no breakpoints either (`Player.unmarked`).
-/

namespace Recital

namespace Player

variable {id other : Nat} {token : Token} {p q : Player} {a : Phase} {play : Play}
  {line : LinePhase}
  {w : Walk} {d : Player × Progress}

/-- The player is given the same whatever it does. -/
lemma host_onward (c : Player × Progress) : (Player.onward id c).1.host = c.1.host := by
  obtain ⟨p, progress⟩ := c
  cases progress with
  | goes phase =>
    by_cases hready : (p.step id phase).2 = .blocked
    · rw [onward_of_blocked hready]
      rfl
    · rw [onward_of_ready hready]
      exact host_step
  | blocked | ends => rfl

lemma host_stride : (w.stride id other).player.host = w.player.host := by
  have hwaits : (w.waits id).player.host = w.player.host := host_onward (w.player, w.playback)
  unfold Walk.stride
  split
  · split
    · rfl
    · exact hwaits
  · next phase _ =>
    split
    · exact hwaits
    · next q progress _ hstep =>
      have hhost : (w.player.step other phase).1.host = w.player.host := host_step
      rw [hstep] at hhost
      exact hhost

lemma host_walk (n : Nat) : ((Walk.stride id other)^[n] w).player.host = w.player.host := by
  induction n with
  | zero => rfl
  | succ n ih =>
    rw [Function.iterate_succ_apply', host_stride]
    exact ih

/-- A paused playback that may be stepped through: its end is not left for it already, nothing saves
automatically, and no command asks whether it is stepped through. -/
structure Interrupted (id : Nat) (token : Token) (p : Player) (phase : Phase) : Prop where
  afoot : Afoot id token false p phase
  halted : Halted token p.bearing
  calm : phase.isCalm = true
  evenly : p.host.RunsEvenly
  blind : p.setting.Blind

/-- The player without its breakpoints and those of its checkpoint. -/
def unmarked (p : Player) : Player :=
  { p.clearBreakpoints with
    recovery :=
      { p.recovery with
        checkpoint := p.recovery.checkpoint.map fun s => { s with breakpoints := [] } } }

lemma essence_unmarked : p.unmarked.essence = p.essence := by
  have hcheckpoint : ∀ checkpoint : Option Snapshot,
      (checkpoint.map fun s => { s with breakpoints := [] }).map Snapshot.essence =
        checkpoint.map Snapshot.essence := by
    intro checkpoint
    rw [Option.map_map]
    rfl
  have hessence : p.unmarked.essence =
      { p.essence with
        recovery :=
          { p.recovery with
            checkpoint := (p.recovery.checkpoint.map fun s => { s with breakpoints := [] }).map
              Snapshot.essence } } := rfl
  rw [hessence, hcheckpoint]
  rfl

namespace Interrupted

/-- Resumed without its breakpoints, the playback is the twin of the one that is stepped through;
those of the checkpoint may be there or not. -/
lemma abreast (h : Interrupted id token p a) (other : Nat) (hessence : p.essence = q.essence)
    (hstory : p.bus.story = q.bus.story) (hnow : q.now = p.now) (hbearing : q.bearing = p.bearing) :
    Abreast id other token ⟨p, .goes a, none⟩ (q.resume.2, .goes a) := by
  have htwin : Twin true 0 p q :=
    { essence := hessence
      story := hstory
      setting :=
        { later := hnow
          evenly := h.evenly
          blind := fun _ => h.blind
          even := fun hunstepped => Bool.noConfusion hunstepped } }
  have hafoot : Afoot id token false q a :=
    { owner := h.afoot.owner
      poised := hbearing ▸ h.afoot.poised
      lock := (congrArg Bearing.lock hbearing).trans h.afoot.lock }
  exact .settling (htwin.of_alike (.refl p) (alike_resume q)) (Phase.twin_self h.calm) h.halted
    h.afoot hafoot.resume

/-- The playback that goes on without breakpoints is not stopped by any. -/
lemma unhindered_unmarked (h : Interrupted id token p a) :
    Unhindered id token (p.unmarked.resume.2, .goes a) := by
  have hclear : p.unmarked.setting.Clear := by
    refine ⟨rfl, fun c hc => ?_⟩
    obtain ⟨s, -, rfl⟩ := Option.map_eq_some_iff.mp hc
    rfl
  have hself : Twin false 0 p.unmarked p.unmarked := Twin.self h.evenly hclear
  have hafoot : Afoot id token true p.unmarked.resume.2 a :=
    Afoot.resume ⟨h.afoot.owner, h.afoot.poised, h.afoot.lock⟩
  have hphase : a.Twin false p.unmarked.resume.2.host p.unmarked.resume.2.now 0 a :=
    Phase.twin_self h.calm
  exact unhindered_of_clear
    (.afoot (hself.of_alike (alike_resume _) (alike_resume _)) hphase hafoot hafoot)

end Interrupted

/-- Stepping equals running.  A playback that is stepped through from a pause and the one that is
resumed there without breakpoints come to the same points of the same story, with the same variables
and return addresses and to the same end, if the second one is not paused again by a breakpoint that
a rollback brings back.  Each call comes back having begun one line and leaves the playback paused,
unless that has ended. -/
theorem stepping_equals_running (h : Interrupted id token p a) (other : Nat) :
    let walk := fun n => (Walk.stride id other)^[n] ⟨p, .goes a, none⟩
    let run := fun m => (Player.onward id)^[m] (p.clearBreakpoints.resume.2, .goes a)
    ((∀ m, (run m).1.state ≠ .paused) →
        (∀ n, (walk n).player.deferred = none →
          ∃ m, Concurs ((walk n).player, (walk n).playback) (run m)) ∧
        ∀ m, ∃ n, Concurs ((walk n).player, (walk n).playback) (run m)) ∧
      (p.host.Relents → ∀ n, (walk n).isSettled = true →
        (walk (n + 1)).Returns id other (walk n).player.bus.begun) := by
  intro walk run
  constructor
  · intro hunpaused
    have hfree : Unhindered id token (run 0) := unhindered_of_unpaused hunpaused
    have hstart : Abreast id other token (walk 0) (run 0) := h.abreast other rfl rfl rfl rfl
    constructor
    · intro n hdeferred
      obtain ⟨m, hm⟩ := hstart.walk hfree n
      exact ⟨m, hm.concurs hdeferred⟩
    · intro m
      obtain ⟨l, hl⟩ := hstart.run hfree m
      obtain ⟨n, hn⟩ := hl.exists_concurs
      have hwalk : walk (n + l) = (Walk.stride id other)^[n] (walk l) :=
        Function.iterate_add_apply _ n l _
      refine ⟨n + l, ?_⟩
      rw [hwalk]
      exact hn
  · intro hrelents n hsettled
    have hstart : Abreast id other token (walk 0) (p.unmarked.resume.2, .goes a) :=
      h.abreast other essence_unmarked.symm rfl rfl rfl
    obtain ⟨m, hm⟩ := hstart.walk h.unhindered_unmarked n
    have hhost : (walk n).player.host = p.host := host_walk n
    have hwalk : walk (n + 1) = (walk n).stride id other := Function.iterate_succ_apply' _ n _
    rw [hwalk]
    exact hm.returns (hhost ▸ hrelents) hsettled

/-! ### A playback that is paused by a breakpoint -/

/-- Fails whenever it is attempted. -/
def falter :
    Command := .custom "falter" false fun _ _ => { verdict := .error (.network "unreachable") }

/-- A text, and a line that never succeeds. -/
def ballad : Script := ⟨"ballad", [.text "one", .command "@falter" (some falter)]⟩

/-- A player that gives each command so many retries, and then deals with the fault in this way. -/
def minstrel (maxRetries : Nat) (remedy : Remedy) : Player :=
  { host :=
      { config := { tolerance := { maxRecoveries := 1 } }
        registry := { defaults := { maxRetries, onError := some remedy } } }
    bus := { capacity := 16 } }

/-- The ballad is to be played. -/
def recital (p : Player) : Player × Progress :=
  (p, .goes (.entering (.play ballad .beginning false)))

/-- The ballad is paused by a breakpoint before its second line, which its checkpoint knows. -/
def cued (maxRetries : Nat) (remedy : Remedy) : Player × Progress :=
  (onward 0)^[4] (recital ((minstrel maxRetries remedy).addBreakpoint 1).2)

/-- A playback that ends is not paused if it was not until then. -/
lemma unpaused_of_ended {n : Nat} (hended : ((onward id)^[n] d).2.isEnded = true)
    (h : ∀ m ≤ n, ((onward id)^[m] d).1.state ≠ .paused) (m : Nat) :
    ((onward id)^[m] d).1.state ≠ .paused := by
  rcases Nat.le_total m n with hle | hle
  · exact h m hle
  · have hkept : (onward id)^[m] d = (onward id)^[n] d := by
      rw [← Nat.sub_add_cancel hle, Function.iterate_add_apply]
      exact Function.iterate_fixed (onward_ended hended) (m - n)
    rw [hkept]
    exact h n (Nat.le_refl n)

/-- The phase of the ballad when it is paused. -/
def upbeat : Phase := .paused { token := ⟨1, false⟩, savedAt := 0 }

lemma interrupted_cued : Interrupted 0 ⟨1, false⟩ (cued 1 .skip).1 upbeat := by
  have hblind : ballad.Blind := by
    intro line hline
    rcases List.mem_cons.mp hline with rfl | hline
    · exact trivial
    · obtain rfl := List.mem_singleton.mp hline
      exact ⟨fun _ _ _ => rfl, fun _ _ e he => nomatch he⟩
  exact
    { afoot := ⟨rfl, ⟨rfl, rfl, rfl, rfl, .inr rfl, fun hfree => Bool.noConfusion hfree⟩, rfl⟩
      halted := ⟨rfl, rfl, rfl, rfl, rfl⟩
      calm := rfl
      evenly := fun a b _ t => Nat.add_sub_add_right b t a
      blind :=
        ⟨fun script hscript => Option.some.inj hscript ▸ hblind, fun load hload => nomatch hload⟩ }

/-- Resumed without breakpoints, the ballad comes to its end. -/
lemma cued_unpaused (m : Nat) :
    ((onward 0)^[m] ((cued 1 .skip).1.clearBreakpoints.resume.2, .goes upbeat)).1.state ≠ .paused :=
  unpaused_of_ended (n := 6) rfl (by decide +kernel) m

/-- Two calls step through the ballad from the breakpoint: the first attempts the second line twice
and passes over its fault, and the second finds the end, as the ballad does when it is resumed. -/
theorem ballad_stepped :
    let walk := fun n => (Walk.stride 0 1)^[n] ⟨(cued 1 .skip).1, .goes upbeat, none⟩
    let run := fun m => (onward 0)^[m] ((cued 1 .skip).1.clearBreakpoints.resume.2, .goes upbeat)
    (cued 1 .skip).2 = .goes upbeat ∧ (cued 1 .skip).1.context.released = some 1 ∧
      (cued 1 .skip).1.recovery.checkpoint.map Snapshot.breakpoints = some [1] ∧
      (walk 6).isSettled = true ∧ (walk 6).player.bus.begun = [0, 1] ∧
      (walk 10).playback.isEnded = true ∧ (walk 10).player.bus.begun = [0, 1] ∧
      (∃ m, Concurs ((walk 10).player, (walk 10).playback) (run m)) ∧
      (∀ m, ∃ n, Concurs ((walk n).player, (walk n).playback) (run m)) ∧
      ∀ n, (walk n).isSettled = true → (walk (n + 1)).Returns 0 1 (walk n).player.bus.begun := by
  have hrelents : (cued 1 .skip).1.host.Relents := fun _ => show 1 + 1 < 2 ^ 32 by decide
  obtain ⟨hmeets, hreturns⟩ := stepping_equals_running interrupted_cued 1
  obtain ⟨hsteps, hruns⟩ := hmeets cued_unpaused
  exact ⟨rfl, rfl, rfl, rfl, rfl, rfl, rfl, hsteps 10 rfl, hruns, hreturns hrelents⟩

/-! ### Pauses that are stepped through otherwise than they are run -/

/-- A paused playback waits for ever. -/
lemma iterate_onward_paused (hstate : p.state = .paused) (hgoing : p.isCancelled play.token = false)
    (n : Nat) : ((Player.onward id)^[n] (p, .goes (.paused play))).2 = .goes (.paused play) := by
  induction n generalizing p with
  | zero => rfl
  | succ n ih =>
    have hblocked : (p.step id (.paused play)).2 = .blocked := by
      simp only [step, hgoing, Bool.false_and, hstate]
      rfl
    rw [Function.iterate_succ_apply, onward_of_blocked hblocked]
    exact ih hstate hgoing

/-- The ballad is paused by a breakpoint that its checkpoint knows. -/
def snagged : Player × Progress :=
  (onward 0)^[3] (recital ((minstrel 0 .rollback).addBreakpoint 0).2)

/-- Stepping through the ballad comes to its end, but once it is resumed without breakpoints, it
returns to the checkpoint and is paused again. -/
lemma ballad_paused_again :
    snagged.1.state = .paused ∧
      ((Walk.stride 0 1)^[15] ⟨snagged.1, snagged.2, none⟩).playback.isEnded = true ∧
      ∀ m, ((onward 0)^[m] (snagged.1.clearBreakpoints.resume.2, snagged.2)).2.isEnded = false := by
  obtain ⟨c, hc⟩ : ∃ c, c = (snagged.1.clearBreakpoints.resume.2, snagged.2) := ⟨_, rfl⟩
  have hpaused : ∀ n, ((onward 0)^[n] ((onward 0)^[5] c)).2.isEnded = false := by
    intro n
    obtain ⟨q, hq⟩ : ∃ q, q = ((onward 0)^[5] c).1 := ⟨_, rfl⟩
    have hphase :
        (onward 0)^[5] c = (q, .goes (.paused { token := ⟨1, false⟩, savedAt := 0 })) := by
      rw [hq, hc]
      rfl
    have hstate : q.state = .paused := by
      rw [hq, hc]
      rfl
    have hgoing : q.isCancelled ⟨1, false⟩ = false := by
      rw [hq, hc]
      rfl
    rw [hphase, iterate_onward_paused hstate hgoing]
    rfl
  refine ⟨rfl, rfl, fun m => ?_⟩
  rw [← hc]
  -- A playback that had ended before would have ended by then.
  by_contra hended
  have hkept : (onward 0)^[5] ((onward 0)^[m] c) = (onward 0)^[m] c :=
    Function.iterate_fixed (onward_ended (Bool.not_eq_false _ ▸ hended)) 5
  rw [← Function.iterate_add_apply, Nat.add_comm, Function.iterate_add_apply] at hkept
  rw [← hkept, hpaused] at hended
  exact hended rfl

/-- A playback that ends as soon as it goes on, and begins no line on the way, never begins another
one. -/
lemma begun_iterate_onward (h : (Player.onward id d).2.isEnded = true)
    (hbegun : (Player.onward id d).1.bus.begun = d.1.bus.begun) (m : Nat) :
    ((Player.onward id)^[m] d).1.bus.begun = d.1.bus.begun := by
  cases m with
  | zero => rfl
  | succ m =>
    rw [Function.iterate_succ_apply, Function.iterate_fixed (onward_ended h), hbegun]

/-- A line that stops the playback. -/
def curfew : Script := ⟨"curfew", [.command "@stop" (some (.stop "enough"))]⟩

/-- The curfew is paused by a breakpoint at its only line; its playback may be bound to the signal
of the caller. -/
def fermata (bound : Bool) : Player × Progress :=
  (onward 0)^[3] (((minstrel 0 .rollback).addBreakpoint 0).2,
    .goes (.entering (.play curfew .beginning bound)))

/-- A call has executed the curfew, and the playback was paused again before it took up the end that
was left for it. -/
def stranded : Player × Progress :=
  let w := (Walk.stride 0 1)^[4] ⟨(fermata false).1, (fermata false).2, none⟩
  (w.player.pause.2, w.playback)

/-- The curfew is paused, and the caller has given the signal that its playback is bound to. -/
def forsaken : Player × Progress := ((fermata true).1.cancelCaller, (fermata true).2)

/-! ### A call that never comes back -/

/-- A call attempts a command that is attempted for ever. -/
def Persists (token : Token) (w : Walk) : Prop :=
  ∃ p play line, w = ⟨p, .goes (.paused play), some (.stepping line)⟩ ∧ Halted token p.bearing ∧
    play.token = token ∧ line.Insists p.host token false

/-- It goes on with its attempts. -/
lemma Persists.stride (h : Persists token w) : Persists token (w.stride id other) := by
  obtain ⟨p, play, line, rfl, hhalted, hplay, hline⟩ := h
  have hgoing : p.isCancelled token = false := hhalted.going
  rcases retries_stepLine hgoing hline with ⟨hblocked, -⟩ | hretries
  · rw [Walk.stride_stepping_of_blocked hhalted hplay hblocked]
    exact ⟨_, play, line, rfl,
      ⟨hhalted.deferred, hhalted.going, hhalted.token, hhalted.listening, hhalted.state⟩,
      hplay, hline⟩
  · obtain ⟨hbearing, line', hgoes, hline'⟩ := hretries
    rw [Walk.stride_stepping (by rw [hgoes]; exact LineProgress.noConfusion)]
    generalize p.stepLine line = x at hbearing hgoes
    obtain ⟨q, progress⟩ := x
    obtain rfl : progress = .goes line' := hgoes
    have hhost : q.host = p.host := congrArg (fun b : Bearing => b.rest.host) hbearing
    have hqline : line'.Insists q.host token false := hhost ▸ hline'
    exact ⟨q, play, line', rfl, hbearing ▸ hhalted, hplay, hqline⟩

/-- Such a call never comes back. -/
lemma Persists.not_back (h : Persists token w) (begun : List Nat) (n : Nat) :
    ¬ Walk.Back begun ((Walk.stride id other)^[n] w) := by
  induction n generalizing w with
  | zero =>
    obtain ⟨p, play, line, rfl, -⟩ := h
    rintro (⟨hsettled, -⟩ | ⟨hended, -⟩)
    · cases hsettled
    · cases hended
  | succ n ih =>
    rw [Function.iterate_succ_apply]
    exact ih h.stride

/-- A policy that grants as many retries as a word can hold keeps a call for ever. -/
lemma ballad_kept :
    let w : Walk := ⟨(cued (2 ^ 32 - 1) .stop).1, (cued (2 ^ 32 - 1) .stop).2, none⟩
    w.isSettled = true ∧ ¬ (w.stride 0 1).Returns 0 1 w.player.bus.begun := by
  intro w
  refine ⟨rfl, ?_⟩
  have hinsists : falter.Insists w.player.host :=
    ⟨Nat.le_refl _, fun _ _ => ⟨_, rfl, rfl⟩, fun _ => rfl⟩
  have hpersists : Persists ⟨1, false⟩ ((Walk.stride 0 1)^[3] w) :=
    ⟨_, _, _, rfl, ⟨rfl, rfl, rfl, rfl, rfl⟩, rfl,
      ⟨hinsists, show 1 < 2 ^ 32 by decide, rfl, rfl⟩, _, rfl, rfl⟩
  rintro ⟨l, -, hback⟩
  match l with
  | 0 => rcases hback with ⟨hsettled, -⟩ | ⟨hended, -⟩ <;> contradiction
  | 1 => rcases hback with ⟨hsettled, -⟩ | ⟨hended, -⟩ <;> contradiction
  | l + 2 =>
    rw [← Function.iterate_succ_apply] at hback
    have hsplit : (Walk.stride 0 1)^[l + 2 + 1] w =
        (Walk.stride 0 1)^[l] ((Walk.stride 0 1)^[3] w) := Function.iterate_add_apply _ l 3 w
    rw [hsplit] at hback
    exact hpersists.not_back _ l hback

/-- Stepping is not running in three pauses.  A rollback brings back a breakpoint, which stops the
playback that was resumed; an end that was left for the playback, or a signal of the caller, ends
the playback that is resumed, whereas a call still begins a line.  And a call does not come back if
its command is attempted for ever. -/
theorem stepping_parts_from_running :
    (snagged.1.state = .paused ∧
        ((Walk.stride 0 1)^[15] ⟨snagged.1, snagged.2, none⟩).playback.isEnded = true ∧
        ∀ m, ((onward 0)^[m] (snagged.1.clearBreakpoints.resume.2, snagged.2)).2.isEnded = false) ∧
      (stranded.1.state = .paused ∧
        ((Walk.stride 0 1)^[3] ⟨stranded.1, stranded.2, none⟩).player.bus.begun = [0, 0] ∧
        ∀ m, ((onward 0)^[m] (stranded.1.clearBreakpoints.resume.2, stranded.2)).1.bus.begun =
          [0]) ∧
      (forsaken.1.state = .paused ∧
        ((Walk.stride 0 1)^[3] ⟨forsaken.1, forsaken.2, none⟩).player.bus.begun = [0] ∧
        ∀ m, ((onward 0)^[m] (forsaken.1.clearBreakpoints.resume.2, forsaken.2)).1.bus.begun =
          []) ∧
      let w : Walk := ⟨(cued (2 ^ 32 - 1) .stop).1, (cued (2 ^ 32 - 1) .stop).2, none⟩
      w.isSettled = true ∧ ¬ (w.stride 0 1).Returns 0 1 w.player.bus.begun := by
  refine ⟨ballad_paused_again, ⟨rfl, rfl, fun m => ?_⟩, ⟨rfl, rfl, fun m => ?_⟩, ballad_kept⟩
  · exact (begun_iterate_onward rfl rfl m).trans rfl
  · exact (begun_iterate_onward rfl rfl m).trans rfl

end Player

end Recital

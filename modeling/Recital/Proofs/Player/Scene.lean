import Mathlib.Algebra.Group.Nat.Defs
import Recital.Proofs.Player.RequestStep

/-!
# Scenes

A log tells of playbacks, one after the other.  A playback starts with a script, in a run of its
own; lines follow, one at a time, each with the attempts of its command; a line that was executed
may lead into another script, in a run that is a child of the one before; and the playback ends with
one event that says whether it failed.  `Scene.hear` says which event may follow in this story, and
`Scene.follow` follows a log through it.

A playback never leaves the story (`Course.tale`): whatever is done for a line is heard as the stage
that the course of the line has come to.  The log also tells the runs apart, as a child gets an
identifier that no earlier run has (`Numbers`).
-/

namespace Recital

/-! ### Hearing events -/

/-- Where a log has come to. -/
inductive Scene
  /-- No script is being played. -/
  | idle
  /-- A script is being played in a run. -/
  | playing (run : Run) (stage : Stage)
deriving DecidableEq

namespace Event.Payload

/-- An event that tells of no script, line or command. -/
def isAside : Event.Payload → Bool
  | variableChanged .. => true
  | e => e.isPlain

/-- The line that an event tells of. -/
def index? : Event.Payload → Option Nat
  | lineExecuting index _ | lineExecuted index _ | lineFailed index _ => some index
  | commandExecuting index _ | commandExecuted index _ _ | commandRetrying index .. => some index
  | _ => none

end Event.Payload

/-- How far a line has come with an event that tells of it, if the event may follow.  Attempts of
its command are numbered from one without gaps, and the number of an attempt is said when another
one is to follow.  The numbers are 32-bit words, so only a policy that grants as many retries as a
word can hold comes to an attempt whose number is zero again. -/
def Point.hear : Point → Event.Payload → Option Point
  | .begun, .commandExecuting .. => some (.flying 1)
  | .resting n, .commandExecuting .. => some (.flying (Word.next 32 n))
  | .flying n, .commandExecuted .. => some (.landed n)
  | .landed n, .commandRetrying _ _ attempt _ => if attempt = n then some (.resting n) else none
  | .begun, .lineExecuted .. | .landed _, .lineExecuted .. => some .executed
  | .begun, .lineFailed .. | .landed _, .lineFailed .. | .executed, .lineFailed .. => some .failed
  | _, _ => none

/-- The stage of a run after an event that tells of a line or a command, if the event may follow. -/
def Stage.hear : Stage → Event.Payload → Option Stage
  | σ, .lineExecuting index _ => if σ.mayGoOn then some (.line index .begun) else none
  | .line index point, e =>
    if e.index? = some index then (point.hear e).map (.line index) else none
  | .started, _ => none

/-- A line hears what its point hears. -/
lemma Stage.hear_line {index : Nat} {point next : Point} {e : Event.Payload}
    (hindex : e.index? = some index) (hhear : point.hear e = some next) :
    (Stage.line index point).hear e = some (.line index next) := by
  have hline : (Stage.line index point).hear e =
      if e.index? = some index then (point.hear e).map (.line index) else none := by
    cases e with
    | lineExecuting => cases point <;> cases hhear
    | _ => rfl
  rw [hline, if_pos hindex, hhear]
  rfl

/-- A stage hears what tells of a line or a command only. -/
lemma Stage.index?_of_hear {σ τ : Stage} {e : Event.Payload} (h : σ.hear e = some τ) :
    e.index?.isSome = true := by
  cases e with
  | lineExecuting | lineExecuted | lineFailed => rfl
  | commandExecuting | commandExecuted | commandRetrying => rfl
  | _ => cases σ <;> cases h

namespace Scene

/-- The scene after an event, if the event may follow. -/
def hear (scene : Scene) (e : Event) : Option Scene :=
  if e.payload.isAside then some scene
  else match e.payload, scene with
    | .scriptStarted _, .idle =>
      if e.run.parent = none then some (.playing e.run .started) else none
    | .scriptStarted _, .playing run (.line _ .executed) =>
      if e.run.parent = some run.id then some (.playing e.run .started) else none
    | .scriptStarted _, .playing .. => none
    -- a playback may end before its script is started
    | .scriptCompleted .., .idle | .scriptFailed .., .idle =>
      if e.run.parent = none then some .idle else none
    | .scriptCompleted .., .playing run σ | .scriptFailed .., .playing run σ =>
      if e.run = run ∧ σ.mayEnd = true then some .idle else none
    | payload, .playing run σ =>
      if e.run = run then (σ.hear payload).map (.playing run) else none
    | _, .idle => none

/-- The scene after several events, if each of them may follow. -/
def follow (scene : Scene) (news : List Event) : Option Scene := news.foldlM hear scene

variable {scene scene' : Scene} {news : List Event}

lemma hear_of_isAside {e : Event} (h : e.payload.isAside = true) : scene.hear e = some scene :=
  if_pos h

/-- An event of a line that belongs to the run that is being played. -/
lemma hear_of_stage {run : Run} {σ τ : Stage} {e : Event.Payload} (at_ : Instant)
    (h : σ.hear e = some τ) : hear (.playing run σ) ⟨e, at_, run⟩ = some (.playing run τ) := by
  have hindex := Stage.index?_of_hear h
  have hline : hear (.playing run σ) ⟨e, at_, run⟩ =
      if run = run then (σ.hear e).map (.playing run) else none := by
    cases e with
    | lineExecuting | lineExecuted | lineFailed => rfl
    | commandExecuting | commandExecuted | commandRetrying => rfl
    | _ => cases hindex
  rw [hline, if_pos rfl, h]
  rfl

end Scene

/-- Whether a playback failed, if the event tells of its end. -/
def Event.verdict? (e : Event) : Option Bool :=
  match e.payload with
  | .scriptCompleted .. => some false
  | .scriptFailed .. => some true
  | _ => none

/-- A script was started that another one has called. -/
def Event.isCall (e : Event) : Bool := e.kind == .scriptStarted && e.run.parent.isSome

lemma Event.verdict?_of_isAside {e : Event} (h : e.payload.isAside = true) : e.verdict? = none := by
  obtain ⟨payload, at_, run⟩ := e
  cases payload with
  | scriptCompleted | scriptFailed => cases h
  | _ => rfl

lemma Event.isCall_of_isAside {e : Event} (h : e.payload.isAside = true) : e.isCall = false := by
  obtain ⟨payload, at_, run⟩ := e
  cases payload with
  | scriptStarted => cases h
  | _ => rfl

/-! ### The numbers of runs -/

/-- Two numbers with the same last digits to the base 32 have the same remainder. -/
lemma Run.mod_eq_of_digits {m n k : Nat} (h : ∀ i < k, m / 32 ^ i % 32 = n / 32 ^ i % 32) :
    m % 32 ^ k = n % 32 ^ k := by
  induction k with
  | zero => simp [Nat.mod_one]
  | succ k ih =>
    rw [Nat.mod_pow_succ, Nat.mod_pow_succ, ih fun i hi => h i (Nat.lt_succ_of_lt hi),
      h k (Nat.lt_succ_self k)]

/-- Identifiers have twenty-six digits, and as many of them are different as that allows. -/
lemma Run.serial_inj {m n : Nat} (hm : m < 32 ^ 26) (hn : n < 32 ^ 26)
    (h : Run.serial m = Run.serial n) : m = n := by
  have hdigit : ∀ a < 32, ∀ b < 32, alphabet.getD a '0' = alphabet.getD b '0' → a = b := by decide
  have hdigits : ∀ i < 26, m / 32 ^ i % 32 = n / 32 ^ i % 32 := by
    intro i hi
    have hlists := List.map_inj_left.mp (String.ofList_injective h) i
      (List.mem_reverse.mpr (List.mem_range.mpr hi))
    exact hdigit _ (Nat.mod_lt _ (by decide)) _ (Nat.mod_lt _ (by decide)) hlists
  have hmod := mod_eq_of_digits hdigits
  rwa [Nat.mod_eq_of_lt hm, Nat.mod_eq_of_lt hn] at hmod

/-- The run has one of the first `n` identifiers. -/
def Run.Given (n : Nat) (run : Run) : Prop := ∃ m < n, run.id = Run.serial m

lemma Run.Given.mono {m n : Nat} {run : Run} (h : run.Given m) (hle : m ≤ n) : run.Given n := by
  obtain ⟨k, hk, hid⟩ := h
  exact ⟨k, Nat.lt_of_lt_of_le hk hle, hid⟩

/-- The events are published in runs whose identifiers were given before, and a script that is
called gets the next identifier.  Says how many were given before and after. -/
inductive Numbers : Nat → List Event → Nat → Prop
  | nil {n : Nat} : Numbers n [] n
  /-- Identifiers are given to something else. -/
  | passes {m n k : Nat} {news : List Event} (hle : m ≤ n) (h : Numbers n news k) : Numbers m news k
  | tells {n k : Nat} {e : Event} {news : List Event} (hcall : e.isCall = false)
    (hgiven : e.run.Given n) (h : Numbers n news k) : Numbers n (e :: news) k
  | calls {n k : Nat} {e : Event} {news : List Event} (hid : e.run.id = Run.serial n)
    (h : Numbers (n + 1) news k) : Numbers n (e :: news) k

namespace Numbers

variable {m n k : Nat} {news more : List Event}

lemma append (hnews : Numbers m news n) (hmore : Numbers n more k) :
    Numbers m (news ++ more) k := by
  induction hnews with
  | nil => exact hmore
  | passes hle _ ih => exact .passes hle (ih hmore)
  | tells hcall hgiven _ ih => exact .tells hcall hgiven (ih hmore)
  | calls hid _ ih => exact .calls hid (ih hmore)

lemma le (h : Numbers m news n) : m ≤ n := by
  induction h with
  | nil => exact Nat.le_refl _
  | passes hle _ ih => exact Nat.le_trans hle ih
  | tells _ _ _ ih => exact ih
  | calls _ _ ih => exact Nat.le_of_succ_le ih

/-- A script that is called gets one of the identifiers that are still to be given. -/
lemma numbered (h : Numbers m news n) {e : Event} (he : e ∈ news) (hcall : e.isCall = true) :
    ∃ k, m ≤ k ∧ k < n ∧ e.run.id = Run.serial k := by
  induction h with
  | nil => cases he
  | passes hle _ ih =>
    obtain ⟨k, hk, hlt, hid⟩ := ih he
    exact ⟨k, Nat.le_trans hle hk, hlt, hid⟩
  | tells hother _ _ ih =>
    rcases List.mem_cons.mp he with rfl | he
    · cases hother.symm.trans hcall
    · exact ih he
  | @calls n k d news hid hrest ih =>
    rcases List.mem_cons.mp he with rfl | he
    · exact ⟨n, Nat.le_refl _, hrest.le, hid⟩
    · obtain ⟨k, hk, hlt, hid⟩ := ih he
      exact ⟨k, Nat.le_of_succ_le hk, hlt, hid⟩

/-- As long as there are identifiers left, a script that is called is played in a run that no event
before it belongs to. -/
lemma fresh (h : Numbers m news n) (hleft : n ≤ 32 ^ 26) {before after : List Event} {e : Event}
    (hnews : news = before ++ e :: after) (hcall : e.isCall = true) :
    ∀ d ∈ before, d.run.id ≠ e.run.id := by
  -- an earlier identifier is another one
  have hother : ∀ {j k : Nat}, j < k → k < n → Run.serial j ≠ Run.serial k := fun hlt hk heq =>
    absurd (Run.serial_inj (by omega) (by omega) heq) (Nat.ne_of_lt hlt)
  induction h generalizing before with
  | nil => simp at hnews
  | passes _ _ ih => exact ih hleft hnews hother
  | @tells n k c rest _ hgiven hrest ih =>
    cases before with
    | nil => exact fun d hd => absurd hd List.not_mem_nil
    | cons d before =>
      obtain ⟨rfl, rfl⟩ := List.cons.inj hnews
      have he : e ∈ before ++ e :: after := List.mem_append_right _ List.mem_cons_self
      obtain ⟨i, hi, hlt, hid⟩ := hrest.numbered he hcall
      obtain ⟨j, hj, hgiven⟩ := hgiven
      refine List.forall_mem_cons.mpr ⟨?_, ih hleft rfl hother⟩
      rw [hgiven, hid]
      exact hother (Nat.lt_of_lt_of_le hj hi) hlt
  | @calls n k c rest hfirst hrest ih =>
    cases before with
    | nil => exact fun d hd => absurd hd List.not_mem_nil
    | cons d before =>
      obtain ⟨rfl, rfl⟩ := List.cons.inj hnews
      have he : e ∈ before ++ e :: after := List.mem_append_right _ List.mem_cons_self
      obtain ⟨i, hi, hlt, hid⟩ := hrest.numbered he hcall
      refine List.forall_mem_cons.mpr ⟨?_, ih hleft rfl hother⟩
      rw [hfirst, hid]
      exact hother hi hlt

lemma of_asides (hnews : ∀ e ∈ news, e.payload.isAside = true ∧ e.run.Given m) (hle : m ≤ n) :
    Numbers m news n := by
  induction news with
  | nil => exact .passes hle .nil
  | cons e news ih =>
    obtain ⟨⟨haside, hgiven⟩, hrest⟩ := List.forall_mem_cons.mp hnews
    exact .tells (Event.isCall_of_isAside haside) hgiven (ih hrest)

end Numbers

/-! ### Tales -/

/-- The events lead from one scene to another.  Says which verdicts they contain, and how many
identifiers were given before and after. -/
structure Tale (scene : Scene) (m : Nat) (news : List Event) (verdicts : List Bool) (scene' : Scene)
    (n : Nat) : Prop where
  heard : scene.follow news = some scene'
  verdicts : news.filterMap Event.verdict? = verdicts
  numbers : Numbers m news n

namespace Tale

variable {scene scene' scene'' : Scene} {news more : List Event} {ends further : List Bool}
  {m n k : Nat}

lemma trans (hfirst : Tale scene m news ends scene' n)
    (hsecond : Tale scene' n more further scene'' k) :
    Tale scene m (news ++ more) (ends ++ further) scene'' k := by
  refine ⟨?_, ?_, hfirst.numbers.append hsecond.numbers⟩
  · have hboth : scene.follow (news ++ more) = (scene.follow news).bind fun s => s.follow more :=
      List.foldlM_append
    rw [hboth, hfirst.heard]
    exact hsecond.heard
  · rw [List.filterMap_append, hfirst.verdicts, hsecond.verdicts]

lemma of_asides (hnews : ∀ e ∈ news, e.payload.isAside = true ∧ e.run.Given m) (hle : m ≤ n) :
    Tale scene m news [] scene n := by
  refine ⟨?_, ?_, .of_asides hnews hle⟩
  · induction news with
    | nil => rfl
    | cons e news ih =>
      obtain ⟨⟨haside, -⟩, hrest⟩ := List.forall_mem_cons.mp hnews
      have hstep : scene.follow (e :: news) = (scene.hear e).bind fun s => s.follow news := rfl
      rw [hstep, Scene.hear_of_isAside haside]
      exact ih hrest
  · exact List.filterMap_eq_nil_iff.mpr fun e he => Event.verdict?_of_isAside (hnews e he).1

/-- One event, which is no call. -/
lemma single {e : Event} (hhear : scene.hear e = some scene') (hcall : e.isCall = false)
    (hgiven : e.run.Given n) : Tale scene n [e] e.verdict?.toList scene' n := by
  refine ⟨?_, ?_, .tells hcall hgiven .nil⟩
  · have hstep : scene.follow [e] = (scene.hear e).bind some := rfl
    rw [hstep, hhear]
    rfl
  · cases hverdict : e.verdict? with
    | none => simp [hverdict]
    | some verdict => simp [hverdict]

/-- An event of a line that belongs to the run that is being played. -/
lemma of_line {run : Run} {σ τ : Stage} {e : Event.Payload} {at_ : Instant}
    (hhear : σ.hear e = some τ) (hgiven : run.Given n) :
    Tale (.playing run σ) n [⟨e, at_, run⟩] [] (.playing run τ) n := by
  have hindex := Stage.index?_of_hear hhear
  have hnone : Event.verdict? ⟨e, at_, run⟩ = none ∧ Event.isCall ⟨e, at_, run⟩ = false := by
    cases e with
    | lineExecuting | lineExecuted | lineFailed => exact ⟨rfl, rfl⟩
    | commandExecuting | commandExecuted | commandRetrying => exact ⟨rfl, rfl⟩
    | _ => cases hindex
  have htale := Tale.single (Scene.hear_of_stage at_ hhear) hnone.2 hgiven
  rwa [hnone.1] at htale

end Tale

lemma Event.Payload.isAside_of_isPlain {e : Event.Payload} (h : e.isPlain = true) :
    e.isAside = true := by
  cases e with
  | variableChanged => rfl
  | _ => exact h

/-! ### Lines -/

section Lines

variable {w : Work} {σ τ : Stage} {g h : Ground} {news : List Event} {remarks : List Remark}

/-- The line belongs to the run that is being played, or its script has just called another one. -/
def Work.Suits (w : Work) (run : Run) (σ : Stage) : Prop := w.run = run ∨ σ = .started

/-- Every run that a line publishes events for has its identifier. -/
structure Work.Given (w : Work) (g : Ground) : Prop where
  work : w.run.Given g.serial
  ground : g.run.Given g.serial

lemma Work.Suits.of_line {run : Run} {index : Nat} {point : Point}
    (h : w.Suits run (.line index point)) : w.run = run :=
  h.resolve_right Stage.noConfusion

/-- What is done for a line is heard as the stage that it has come to. -/
lemma Deed.tale (hdeed : Deed w σ g news remarks τ h) (hw : w.Suits g.run σ) (hgiven : w.Given g)
    (hcalled : ∀ caller, .called caller ∈ remarks → caller = g.run) :
    Tale (.playing g.run σ) g.serial news [] (.playing h.run τ) h.serial ∧ w.Suits h.run τ ∧
      w.Given h := by
  have hrun : ∀ {run : Run}, run = w.run ∨ run = g.run → run.Given g.serial := by
    rintro run (rfl | rfl)
    · exact hgiven.work
    · exact hgiven.ground
  have hline : ∀ {index : Nat} {point : Point} {τ : Stage} {e : Event.Payload} {at_ : Instant}
      {k : Ground}, σ = .line index point → k.run = g.run → k.serial = g.serial →
      σ.hear e = some τ →
      Tale (.playing g.run σ) g.serial [⟨e, at_, w.run⟩] [] (.playing k.run τ) k.serial ∧
        w.Suits k.run τ ∧ w.Given k := by
    rintro index point τ e at_ k rfl hkrun hkserial hhear
    have hsame := hw.of_line
    refine ⟨?_, .inl (hsame.trans hkrun.symm), ⟨hkserial ▸ hgiven.work, ?_⟩⟩
    · rw [hsame, hkrun, hkserial]
      exact .of_line hhear hgiven.ground
    · rw [hkrun, hkserial]
      exact hgiven.ground
  cases hdeed with
  | tells hplain hwhose =>
    refine ⟨.of_asides (fun d hd => ?_) (Nat.le_refl _), hw, hgiven⟩
    rw [List.mem_singleton.mp hd]
    exact ⟨Event.Payload.isAside_of_isPlain hplain, hrun hwhose⟩
  | assigns hwhose =>
    refine ⟨.of_asides (fun d hd => ?_) (Nat.le_refl _), hw, ⟨hgiven.work, hgiven.ground⟩⟩
    rw [List.mem_singleton.mp hd]
    exact ⟨rfl, hrun hwhose⟩
  | clears hwhose =>
    refine ⟨.of_asides (fun d hd => ?_) (Nat.le_refl _), hw, ⟨hgiven.work, hgiven.ground⟩⟩
    obtain ⟨name, -, rfl⟩ := List.mem_map.mp hd
    exact ⟨rfl, hrun hwhose⟩
  | restores =>
    exact ⟨.of_asides (fun d hd => absurd hd List.not_mem_nil) (Nat.le_refl _), hw,
      ⟨hgiven.work, hgiven.ground⟩⟩
  | begins hσ hsame =>
    have hhear : σ.hear (.lineExecuting w.index w.source) = some (.line w.index .begun) := by
      have hfirst : σ.hear (.lineExecuting w.index w.source) =
          if σ.mayGoOn then some (.line w.index .begun) else none := by
        cases σ <;> rfl
      rw [hfirst, if_pos hσ]
    refine ⟨?_, .inl hsame, hgiven⟩
    rw [hsame]
    exact .of_line hhear hgiven.ground
  | launches | launchesAgain | lands | interrupts =>
    exact hline rfl rfl rfl (Stage.hear_line rfl rfl)
  | @retries g at_ type n delay =>
    have hhear : (Point.landed n).hear (.commandRetrying w.index type n delay) =
        some (.resting n) :=
      if_pos rfl
    exact hline rfl rfl rfl (Stage.hear_line rfl hhear)
  | @executes g at_ point hpoint =>
    have hhear : point.hear (.lineExecuted w.index w.source) = some .executed := by
      cases point with
      | begun | landed => rfl
      | _ => cases hpoint
    exact hline rfl rfl rfl (Stage.hear_line rfl hhear)
  | @fails g at_ point fault hpoint =>
    have hhear : point.hear (.lineFailed w.index fault) = some .failed := by
      cases point with
      | begun | landed | executed => rfl
      | _ => rcases hpoint with hpoint | hpoint <;> cases hpoint
    exact hline rfl rfl rfl (Stage.hear_line rfl hhear)
  | @enters g at_ caller name script c hc =>
    obtain rfl : caller = g.run := hcalled caller List.mem_cons_self
    have hhear : Scene.follow (.playing g.run (.line w.index .executed))
        [⟨.scriptStarted name, at_, g.run.child g.serial⟩] =
        (if some g.run.id = some g.run.id then
          some (.playing (g.run.child g.serial) .started) else none : Option Scene).bind some := rfl
    refine ⟨⟨?_, rfl, .calls rfl .nil⟩, .inr rfl, ⟨hgiven.work.mono (Nat.le_succ _), ?_⟩⟩
    · rw [hhear, if_pos rfl]
      rfl
    · exact ⟨g.serial, Nat.lt_succ_self _, rfl⟩

/-- Nothing but a call leads into another run. -/
lemma Deed.run_of_uncalled (hdeed : Deed w σ g news remarks τ h)
    (huncalled : ∀ caller, .called caller ∉ remarks) : h.run = g.run := by
  cases hdeed with
  | enters => exact absurd List.mem_cons_self (huncalled _)
  | _ => rfl

/-- The course of a line that calls no script. -/
lemma Course.tale_of_uncalled (hcourse : Course w σ g news remarks τ h) (hw : w.Suits g.run σ)
    (hgiven : w.Given g) (huncalled : ∀ caller, .called caller ∉ remarks) :
    Tale (.playing g.run σ) g.serial news [] (.playing h.run τ) h.serial ∧ w.Suits h.run τ ∧
      w.Given h := by
  induction hcourse with
  | done =>
    exact ⟨.of_asides (fun e he => absurd he List.not_mem_nil) (Nat.le_refl _), hw, hgiven⟩
  | next hdeed _ ih =>
    obtain ⟨hfirst, hw', hgiven'⟩ := hdeed.tale hw hgiven fun caller hmem =>
      absurd (List.mem_append_left _ hmem) (huncalled caller)
    obtain ⟨hsecond, hrest⟩ :=
      ih hw' hgiven' fun caller hmem => huncalled caller (List.mem_append_right _ hmem)
    exact ⟨hfirst.trans hsecond, hrest⟩

/-- The course of a line, which may call a script from the run that is being played. -/
lemma Course.tale (hcourse : Course w σ g news remarks τ h) (hw : w.Suits g.run σ)
    (hgiven : w.Given g)
    (hcalled : (∀ caller, .called caller ∉ remarks) ∨ remarks = [.called g.run]) :
    Tale (.playing g.run σ) g.serial news [] (.playing h.run τ) h.serial ∧ w.Suits h.run τ ∧
      w.Given h := by
  rcases hcalled with huncalled | hcalled
  · exact hcourse.tale_of_uncalled hw hgiven huncalled
  · induction hcourse with
    | done => cases hcalled
    | next hdeed hrest ih =>
      rcases List.append_eq_singleton_iff.mp hcalled with ⟨rfl, hfurther⟩ | ⟨rfl, rfl⟩
      -- the call is still to come
      · have hrun := hdeed.run_of_uncalled fun _ => List.not_mem_nil
        obtain ⟨hfirst, hw', hgiven'⟩ := hdeed.tale hw hgiven fun _ hmem =>
          absurd hmem List.not_mem_nil
        obtain ⟨hsecond, hrest⟩ := ih hw' hgiven' (by rw [hfurther, hrun])
        exact ⟨hfirst.trans hsecond, hrest⟩
      · obtain ⟨hfirst, hw', hgiven'⟩ := hdeed.tale hw hgiven fun caller hmem =>
          Remark.called.inj (List.mem_singleton.mp hmem)
        obtain ⟨hsecond, hlast⟩ :=
          hrest.tale_of_uncalled hw' hgiven' fun _ => List.not_mem_nil
        exact ⟨hfirst.trans hsecond, hlast⟩

end Lines

/-- Where a playback stands that waits for something. -/
inductive Phase.Plays (run : Run) : Phase → Scene → Prop
  | preloading {token : Token} {name : String} {until_ : Nat} (hroot : run.parent = none) :
    Plays run (.preloading token run name until_) .idle
  | between {phase : Phase} {σ : Stage} (htoken : phase.token?.isSome = true)
    (hline : phase.line? = none) (hlate : phase.isEarly = false) (hσ : σ.mayGoOn = true) :
    Plays run phase (.playing run σ)
  | playing {play : Play} {line : LinePhase} (hwork : line.work.run = run)
    (hcaller : ∀ w caller script recovered, line = .switching w caller script recovered →
      caller = run) : Plays run (.playing play line) (.playing run line.stage)

namespace Player

variable {p q r : Player} {id : Nat} {phase : Phase} {play : Play} {σ τ : Stage}
  {scene scene' scene'' : Scene} {ends : List Bool} {x : Player × Progress} {run : Run}

/-! ### Playbacks -/

/-- What was published leads from one scene to another. -/
def Recites (scene : Scene) (p : Player) (verdicts : List Bool) (scene' : Scene) (q : Player) :
    Prop :=
  ∃ news, q.bus = p.bus.tell news ∧ Tale scene p.serial news verdicts scene' q.serial

lemma Recites.trans (hpq : Recites scene p [] scene' q) (hqr : Recites scene' q ends scene'' r) :
    Recites scene p ends scene'' r := by
  obtain ⟨news, hbus, htale⟩ := hpq
  obtain ⟨more, hbus', htale'⟩ := hqr
  exact ⟨news ++ more, by rw [hbus', hbus, Bus.tell_append], htale.trans htale'⟩

/-- Asides are published. -/
lemma recites_asides {news : List Event} (hbus : q.bus = p.bus.tell news)
    (hnews : ∀ e ∈ news, e.payload.isAside = true ∧ e.run = run) (hrun : run.Given p.serial)
    (hle : p.serial ≤ q.serial) : Recites scene p [] scene q :=
  ⟨news, hbus, .of_asides (fun e he => ⟨(hnews e he).1, (hnews e he).2 ▸ hrun⟩) hle⟩

lemma PublishesPlain.recites (h : PublishesPlain p q) (hgiven : p.run.Given p.serial) :
    Recites scene p [] scene q := by
  obtain ⟨news, hnews, hbus⟩ := h.news
  exact recites_asides hbus
    (fun e he => (hnews e he).imp_left Event.Payload.isAside_of_isPlain) hgiven h.serial

lemma PublishesPlain.run_eq (h : PublishesPlain p q) :
    q.run = p.run := (congrArg Ground.run h.ground).trans rfl

/-- A line pursues its course. -/
lemma Pursues.recites {w : Work} {remarks : List Remark} (h : Pursues w σ p remarks τ q)
    (hw : w.Suits p.run σ) (hwork : w.run.Given p.serial) (hgiven : p.run.Given p.serial)
    (hcalled : (∀ caller, .called caller ∉ remarks) ∨ remarks = [.called p.run]) :
    Recites (.playing p.run σ) p [] (.playing q.run τ) q ∧ w.Suits q.run τ ∧
      q.run.Given q.serial := by
  obtain ⟨news, hcourse, hbus⟩ := h.course
  obtain ⟨htale, hw', hgiven'⟩ := hcourse.tale (g := p.ground) hw ⟨hwork, hgiven⟩ hcalled
  exact ⟨⟨news, hbus, htale⟩, hw', hgiven'.ground⟩

/-- What becomes of a playback: it waits for something where the log has come to, or it has ended
with an event that says whether it failed. -/
inductive Performs (scene : Scene) (p : Player) : Player × Progress → Prop
  | goes {q : Player} {next : Phase} {scene' : Scene} (h : Recites scene p [] scene' q)
    (hgiven : q.run.Given q.serial) (hplays : next.Plays q.run scene') :
    Performs scene p (q, .goes next)
  | ends {q : Player} {report : Report} (h : Recites scene p [report.fault.isSome] .idle q)
    (hgiven : q.run.Given q.serial) : Performs scene p (q, .ends (.report report))

lemma Performs.after (h : Performs scene' q x) (hpq : Recites scene p [] scene' q) :
    Performs scene p x := by
  cases h with
  | goes h hgiven hplays => exact .goes (hpq.trans h) hgiven hplays
  | ends h hgiven => exact .ends (hpq.trans h) hgiven

/-- The end of a playback is told where the playback may end. -/
lemma Finished.performs {report : Report} (h : Finished report p x) (hgiven : p.run.Given p.serial)
    (hscene : scene = .idle ∧ p.run.parent = none ∨
      ∃ σ, scene = .playing p.run σ ∧ σ.mayEnd = true) : Performs scene p x := by
  obtain ⟨q, progress⟩ := x
  obtain ⟨hends, ⟨news, at_, hnews, hbus⟩, hground, -⟩ := h
  have hrun : q.run = p.run := congrArg Ground.run hground
  have hserial : q.serial = p.serial := congrArg Ground.serial hground
  cases hends
  have hasides : Tale scene p.serial news [] scene p.serial :=
    .of_asides (fun e he => ⟨Event.Payload.isAside_of_isPlain (hnews e he).1,
      (hnews e he).2 ▸ hgiven⟩) (Nat.le_refl _)
  have hhear : scene.hear ⟨report.news, at_, p.run⟩ = some .idle := by
    unfold Report.news
    rcases hscene with ⟨rfl, hroot⟩ | ⟨σ, rfl, hσ⟩
    · cases report.fault <;> exact if_pos hroot
    · have hlast : p.run = p.run ∧ σ.mayEnd = true := ⟨rfl, hσ⟩
      cases report.fault <;> exact if_pos hlast
  have hend : Event.isCall ⟨report.news, at_, p.run⟩ = false ∧
      Event.verdict? ⟨report.news, at_, p.run⟩ = some report.fault.isSome := by
    unfold Report.news
    cases report.fault <;> exact ⟨rfl, rfl⟩
  have htale := hasides.trans (Tale.single hhear hend.1 hgiven)
  rw [hend.2] at htale
  refine .ends ⟨_, hbus, ?_⟩ (by rw [hrun, hserial]; exact hgiven)
  rw [hserial]
  exact htale

/-- A playback goes on between two lines, or it ends. -/
lemma PlaysNoLine.performs {token : Token} (h : PlaysNoLine token p x)
    (hgiven : p.run.Given p.serial)
    (hσ : σ.mayGoOn = true) : Performs (.playing p.run σ) p x := by
  cases h with
  | goes htoken hline hlate hq =>
    have hrecites : Recites (.playing p.run σ) p _ _ _ := hq.recites hgiven
    refine .goes hrecites (by rw [hq.run_eq]; exact hgiven.mono hq.serial) ?_
    rw [hq.run_eq]
    exact .between (by rw [htoken]; rfl) hline hlate hσ
  | ends hx => exact hx.performs hgiven (.inr ⟨σ, rfl, Stage.mayEnd_of_mayGoOn hσ⟩)

/-- A playback whose line has ended at a stage that suits its end. -/
lemma performs_afterLine {by_ : LineEnd} (hgiven : p.run.Given p.serial)
    (hby : by_.suits σ = true) : Performs (.playing p.run σ) p (p.afterLine id play by_) := by
  cases by_ with
  | next => exact playsNoLine_afterLine.performs hgiven hby
  | finished f =>
    obtain ⟨q, hq⟩ : ∃ q, q = { p with lineLock := p.lineLock.release } := ⟨_, rfl⟩
    obtain ⟨report, hfinished⟩ := finished_finish q f
    have hreleased : TellsPlain p.run p q := hq ▸ .of_eq rfl rfl rfl
    rw [show p.afterLine id play (.finished f) = q.finish f from hq ▸ rfl]
    exact (hfinished.after hreleased).performs hgiven (.inr ⟨σ, rfl, hby⟩)

/-- A script is started. -/
lemma Introduces.recites {name : String} (h : Introduces p.run name p q)
    (hgiven : p.run.Given p.serial) (hroot : p.run.parent = none) :
    Recites .idle p [] (.playing q.run .started) q ∧ q.run.Given q.serial := by
  obtain ⟨news, at_, hnews, hbus⟩ := h.news
  have hrun : q.run = p.run := (congrArg Ground.run h.ground).trans rfl
  have hserial : q.serial = p.serial := (congrArg Ground.serial h.ground).trans rfl
  have hhear : Scene.hear .idle ⟨.scriptStarted name, at_, p.run⟩ =
      some (.playing p.run .started) := if_pos hroot
  have hcall : Event.isCall ⟨.scriptStarted name, at_, p.run⟩ = false := by
    simp [Event.isCall, hroot]
  have hrest : Tale (.playing p.run .started) p.serial news [] (.playing p.run .started) p.serial :=
    .of_asides (fun e he => ⟨Event.Payload.isAside_of_isPlain (hnews e he).1,
      (hnews e he).2 ▸ hgiven⟩) (Nat.le_refl _)
  rw [hrun, hserial]
  refine ⟨⟨_, hbus, ?_⟩, hgiven⟩
  rw [hserial]
  exact (Tale.single hhear hcall hgiven).trans hrest

/-- A playback gets a run of its own. -/
lemma Prepares.recites {script : Script} (h : Prepares script p q) :
    Recites .idle p [] .idle q ∧ q.run.Given q.serial ∧ q.run.parent = none := by
  obtain ⟨news, hnews, hbus⟩ := h.news
  have hgiven : q.run.Given q.serial := by
    rw [h.run, h.serial]
    exact ⟨p.serial, Nat.lt_succ_self _, rfl⟩
  refine ⟨⟨news, hbus, ?_⟩, hgiven, by rw [h.run]; rfl⟩
  have hasides : Tale .idle q.serial news [] .idle q.serial :=
    .of_asides (fun e he => ⟨Event.Payload.isAside_of_isPlain (hnews e he).1,
      (hnews e he).2 ▸ hgiven⟩) (Nat.le_refl _)
  exact ⟨hasides.heard, hasides.verdicts,
    .passes (by rw [h.serial]; exact Nat.le_succ _) hasides.numbers⟩

/-- A request to play that passes the gate starts a playback. -/
lemma Enrolls.performs {script : Script} {bound : Bool} (h : Enrolls script bound p x)
    (hup : p.isShutDown = false) : Performs .idle p x := by
  cases h with
  | refused hshut => cases hup.symm.trans hshut
  | ends hq _ hx =>
    obtain ⟨hrecites, hgiven, hroot⟩ := hq.recites
    exact (hx.performs hgiven (.inl ⟨rfl, hroot⟩)).after hrecites
  | waits hq =>
    obtain ⟨hrecites, hgiven, hroot⟩ := hq.recites
    exact .goes hrecites hgiven (.preloading hroot)
  | starts hq _ hr hx =>
    obtain ⟨hrecites, hgiven, hroot⟩ := hq.recites
    obtain ⟨hstarted, hgiven'⟩ := hr.recites hgiven hroot
    exact ((hx.performs hgiven' rfl).after hstarted).after hrecites

/-- A playback calls no script but from its own run. -/
lemma stepRemarks_called (id : Nat) (hplays : phase.Plays p.run scene) :
    (∀ caller, .called caller ∉ p.stepRemarks id phase) ∨
      p.stepRemarks id phase = [.called p.run] := by
  have hrestored : ∀ (c : Option Snapshot) (caller : Run),
      .called caller ∉ c.toList.map Remark.restored := by
    intro c caller hmem
    obtain ⟨s, -, heq⟩ := List.mem_map.mp hmem
    cases heq
  have hunlined : phase.line? = none → ∀ caller, .called caller ∉ p.stepRemarks id phase := by
    intro hline caller
    unfold stepRemarks
    rw [hline]
    exact hrestored _ caller
  cases hplays with
  | preloading => exact .inl (hunlined rfl)
  | between _ hline => exact .inl (hunlined hline)
  | @playing play line hwork hcaller =>
    have hremarks : p.stepRemarks id (.playing play line) = p.remarks line := rfl
    rw [hremarks]
    cases line with
    | switching w caller script recovered =>
      have hsame := hcaller w caller script recovered rfl
      have hswitch : p.remarks (.switching w caller script recovered) =
          if (p.fetch w script).isOk then [.called caller] else [] := rfl
      rw [hswitch, hsame]
      split
      · exact .inr rfl
      · exact .inl fun _ => List.not_mem_nil
    | flying | resting | presenting =>
      refine .inl fun caller => ?_
      simp only [remarks]
      split
      · simp
      · exact hrestored _ caller

/-- A playback goes on with the story. -/
lemma performs_step (id : Nat) (hplays : phase.Plays p.run scene) (hgiven : p.run.Given p.serial)
    (hready : (p.step id phase).2 ≠ .blocked) : Performs scene p (p.step id phase) := by
  -- a line follows its course, if the stage is the one that the log has come to
  have hlines : ∀ {σ : Stage}, scene = .playing p.run σ → phase.token?.isSome = true →
      phase.isEarly = false → (phase.line? = none → σ.mayGoOn = true) →
      (∀ line, phase.line? = some line → σ = line.stage ∧ line.work.run = p.run) →
      Performs scene p (p.step id phase) := by
    rintro σ rfl htoken hlate hσ hlined
    have hcalled := stepRemarks_called id hplays
    have hproceeds : Proceeds id σ p phase (p.step id phase) :=
      p.proceeds_step id phase hready hσ fun line hline => (hlined line hline).1
    have hrun : ∀ {w : Work}, (∀ line, phase.line? = some line → w = line.work) →
        (phase.line? = none → w.run = p.run) → w.run = p.run := by
      intro w hwork hunlined
      cases hline : phase.line? with
      | none => exact hunlined hline
      | some line =>
        rw [hwork line hline]
        exact (hlined line hline).2
    have hunstepped : phase.isStep = false := by
      cases phase with
      | stepLock | stepping | entering => cases htoken
      | _ => rfl
    generalize p.step id phase = x at hproceeds
    cases hproceeds with
    | @flies w q next line _ hq hwork hunlined hw hcaller hnext hsame hstep =>
      have hown := hrun hwork hunlined
      obtain ⟨hrecites, hw', hgiven'⟩ :=
        hq.recites (.inl hown) (by rw [hown]; exact hgiven) hgiven hcalled
      have hwrun : w.run = q.run := by
        cases line <;> exact hw'.of_line
      have hplaying : ∃ play, next = .playing play line := by
        cases next with
        | playing play l =>
          cases hnext
          exact ⟨play, rfl⟩
        | stepping => cases hunstepped.symm.trans hstep.symm
        | _ => cases hnext
      obtain ⟨play, rfl⟩ := hplaying
      refine .goes hrecites hgiven' (.playing (by rw [hw]; exact hwrun) ?_)
      intro w' caller script recovered hline
      obtain rfl : w' = w := by rw [← hw, hline]; rfl
      exact hcaller caller script recovered hline
    | plays _ hq hwork hunlined hby =>
      have hown := hrun hwork hunlined
      obtain ⟨hrecites, -, hgiven'⟩ :=
        hq.recites (.inl hown) (by rw [hown]; exact hgiven) hgiven hcalled
      exact (performs_afterLine hgiven' hby).after hrecites
    | steps _ _ hstep => cases hunstepped.symm.trans hstep
    | playsNoLine _ hline _ hx => exact hx.performs hgiven (hσ hline)
    | starts hphase =>
      rw [hphase] at hlate
      cases hlate
    | enrolls hphase =>
      rw [hphase] at htoken
      cases htoken
    | resets hphase =>
      rw [hphase] at htoken
      cases htoken
    | tends hnone =>
      rw [hnone] at htoken
      cases htoken
  cases hplays with
  | @preloading token name until_ hroot =>
    rw [step_preloading hready]
    rcases p.startLines_cases id token p.run name with ⟨report, hx⟩ | ⟨q, hq, hx⟩
    · exact hx.performs hgiven (.inl ⟨rfl, hroot⟩)
    · obtain ⟨hrecites, hgiven'⟩ := hq.recites hgiven hroot
      exact (hx.performs hgiven' rfl).after hrecites
  | between htoken hline hlate hσ =>
    refine hlines rfl htoken hlate (fun _ => hσ) fun line hsome => ?_
    cases hline.symm.trans hsome
  | @playing play line hwork hcaller =>
    refine hlines rfl rfl rfl (fun hnone => by cases hnone) fun l hl => ?_
    cases hl
    exact ⟨rfl, hwork⟩

end Player

end Recital

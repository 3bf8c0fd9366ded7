import Recital.Proofs.Session.OpenBus
import Recital.Proofs.Word

/-!
# The log determines the accounts

The variables of a playback and the counts of its lines and commands are kept in other places than
the events that tell of them.  Still, each deed of a line changes both alike (`Deed.tallies`), and a
step without a line changes neither.  So the accounts can be read off the log, from any moment on
and in any session: the variables are those of that moment after the changes that were told since
(`replay`), and the counts have grown by the events that were published (`Tallies`).

Where a snapshot is installed, nothing of the kind can be said, as no event tells what was
installed; the reading starts afresh (`Player.installs`).  And an attempt that is cut short by the
cancellation of its playback is told, but not counted (`Player.cutsShort`).

The counters are 64-bit words, and a snapshot may set them to any word.  So they grow by what is
told as long as the sum is a word, and else but for whole turns of the word (`Word.Grows`).  A
variable is written before its event is published; nothing waits between, but a thread that looks at
the variables at that moment sees them that one event ahead of the log.  Commands reach the
variables through their effects only, and publish nothing themselves.
-/

namespace Recital

/-! ### Reading the log -/

/-- The variables after what an event tells. -/
def Event.revise (vars : Table Json) (e : Event) : Table Json :=
  match e.payload with
  | .variableChanged name (some value) => vars.insert name value
  | .variableChanged name none => vars.erase name
  | _ => vars

/-- The variables after what several events tell, one after the other. -/
def replay (vars : Table Json) (news : List Event) : Table Json := news.foldl Event.revise vars

/-- How many of the events are of a kind. -/
def census (kind : Event.Kind) (news : List Event) : Nat := news.countP (·.kind == kind)

/-- The accounts at the end are what the events tell, apart from attempts that were cut short. -/
structure Tallies (g : Ground) (news : List Event) (cut : Nat) (h : Ground) : Prop where
  vars : h.vars = replay g.vars news
  lines : Word.Grows 64 (census .lineExecuted news) g.lines h.lines
  commands : ∃ counted, counted + cut = census .commandExecuted news ∧
    Word.Grows 64 counted g.commands h.commands

namespace Tallies

variable {g h k : Ground} {news more : List Event} {m n : Nat}

/-- No line or command is told, and none is counted. -/
lemma of_uncounted (hvars : h.vars = replay g.vars news) (hlines : h.lines = g.lines)
    (hcommands : h.commands = g.commands) (hnoLine : census .lineExecuted news = 0)
    (hnoCommand : census .commandExecuted news = 0) : Tallies g news 0 h where
  vars := hvars
  lines := by
    rw [hnoLine, hlines]
    exact .refl _ _
  commands := by
    refine ⟨0, hnoCommand.symm, ?_⟩
    rw [hcommands]
    exact .refl _ _

lemma refl (g : Ground) : Tallies g [] 0 g := .of_uncounted rfl rfl rfl rfl rfl

lemma trans (hgh : Tallies g news m h) (hhk : Tallies h more n k) :
    Tallies g (news ++ more) (m + n) k := by
  have hcount : ∀ kind, census kind (news ++ more) = census kind news + census kind more :=
    fun kind => List.countP_append
  refine ⟨?_, ?_, ?_⟩
  · rw [hhk.vars, hgh.vars]
    exact List.foldl_append.symm
  · rw [hcount]
    exact hgh.lines.trans hhk.lines
  · obtain ⟨counted, hcounted, hfirst⟩ := hgh.commands
    obtain ⟨counted', hcounted', hsecond⟩ := hhk.commands
    refine ⟨counted + counted', ?_, hfirst.trans hsecond⟩
    rw [hcount]
    omega

/-- Events that tell of no variable, line or command leave the accounts as they are. -/
lemma of_silent (hsilent : ∀ e ∈ news, e.kind ≠ .variableChanged ∧ e.kind ≠ .lineExecuted ∧
    e.kind ≠ .commandExecuted) (hvars : h.vars = g.vars) (hlines : h.lines = g.lines)
    (hcommands : h.commands = g.commands) : Tallies g news 0 h := by
  have hnone : ∀ kind, (∀ e ∈ news, e.kind ≠ kind) → census kind news = 0 := fun kind hkind =>
    List.countP_eq_zero.mpr fun e he => by simpa using hkind e he
  have hreplay : ∀ (vars : Table Json) (news : List Event),
      (∀ e ∈ news, e.kind ≠ .variableChanged) → replay vars news = vars := by
    intro vars news hquiet
    induction news with
    | nil => rfl
    | cons e news ih =>
      obtain ⟨hhead, hrest⟩ := List.forall_mem_cons.mp hquiet
      have hrevise : Event.revise vars e = vars := by
        obtain ⟨payload, at_, run⟩ := e
        cases payload with
        | variableChanged => exact absurd rfl hhead
        | _ => rfl
      show replay (Event.revise vars e) news = vars
      rw [hrevise]
      exact ih hrest
  refine .of_uncounted ?_ hlines hcommands ?_ ?_
  · rw [hvars, hreplay g.vars news fun e he => (hsilent e he).1]
  · exact hnone _ fun e he => (hsilent e he).2.1
  · exact hnone _ fun e he => (hsilent e he).2.2

lemma of_plain (hplain : ∀ e ∈ news, e.payload.isPlain = true) (hvars : h.vars = g.vars)
    (hlines : h.lines = g.lines) (hcommands : h.commands = g.commands) : Tallies g news 0 h := by
  refine .of_silent (fun e he => ?_) hvars hlines hcommands
  have hkind := hplain e he
  obtain ⟨payload, at_, run⟩ := e
  cases payload with
  | stateChanged | progressChanged | breakpointHit =>
    exact ⟨Event.Kind.noConfusion, Event.Kind.noConfusion, Event.Kind.noConfusion⟩
  | _ => cases hkind

end Tallies

/-- Once every name of a table is removed, nothing is left. -/
lemma replay_keys (vars : Table Json) (run : Run) (at_ : Instant) :
    replay vars (vars.keys.map fun name => ⟨.variableChanged name none, at_, run⟩) = ∅ := by
  have hentries : ∀ (names : List String) (t : Table Json),
      (replay t (names.map fun name => ⟨.variableChanged name none, at_, run⟩)).entries =
        t.entries.filter fun e => !names.contains e.1 := by
    intro names
    induction names with
    | nil => intro t; simp [replay]
    | cons name names ih =>
      intro t
      have hstep : (replay t ((name :: names).map fun name =>
          ⟨.variableChanged name none, at_, run⟩)) =
          replay (t.erase name) (names.map fun name => ⟨.variableChanged name none, at_, run⟩) :=
        rfl
      rw [hstep, ih, Table.erase, List.filter_filter]
      congr 1
      funext e
      by_cases hname : e.1 = name <;> simp [hname]
  refine Table.ext ?_
  rw [hentries]
  refine List.filter_eq_nil_iff.mpr fun e he => ?_
  have hmem : e.1 ∈ vars.keys := List.mem_map_of_mem he
  simpa using hmem

/-! ### The deeds of a line -/

/-- How many attempts were cut short. -/
def Remark.cuts (remarks : List Remark) : Nat :=
  remarks.countP fun
    | .interrupted => true
    | .restored _ | .called _ => false

/-- The accounts grow with each deed by what is told, unless it is the return to a snapshot. -/
lemma Deed.tallies {w : Work} {σ τ : Stage} {g h : Ground} {news : List Event}
    {remarks : List Remark} (hdeed : Deed w σ g news remarks τ h)
    (hstays : ∀ s, .restored s ∉ remarks) : Tallies g news (Remark.cuts remarks) h := by
  cases hdeed with
  | tells hplain => exact .of_plain (by simpa using hplain) rfl rfl rfl
  | assigns => exact .of_uncounted rfl rfl rfl rfl rfl
  | @clears σ g run at_ =>
    have hcount : ∀ kind, kind ≠ .variableChanged → census kind (g.vars.keys.map fun name =>
        ⟨.variableChanged name none, at_, run⟩) = 0 := by
      intro kind hkind
      refine List.countP_eq_zero.mpr fun e he => ?_
      obtain ⟨name, -, rfl⟩ := List.mem_map.mp he
      exact fun h => hkind (beq_iff_eq.mp h).symm
    exact .of_uncounted (replay_keys _ _ _).symm rfl rfl (hcount _ Event.Kind.noConfusion)
      (hcount _ Event.Kind.noConfusion)
  | restores => exact absurd List.mem_cons_self (hstays _)
  | begins | launches | launchesAgain | retries | fails | enters =>
    exact .of_uncounted rfl rfl rfl rfl rfl
  | executes => exact ⟨rfl, .next 64 _, 0, rfl, .refl 64 _⟩
  | lands => exact ⟨rfl, .refl 64 _, 1, rfl, .next 64 _⟩
  | interrupts => exact ⟨rfl, .refl 64 _, 0, rfl, .refl 64 _⟩

/-- The accounts grow with the course of a line by what is told. -/
lemma Course.tallies {w : Work} {σ τ : Stage} {g h : Ground} {news : List Event}
    {remarks : List Remark} (hcourse : Course w σ g news remarks τ h)
    (hstays : ∀ s, .restored s ∉ remarks) : Tallies g news (Remark.cuts remarks) h := by
  induction hcourse with
  | done => exact .refl _
  | next hdeed _ ih =>
    have hfirst := hdeed.tallies fun s hs => hstays s (List.mem_append_left _ hs)
    have hsecond := ih fun s hs => hstays s (List.mem_append_right _ hs)
    have hcuts := hfirst.trans hsecond
    rwa [show ∀ a b : List Remark, Remark.cuts a + Remark.cuts b = Remark.cuts (a ++ b) from
      fun a b => List.countP_append.symm] at hcuts

namespace Player

variable {p q r : Player} {id : Nat} {phase : Phase} {x : Player × Progress} {m n : Nat}

/-! ### Steps -/

/-- The accounts of a player have grown by what was told. -/
def Accounts (p : Player) (cut : Nat) (q : Player) : Prop :=
  ∃ news, q.bus = p.bus.tell news ∧ Tallies p.ground news cut q.ground

lemma Accounts.trans (hpq : Accounts p m q) (hqr : Accounts q n r) : Accounts p (m + n) r := by
  obtain ⟨news, hbus, htallies⟩ := hpq
  obtain ⟨more, hbus', htallies'⟩ := hqr
  exact ⟨news ++ more, by rw [hbus', hbus, Bus.tell_append], htallies.trans htallies'⟩

lemma Pursues.accounts {w : Work} {σ τ : Stage} {remarks : List Remark}
    (h : Pursues w σ p remarks τ q) (hstays : ∀ s, .restored s ∉ remarks) :
    Accounts p (Remark.cuts remarks) q := by
  obtain ⟨news, hcourse, hbus⟩ := h.course
  exact ⟨news, hbus, hcourse.tallies hstays⟩

lemma PublishesPlain.accounts (h : PublishesPlain p q) : Accounts p 0 q := by
  obtain ⟨news, hnews, hbus⟩ := h.news
  exact ⟨news, hbus, .of_plain (fun e he => (hnews e he).1)
    ((congrArg Ground.vars h.ground).trans rfl)
    ((congrArg Ground.lines h.ground).trans rfl) ((congrArg Ground.commands h.ground).trans rfl)⟩

/-- The event that tells of the end of a playback tells of no variable, line or command. -/
lemma Finished.accounts {report : Report} (h : Finished report p x) : Accounts p 0 x.1 := by
  obtain ⟨news, at_, hnews, hbus⟩ := h.news
  have hplain : Tallies p.ground news 0 p.ground :=
    .of_plain (fun e he => (hnews e he).1) rfl rfl rfl
  have hend : Tallies p.ground [⟨report.news, at_, p.run⟩] 0 x.1.ground := by
    have hkind : report.news.kind = .scriptFailed ∨ report.news.kind = .scriptCompleted := by
      unfold Report.news
      split
      · exact .inl rfl
      · exact .inr rfl
    rw [h.ground]
    refine .of_silent (fun e he => ?_) rfl rfl rfl
    rw [List.mem_singleton.mp he]
    have hsame : Event.kind ⟨report.news, at_, p.run⟩ = report.news.kind := rfl
    rw [hsame]
    rcases hkind with hkind | hkind <;> rw [hkind] <;>
      exact ⟨Event.Kind.noConfusion, Event.Kind.noConfusion, Event.Kind.noConfusion⟩
  exact ⟨_, hbus, hplain.trans hend⟩

lemma Introduces.accounts {run : Run} {name : String} (h : Introduces run name p q) :
    Accounts p 0 q := by
  obtain ⟨news, at_, hnews, hbus⟩ := h.news
  have hstart : Tallies p.ground [⟨.scriptStarted name, at_, run⟩] 0 p.ground :=
    .of_uncounted rfl rfl rfl rfl rfl
  have hplain : Tallies p.ground news 0 q.ground :=
    .of_plain (fun e he => (hnews e he).1) ((congrArg Ground.vars h.ground).trans rfl)
      ((congrArg Ground.lines h.ground).trans rfl) ((congrArg Ground.commands h.ground).trans rfl)
  exact ⟨_, hbus, hstart.trans hplain⟩

lemma PlaysNoLine.accounts {token : Token} (h : PlaysNoLine token p x) : Accounts p 0 x.1 := by
  cases h with
  | goes _ _ _ hq => exact hq.accounts
  | ends hx => exact hx.accounts

/-- A request puts other variables and counts in place in its next step: a playback starts or the
player is reset, a saved snapshot is restored, or a fault is recovered from by a rollback. -/
def installs (p : Player) (id : Nat) : Phase → Bool
  | .playGate .. => p.gate.isHeldBy id && !p.isShutDown
  | .resetGate => p.gate.isHeldBy id
  | .restoreLock s =>
    p.lineLock.isHeldBy id && decide (p.context.scriptName? = some s.scriptName) &&
      decide (s.cursor ≤ p.context.lineCount)
  | phase => (p.stepRetreat? id phase).isSome

/-- What has to be remarked of a line that returns to no snapshot. -/
lemma remarks_of_lineRetreat? {line : LinePhase} (h : p.lineRetreat? line = none) :
    (∀ s, .restored s ∉ p.remarks line) ∧
      Remark.cuts (p.remarks line) = if p.interrupts line then 1 else 0 := by
  have hline : p.remarks line = (if p.interrupts line then [.interrupted] else []) →
      (∀ s, .restored s ∉ p.remarks line) ∧
        Remark.cuts (p.remarks line) = if p.interrupts line then 1 else 0 := by
    intro hremarks
    rw [hremarks]
    cases p.interrupts line with
    | true => exact ⟨fun s hs => by simp at hs, rfl⟩
    | false => exact ⟨fun s hs => absurd hs List.not_mem_nil, rfl⟩
  cases line with
  | switching w caller script recovered =>
    have hremarks : p.remarks (.switching w caller script recovered) =
        if (p.fetch w script).isOk then [.called caller] else [] := rfl
    rw [hremarks]
    cases (p.fetch w script).isOk with
    | true => exact ⟨fun s hs => by simp at hs, rfl⟩
    | false => exact ⟨fun s hs => absurd hs List.not_mem_nil, rfl⟩
  | flying | resting | presenting =>
    refine hline ?_
    simp only [remarks]
    rw [h]
    rfl

/-- What has to be remarked of a step that installs nothing. -/
lemma stepRemarks_of_installs (hinstalls : p.installs id phase = false) :
    (∀ s, .restored s ∉ p.stepRemarks id phase) ∧
      Remark.cuts (p.stepRemarks id phase) = if p.cutsShort phase then 1 else 0 := by
  have hstays : p.stepRetreat? id phase = none := by
    cases phase with
    | playGate | resetGate | restoreLock => rfl
    | _ => exact Option.isNone_iff_eq_none.mp (by simpa [installs] using hinstalls)
  cases hline : phase.line? with
  | none =>
    have hremarks : p.stepRemarks id phase = [] := by
      unfold stepRemarks
      rw [hline, hstays]
      rfl
    have hcuts : p.cutsShort phase = false := by
      unfold cutsShort
      rw [hline]
      rfl
    rw [hremarks, hcuts]
    exact ⟨fun s hs => absurd hs List.not_mem_nil, rfl⟩
  | some line =>
    have hremarks : p.stepRemarks id phase = p.remarks line := by
      unfold stepRemarks
      rw [hline]
    have hcuts : p.cutsShort phase = p.interrupts line := by
      unfold cutsShort
      rw [hline]
      rfl
    have hretreat : p.lineRetreat? line = none := by
      cases phase with
      | playing | stepping =>
        cases hline
        exact hstays
      | _ => cases hline
    rw [hremarks, hcuts]
    exact remarks_of_lineRetreat? hretreat

/-- With every step that installs nothing, the accounts grow by what is told, unless the step closes
the bus. -/
lemma accounts_step (id : Nat) (phase : Phase) (hready : (p.step id phase).2 ≠ .blocked)
    (hinstalls : p.installs id phase = false) :
    Accounts p (if p.cutsShort phase then 1 else 0) (p.step id phase).1 ∨
      phase = .closeGate ∧ p.step id phase = p.close := by
  obtain ⟨hstays, hcuts⟩ := stepRemarks_of_installs hinstalls
  have hunlined : phase.line? = none → (if p.cutsShort phase then 1 else 0) = 0 := fun hline => by
    unfold cutsShort
    rw [hline]
    rfl
  obtain ⟨σ, hproceeds⟩ := exists_proceeds_step id phase p hready
  generalize p.step id phase = x at hproceeds
  rw [← hcuts] at hunlined ⊢
  cases hproceeds with
  | flies _ hq => exact .inl (hq.accounts hstays)
  | plays _ hq => exact .inl ((hq.accounts hstays).trans playsNoLine_afterLine.accounts)
  | steps _ hq _ hr => exact .inl ((hq.accounts hstays).trans hr.accounts)
  | playsNoLine _ hline _ hx =>
    rw [hunlined hline]
    exact .inl hx.accounts
  | @starts token run name until_ hphase =>
    rw [hunlined (by rw [hphase]; rfl)]
    rcases p.startLines_cases id token run name with ⟨r, hr⟩ | ⟨q, hq, hx⟩
    · exact .inl hr.accounts
    · exact .inl (hq.accounts.trans hx.accounts)
  | enrolls hphase hheld hx =>
    rw [hunlined (by rw [hphase]; rfl)]
    rw [hphase] at hinstalls
    have hshut : p.isShutDown = true := by simpa [installs, hheld] using hinstalls
    cases hx with
    | refused =>
      have hopened : PublishesPlain p { p with gate := p.gate.release } := .of_eq rfl rfl rfl
      exact .inl hopened.accounts
    | ends _ hopen | waits _ hopen | starts _ hopen =>
      rw [hshut] at hopen
      cases hopen
  | resets hphase hheld =>
    rw [hphase] at hinstalls
    simp [installs, hheld] at hinstalls
  | tends _ hline hx =>
    rw [hunlined hline]
    cases hx with
    | goes hq | ends hq | stores _ hq => exact .inl hq.accounts
    | closes hphase _ => exact .inr ⟨hphase, rfl⟩
    | restores hphase hheld hname hcursor =>
      rw [hphase] at hinstalls
      simp [installs, hheld, hname, hcursor] at hinstalls

end Player

/-! ### Sessions -/

namespace Session

variable {s₀ s s' : Session} {a : Action} {k : Nat}

/-- A request that goes on puts other variables and counts in place. -/
def installs (s : Session) : Action → Bool
  | .go id => s.tasks.any fun t => t.id == id && s.player.installs id t.phase
  | _ => false

/-- A request that goes on has an attempt in flight that is cut short. -/
def cutsShort (s : Session) : Action → Bool
  | .go id => s.tasks.any fun t => t.id == id && s.player.cutsShort t.phase
  | _ => false

/-- Whatever happens to a session while nothing is installed; tells how many attempts were cut
short. -/
inductive Accrues (s₀ : Session) : Nat → Session → Prop
  | refl : Accrues s₀ 0 s₀
  | tail {k : Nat} {s s' : Session} {a : Action} (hs : Accrues s₀ k s)
    (hfree : s.installs a = false) (hdoes : s.Does a s') :
    Accrues s₀ (k + if s.cutsShort a then 1 else 0) s'

/-- Among the requests there is one with each number only. -/
lemma any_of_distinct {t : Task} (kind : Task → Bool) (hdistinct : s.Distinct) (ht : t ∈ s.tasks) :
    (s.tasks.any fun u => u.id == t.id && kind u) = kind t := by
  rw [Bool.eq_iff_iff, List.any_eq_true]
  constructor
  · rintro ⟨u, hu, hboth⟩
    obtain ⟨hid, hkind⟩ := Bool.and_eq_true_iff.mp hboth
    obtain rfl : u = t := List.inj_on_of_nodup_map hdistinct hu ht (beq_iff_eq.mp hid)
    exact hkind
  · exact fun hkind => ⟨t, ht, by simpa using hkind⟩

/-- Whatever happens, the accounts grow by what is told, unless the bus is closed. -/
lemma accounts_does (h : s.Attentive) (hfree : s.installs a = false) (hdoes : s.Does a s') :
    Player.Accounts s.player (if s.cutsShort a then 1 else 0) s'.player ∨
      s'.player.bus.closed = true := by
  cases a with
  | submit id r =>
    cases hdoes
    exact .inl ⟨[], rfl, .refl _⟩
  | wait now =>
    cases hdoes
    exact .inl ⟨[], rfl, .refl _⟩
  | call c =>
    cases hdoes
    have hcalled := Player.pursues_perform (p := s.player) (w := .nowhere) (σ := .started) c
    exact .inl (hcalled.accounts fun _ hmem => absurd hmem List.not_mem_nil)
  | go id =>
    obtain ⟨t, x, rfl, hmoved⟩ := hdoes.moved
    have hready : (s.player.step t.id t.phase).2 ≠ .blocked := hmoved.step ▸ hmoved.ready
    have hinstalls : s.player.installs t.id t.phase = false := by
      rw [← hfree]
      exact (any_of_distinct (fun u => s.player.installs t.id u.phase) h.distinct hmoved.mem).symm
    have hcuts : s.cutsShort (.go t.id) = s.player.cutsShort t.phase :=
      any_of_distinct (fun u => s.player.cutsShort u.phase) h.distinct hmoved.mem
    rw [hmoved.player, hcuts, ← hmoved.step]
    refine (Player.accounts_step t.id t.phase hready hinstalls).imp_right fun ⟨_, hclose⟩ => ?_
    rw [hclose]
    rfl

/-- As long as the bus is open, the accounts grow by what is told. -/
lemma Accrues.accounts (hvoiced : s₀.Voiced) (hs : s₀.Accrues k s) :
    s.Voiced ∧ (Player.Accounts s₀.player k s.player ∨ s.player.bus.closed = true) := by
  induction hs with
  | refl => exact ⟨hvoiced, .inl ⟨[], rfl, .refl _⟩⟩
  | tail _ hfree hdoes ih =>
    obtain ⟨h, haccounts⟩ := ih
    refine ⟨h.does hdoes, ?_⟩
    rcases haccounts with haccounts | hclosed
    · exact (accounts_does h.attentive hfree hdoes).imp_left haccounts.trans
    · exact .inr (hdoes.closed hclosed)

/-- A variable is set, and time passes. -/
def barcarolle : Script :=
  ⟨"barcarolle", [.command "@set oar 1" (some (.assign "oar" (.bool true))),
    .command "@wait 100" (some (.wait 100))]⟩

/-- The barcarolle has started. -/
def quay : Session :=
  ((submit { player := .create {} { capacity := 16 } none } 0
    (.play barcarolle .beginning false)).turn 0).turn 0

/-- The barcarolle is stopped while time passes. -/
def landing : Session :=
  let lagoon := ((quay.turn 0).turn 0).turn 0
  ({ lagoon with player := lagoon.player.perform .stop }).turn 0

/-- A request that can go on has its turn. -/
lemma Accrues.turn {n m : Nat} {t : Task} (hs : s₀.Accrues k s) (ht : s.tasks[n]? = some t)
    (hready : (s.player.step t.id t.phase).2 ≠ .blocked) (hfree : s.installs (.go t.id) = false)
    (hm : (k + if s.cutsShort (.go t.id) then 1 else 0) = m) : s₀.Accrues m (s.turn n) :=
  hm ▸ hs.tail hfree (does_turn ht hready)

end Session

end Recital

import Recital.Proofs.Player.RequestChanges

/-!
# The state goes along a path

The state of a playback is changed by four operations on its cell: two moves that have to be
allowed, one that moreover expects a state to leave, and the reset to `idle`.  Whatever is done with
a player, and whichever of these operations are made besides, all changes taken together are a path
from `idle` to the current state (`State.Path`), and each is published when it is made.  A bus that
is closed drops its events, so the published changes are the whole path until the bus is closed, and
the beginning of it from then on.
-/

namespace Recital

/-! ### Paths -/

/-- An allowed move, or the reset of a state other than `idle`. -/
def State.Change.IsLegal (c : State.Change) : Prop :=
  c.before.allows c.after = true ∨ c.before ≠ .idle ∧ c.after = .idle

/-- Changes of which each leaves the state that the one before it has entered. -/
inductive State.Path : State → List State.Change → State → Prop
  | nil (s : State) : Path s [] s
  | cons {c : State.Change} {changes : List State.Change} {t : State} (hlegal : c.IsLegal)
    (hrest : Path c.after changes t) : Path c.before (c :: changes) t

namespace State

variable {s t u : State} {changes more : List State.Change}

/-- A state that ended a playback is left for `idle` only. -/
lemma Change.IsLegal.idle {c : Change} (h : c.IsLegal) (hend : c.before.isTerminal = true) :
    c.after = .idle := by
  rcases h with hallowed | ⟨-, hidle⟩
  · obtain ⟨before, after⟩ := c
    cases before <;> cases after <;> simp_all [allows, isTerminal]
  · exact hidle

namespace Path

lemma trans (h : Path s changes t) (hmore : Path t more u) : Path s (changes ++ more) u := by
  induction h with
  | nil => exact hmore
  | cons hlegal _ ih => exact .cons hlegal (ih hmore)

lemma legal (h : Path s changes t) : ∀ c ∈ changes, c.IsLegal := by
  induction h with
  | nil => exact fun _ hc => absurd hc List.not_mem_nil
  | cons hlegal _ ih =>
    intro c hc
    rcases List.mem_cons.mp hc with rfl | hc
    · exact hlegal
    · exact ih c hc

/-- A path ends where its last change leads to. -/
lemma eq_last (h : Path s changes t) : t = (changes.getLast?.map Change.after).getD s := by
  induction h with
  | nil => rfl
  | @cons c changes t _ _ ih =>
    rw [ih, List.getLast?_cons]
    cases changes.getLast? <;> rfl

end Path

end State

/-! ### Operations on the state -/

/-- An operation on the state of a playback. -/
inductive Cell.Operation
  | move (target : State)
  | moveFrom (expected target : State)
  | moveIfAllowed (target : State)
  | reset

namespace Cell

/-- The state that an operation leads to. -/
def Operation.target : Operation → State
  | move target | moveFrom _ target | moveIfAllowed target => target
  | reset => .idle

/-- An operation is carried out in a state. -/
def Operation.Permits : Operation → State → Prop
  | move target, s | moveIfAllowed target, s => s.allows target = true
  | moveFrom expected target, s => s = expected ∧ expected.allows target = true
  | reset, s => s ≠ .idle

/-- What an operation changes, unless it is refused. -/
def operate (c : Cell) : Operation → Option (Cell × State.Change)
  | .move target => (c.move target).toOption
  | .moveFrom expected target => c.moveFrom expected target
  | .moveIfAllowed target => c.moveIfAllowed target
  | .reset => c.reset

variable {c : Cell} {op : Operation}

/-- What is carried out is legal. -/
lemma Operation.Permits.legal {s : State} (h : op.Permits s) :
    State.Change.IsLegal ⟨s, op.target⟩ := by
  cases op with
  | move | moveIfAllowed => exact .inl h
  | moveFrom =>
    obtain ⟨rfl, hallowed⟩ := h
    exact .inl hallowed
  | reset => exact .inr ⟨h, rfl⟩

/-- An operation enters its target and tells the state that was left. -/
lemma operate_of_permits (h : op.Permits c.current) : c.operate op = some (c.commit op.target) := by
  cases op with
  | move target =>
    have hmoved : c.current.move target = .ok target := if_pos h
    simp only [operate, move, hmoved]
    rfl
  | moveFrom => exact if_pos h
  | moveIfAllowed => exact if_pos h
  | reset => exact if_neg h

lemma operate_of_not_permits (h : ¬ op.Permits c.current) : c.operate op = none := by
  cases op with
  | move target =>
    have hmoved : c.current.move target = .error ⟨c.current, target⟩ := if_neg h
    simp only [operate, move, hmoved]
    rfl
  | moveFrom => exact if_neg h
  | moveIfAllowed => exact if_neg h
  | reset => exact if_pos (not_not.mp h)

end Cell

/-- Makes an operation on the state; a change is published. -/
def Player.operate (p : Player) (run : Run) (op : Cell.Operation) : Player :=
  match p.cell.operate op with
  | some change => p.commit run change
  | none => p

namespace Player

variable {p : Player} {run : Run} {op : Cell.Operation}

lemma operate_of_permits (h : op.Permits p.state) :
    p.operate run op = p.commit run (p.cell.commit op.target) := by
  unfold operate
  rw [Cell.operate_of_permits h]

/-- What is refused changes nothing. -/
lemma operate_of_not_permits (h : ¬ op.Permits p.state) : p.operate run op = p := by
  unfold operate
  rw [Cell.operate_of_not_permits h]

end Player

/-! ### The changes that are published -/

namespace LastingPart

/-- The state has gone along a path since it was `idle`, and the changes were published as long as
the bus was open.  `past` is what was published before. -/
structure TellsPath (past : List Event) (changes : List State.Change) (b : LastingPart) : Prop where
  path : State.Path .idle changes b.cell.current
  watched : b.cell.watched = b.cell.current
  told : ∃ news untold, b.bus.log.toList = past ++ news ∧
    changes = news.filterMap Event.change? ++ untold ∧ (b.bus.closed = false → untold = [])

variable {past : List Event} {changes : List State.Change} {b : LastingPart}

/-- A legal change is published and goes on with the path. -/
lemma TellsPath.commit (h : b.TellsPath past changes) {target : State} {run : Run} {at_ : Instant}
    (hlegal : State.Change.IsLegal ⟨b.cell.current, target⟩) :
    TellsPath past (changes ++ [⟨b.cell.current, target⟩]) { b with
      cell := (b.cell.commit target).1
      bus := b.bus.publish ⟨.stateChanged b.cell.current target, at_, run⟩ } := by
  obtain ⟨news, untold, hlog, hchanges, hopen⟩ := h.told
  refine ⟨h.path.trans (.cons hlegal (.nil _)), rfl, ?_⟩
  cases hclosed : b.bus.closed with
  | true =>
    refine ⟨news, untold ++ [⟨b.cell.current, target⟩], ?_, ?_, fun hbus => ?_⟩
    · simpa [Bus.publish, hclosed] using hlog
    · rw [hchanges, List.append_assoc]
    · simp [Bus.publish, hclosed] at hbus
  | false =>
    rw [hopen hclosed, List.append_nil] at hchanges
    refine ⟨news ++ [⟨.stateChanged b.cell.current target, at_, run⟩], [], ?_, ?_, fun _ => rfl⟩
    · simp [Bus.publish, hclosed, hlog]
    · rw [hchanges, List.filterMap_append, List.append_nil]
      rfl

/-- Other events and everything else leave the path as it is. -/
lemma TellsPath.publish {P : Json → Prop} (h : b.TellsPath past changes) {e : Event}
    (he : e.payload.IsSteady P) : TellsPath past changes { b with bus := b.bus.publish e } := by
  obtain ⟨news, untold, hlog, hchanges, hopen⟩ := h.told
  refine ⟨h.path, h.watched, ?_⟩
  have hnone : e.change? = none := by
    unfold Event.change?
    split
    · next heq =>
      rw [heq] at he
      cases he
    · rfl
  cases hclosed : b.bus.closed with
  | true =>
    refine ⟨news, untold, ?_, hchanges, fun hbus => ?_⟩
    · simpa [Bus.publish, hclosed] using hlog
    · simp [Bus.publish, hclosed] at hbus
  | false =>
    refine ⟨news ++ [e], untold, ?_, ?_, fun _ => hopen hclosed⟩
    · simp [Bus.publish, hclosed, hlog]
    · rw [List.filterMap_append, hchanges]
      simp [hnone]

/-- One change of what lasts goes on with the path by at most one change of the state. -/
lemma TellsPath.lastingChange {P : Json → Prop} {K : String → Prop} {c : LastingPart}
    (h : b.TellsPath past changes)
    (hchange : LastingChange P K b c) : ∃ more, c.TellsPath past (changes ++ more) := by
  have hstill : ∀ {c : LastingPart}, c.TellsPath past changes → ∃ more,
      c.TellsPath past (changes ++ more) :=
    fun hc => ⟨[], by rwa [List.append_nil]⟩
  cases hchange with
  | moves hallowed => exact ⟨_, h.commit (.inl hallowed)⟩
  | resets hne => exact ⟨_, h.commit (.inr ⟨hne, rfl⟩)⟩
  | tells he => exact hstill (h.publish he)
  | closes =>
    obtain ⟨news, untold, hlog, hchanges, -⟩ := h.told
    exact hstill ⟨h.path, h.watched, news, untold, hlog, hchanges, fun hopen => nomatch hopen⟩
  | asks | forgets | assigns | clears | loads | marks | restores | keeps | drops | writes =>
    exact hstill ⟨h.path, h.watched, h.told⟩

end LastingPart

/-- Any number of them go on with the path. -/
lemma Player.LastingChanges.treads {P : Json → Prop} {K : String → Prop} {past : List Event}
    {changes : List State.Change} {p q : Player} (hpq : LastingChanges P K p q)
    (h : p.lastingPart.TellsPath past changes) :
    ∃ more, q.lastingPart.TellsPath past (changes ++ more) := by
  unfold LastingChanges at hpq
  generalize q.lastingPart = c at hpq
  induction hpq with
  | refl => exact ⟨[], by rwa [List.append_nil]⟩
  | tail _ hchange ih =>
    obtain ⟨more, hmore⟩ := ih
    obtain ⟨rest, hrest⟩ := hmore.lastingChange hchange
    exact ⟨more ++ rest, by rwa [← List.append_assoc]⟩

namespace Session

variable {s s' : Session}

/-- Something is done in a session, or an operation is made on the state of the playback. -/
inductive Acts (s : Session) : Session → Prop
  | does {s' : Session} {a : Action} (h : s.Does a s') : Acts s s'
  | operates {run : Run} {op : Cell.Operation} :
    Acts s { s with player := s.player.operate run op }

/-- Whatever is done goes on with the path. -/
lemma Acts.treads {past : List Event} {changes : List State.Change} (hacts : s.Acts s')
    (h : s.player.lastingPart.TellsPath past changes) :
    ∃ more, s'.player.lastingPart.TellsPath past (changes ++ more) := by
  cases hacts with
  | does hdoes => exact hdoes.lastingChanges_any.treads h
  | @operates run op =>
    by_cases hpermits : op.Permits s.player.state
    · dsimp only
      rw [Player.operate_of_permits hpermits]
      exact ⟨_, h.commit hpermits.legal⟩
    · dsimp only
      rw [Player.operate_of_not_permits hpermits]
      exact ⟨[], by rwa [List.append_nil]⟩

/-- State changes form one legal path.  Make any requests to a new player, with any calls and any
operations on its state, and let them go on in any order.  All changes of the state lead from `idle`
to the current state, each from where the one before has led to; each is an allowed move or a reset,
and what ended a playback is left for `idle` only.  Those who watch the state have been told the
current one.  The changes that were published, in their order, are all of these as long as the bus
has not been closed, and the first of them from then on.  An operation that is refused changes
nothing, and any other enters its target and publishes one event with the state that was left and
the one that was entered. -/
theorem state_changes_form_a_path {host : Host} {bus : Bus} {store : Option Store}
    (hs : Relation.ReflTransGen Acts { player := .create host bus store } s) :
    s.player.cell.watched = s.player.state ∧
      (∃ changes news untold, State.Path .idle changes s.player.state ∧
        (∀ c ∈ changes, c.before.isTerminal = true → c.after = .idle) ∧
        s.player.bus.log.toList = bus.log.toList ++ news ∧
        changes = news.filterMap Event.change? ++ untold ∧
        (s.player.bus.closed = false → untold = [])) ∧
      ∀ run op, (¬ op.Permits s.player.state ∧ s.player.operate run op = s.player) ∨
        op.Permits s.player.state ∧
          s.player.operate run op = { s.player with
            cell := ⟨op.target, op.target⟩
            bus := s.player.bus.publish
              ⟨.stateChanged s.player.state op.target, Instant.ofMillis s.player.now, run⟩ } := by
  have hpath : ∃ changes, s.player.lastingPart.TellsPath bus.log.toList changes := by
    induction hs with
    | refl => exact ⟨[], .nil _, rfl, [], [], (List.append_nil _).symm, rfl, fun _ => rfl⟩
    | tail _ hacts ih =>
      obtain ⟨changes, h⟩ := ih
      obtain ⟨more, hmore⟩ := hacts.treads h
      exact ⟨changes ++ more, hmore⟩
  obtain ⟨changes, h⟩ := hpath
  obtain ⟨news, untold, hlog, hchanges, hopen⟩ := h.told
  refine ⟨h.watched, ⟨changes, news, untold, h.path, fun c hc => (h.path.legal c hc).idle, hlog,
    hchanges, hopen⟩, fun run op => ?_⟩
  by_cases hpermits : op.Permits s.player.state
  · exact .inr ⟨hpermits, Player.operate_of_permits hpermits⟩
  · exact .inl ⟨hpermits, Player.operate_of_not_permits hpermits⟩

/-! ### A serenade -/

/-- A song of one line. -/
def serenade : Script := ⟨"serenade", [.text "one"]⟩

/-- The song is to be sung. -/
def balcony : Session :=
  submit { player := .create {} { capacity := 16 } none } 0 (.play serenade .beginning false)

/-- The song has been sung. -/
def sung : Session := (((balcony.turn 0).turn 0).turn 0).turn 0

/-- Nothing more is going to be sung. -/
def hushed : Session := ((sung.submit 1 .shutDown).turn 0).turn 0

/-- The last song is forgotten. -/
def forgotten : Session := ((hushed.submit 2 .reset).turn 0).turn 0

/-- A request may have its turn. -/
lemma Acts.turn (h : Relation.ReflTransGen Acts s s') (n : Nat) :
    Relation.ReflTransGen Acts s (s'.turn n) := by
  rcases s'.turn_eq_or_does n with heq | ⟨_, -, hdoes⟩
  · rw [heq]
    exact h
  · exact h.tail (.does hdoes)

lemma sung_reached :
    Relation.ReflTransGen Acts { player := .create {} { capacity := 16 } none } sung := by
  have hbalcony : Relation.ReflTransGen Acts { player := .create {} { capacity := 16 } none }
      balcony := .single (.does (.submit fun _ ht => absurd ht List.not_mem_nil))
  exact Acts.turn (Acts.turn (Acts.turn (Acts.turn hbalcony 0) 0) 0) 0

lemma forgotten_reached :
    Relation.ReflTransGen Acts { player := .create {} { capacity := 16 } none } forgotten := by
  have hshut : Relation.ReflTransGen Acts { player := .create {} { capacity := 16 } none }
      (sung.submit 1 .shutDown) :=
    sung_reached.tail (.does (.submit fun _ ht => absurd ht List.not_mem_nil))
  have hhushed := Acts.turn (Acts.turn hshut 0) 0
  exact Acts.turn (Acts.turn
    (hhushed.tail (.does (.submit fun _ ht => absurd ht List.not_mem_nil))) 0) 0

/-- The song goes through its states, and then a reset is made on the state alone. -/
theorem serenade_passes :
    Relation.ReflTransGen Acts { player := .create {} { capacity := 16 } none } sung ∧
      sung.player.state = .completed ∧
      sung.player.cell.watched = sung.player.state ∧
      (∃ changes news untold, State.Path .idle changes sung.player.state ∧
        (∀ c ∈ changes, c.before.isTerminal = true → c.after = .idle) ∧
        sung.player.bus.log.toList = #[].toList ++ news ∧
        changes = news.filterMap Event.change? ++ untold ∧
        (sung.player.bus.closed = false → untold = [])) ∧
      ∀ run op, (¬ op.Permits sung.player.state ∧ sung.player.operate run op = sung.player) ∨
        op.Permits sung.player.state ∧
          sung.player.operate run op = { sung.player with
            cell := ⟨op.target, op.target⟩
            bus := sung.player.bus.publish
              ⟨.stateChanged sung.player.state op.target,
                Instant.ofMillis sung.player.now, run⟩ } :=
  ⟨sung_reached, rfl, state_changes_form_a_path sung_reached⟩

/-- A reset after the bus was closed is not told: the published changes do not lead to the current
state. -/
theorem reset_is_untold_when_shut_down :
    Relation.ReflTransGen Acts { player := .create {} { capacity := 16 } none } forgotten ∧
      ¬ State.Path .idle (forgotten.player.bus.log.toList.filterMap Event.change?)
        forgotten.player.state := by
  refine ⟨forgotten_reached, fun hpath => ?_⟩
  have hend : State.idle = .completed := hpath.eq_last
  cases hend

end Session

end Recital

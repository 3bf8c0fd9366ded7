import Recital.Proofs.Playback.Event
import Recital.Proofs.Player.RequestChanges
import Recital.Proofs.Session.Solo

/-!
# Events that were published are decoded

Whatever is done with a player, the events that it publishes can be decoded from what they are
written as: progress is told as a number, since the cursor counts no further than the lines, and the
values that variables are set to are those that commands have set
(`Player.LastingChanges.isRegular`).  Only a variable that was set to `null` is decoded as one that
was removed.
-/

namespace Recital

/-- All events that were published since the given ones can be read back. -/
def Bus.IsRegular (past : List Event) (b : Bus) : Prop :=
  ∃ news, b.log.toList = past ++ news ∧ ∀ e ∈ news, e.payload.IsRegular

namespace Bus.IsRegular

variable {past : List Event} {b : Bus}

lemma publish (h : b.IsRegular past) {e : Event} (he : e.payload.IsRegular) :
    (b.publish e).IsRegular past := by
  obtain ⟨news, hlog, hnews⟩ := h
  cases hclosed : b.closed with
  | true => exact ⟨news, by simpa [Bus.publish, hclosed] using hlog, hnews⟩
  | false =>
    refine ⟨news ++ [e], by simp [Bus.publish, hclosed, hlog], fun d hd => ?_⟩
    rcases List.mem_append.mp hd with hd | hd
    · exact hnews d hd
    · rw [List.mem_singleton.mp hd]
      exact he

end Bus.IsRegular

variable {past : List Event} {K : String → Prop}

/-- What is told besides changes of state can be read back if values are normal. -/
lemma Event.Payload.IsSteady.isRegular {p : Event.Payload} (h : p.IsSteady Json.IsNormal) :
    p.IsRegular := by
  cases p with
  | progressChanged => exact h
  | variableChanged name value =>
    cases value with
    | none => trivial
    | some value => exact h
  | _ => trivial

lemma LastingChange.isRegular {b c : LastingPart} (h : LastingChange Json.IsNormal K b c)
    (hb : b.bus.IsRegular past) :
    c.bus.IsRegular past := by
  cases h with
  | moves | resets => exact hb.publish trivial
  | tells he => exact hb.publish he.isRegular
  | closes | asks | forgets | assigns | clears | loads | marks | restores | keeps | drops
  | writes =>
    exact hb

lemma Player.LastingChanges.isRegular {p q : Player} (h : LastingChanges Json.IsNormal K p q)
    (hp : p.bus.IsRegular past) : q.bus.IsRegular past := by
  have hpart : q.lastingPart.bus.IsRegular past := by
    unfold LastingChanges at h
    generalize q.lastingPart = c at h
    induction h with
    | refl => exact hp
    | tail _ hchange ih => exact hchange.isRegular ih
  exact hpart

namespace Session

variable {s s' : Session} {host : Host} {bus : Bus} {store : Option Store}

/-- Events that were published are decoded.  Play any scripts with any host and store, and make any
other requests and calls beside, in any order; the values that are set are normal, as all values are
whose objects are sorted maps.  Every event that is published, with numbers that are machine words
and at an instant that has a date, is decoded from what it is written as to an event of its kind.
It is decoded to itself unless it sets a variable to `null`; and an event that sets a variable can
be told from all events that remove one unless it does just that. -/
theorem published_events_are_decoded
    (hloads : ∀ load name script, host.loader = some load → load name = .ok script →
      script.Sets Json.IsNormal)
    (hs : Evolves (Action.Sets Json.IsNormal) { player := .create host bus store } s) :
    ∃ news, s.player.bus.log.toList = bus.log.toList ++ news ∧
      ∀ e ∈ news, e.IsCounted →
        (Event.ofJson? e.toJson).map Event.kind = some e.kind ∧
        (Event.ofJson? e.toJson = some e ↔
          ∀ name, e.payload ≠ .variableChanged name (some .null)) ∧
        ∀ name value, e.payload = .variableChanged name (some value) →
          ((∃ d : Event, (∃ other, d.payload = .variableChanged other none) ∧
              d.toJson = e.toJson) ↔
            value = .null) := by
  -- The values that are set stay normal, and that is what lets every event that is told be read
  -- back.
  have hregular : s.Sets Json.IsNormal ∧ s.player.bus.IsRegular bus.log.toList := by
    induction hs with
    | refl =>
      refine ⟨.created hloads fun store _ => store.yields_normal, [], ?_, ?_⟩
      · exact (List.append_nil _).symm
      · exact fun _ he => absurd he List.not_mem_nil
    | tail _ hmay ih =>
      obtain ⟨a, ha, hdoes⟩ := hmay
      obtain ⟨hchanges, hsets⟩ := hdoes.lastingChanges_of_sets ih.1 ha
      exact ⟨hsets, hchanges.isRegular ih.2⟩
  obtain ⟨-, news, hlog, hnews⟩ := hregular
  refine ⟨news, hlog, fun e he hcounted => ?_⟩
  have hdecoded : Event.ofJson? e.toJson = some e.decoded :=
    Event.ofJson?_toJson hcounted (hnews e he)
  refine ⟨?_, ?_, fun name value => Event.exists_toJson_eq_iff⟩
  · rw [hdecoded]
    exact congrArg some e.payload.kind_decoded
  · rw [hdecoded, Option.some_inj, ← Event.Payload.decoded_eq_iff]
    exact ⟨congrArg Event.payload, fun heq => by rw [Event.decoded, heq]⟩

/-! ### An elegy -/

/-- A piece that sets a variable to `null` and then to a number. -/
def elegy : Script :=
  ⟨"elegy", [.command "@set voice null" (some (.assign "voice" .null)),
    .command "@set voice 2" (some (.assign "voice" (.nat 2)))]⟩

/-- Nothing has been played. -/
def chapel : Session := { player := .create {} { capacity := 16 } none }

/-- The piece has been played. -/
def mourned : Session :=
  (((((chapel.submit 0 (.play elegy .beginning false)).turn 0).turn 0).turn 0).turn 0).turn 0

lemma evolves_mourned : chapel.Evolves (Action.Sets Json.IsNormal) mourned := by
  have hsets : elegy.Sets Json.IsNormal := by
    intro source c hc n view e he
    simp only [elegy, List.mem_cons, List.not_mem_nil, or_false, Line.command.injEq,
      Option.some.injEq] at hc
    rcases hc with ⟨-, rfl⟩ | ⟨-, rfl⟩
    · rw [List.mem_singleton.mp he]
      exact .null
    · rw [List.mem_singleton.mp he]
      exact .num
  have hplayed : chapel.Evolves (Action.Sets Json.IsNormal)
      (chapel.submit 0 (.play elegy .beginning false)) :=
    .single ⟨.submit 0 (.play elegy .beginning false), ⟨hsets, trivial⟩,
      .submit fun t ht => absurd ht List.not_mem_nil⟩
  have hgo : ∀ id, (Action.go id).Sets Json.IsNormal := fun _ => trivial
  exact ((((hplayed.turn hgo 0).turn hgo 0).turn hgo 0).turn hgo 0).turn hgo 0

/-- The number is told, and nobody can tell the `null` from a removal. -/
theorem elegy_is_told :
    chapel.Evolves (Action.Sets Json.IsNormal) mourned ∧
      ∃ e ∈ mourned.player.bus.log.toList, ∃ d ∈ mourned.player.bus.log.toList,
        e.payload = .variableChanged "voice" (some .null) ∧
        d.payload = .variableChanged "voice" (some (.nat 2)) ∧
        Event.ofJson? e.toJson ≠ some e ∧ Event.ofJson? d.toJson = some d ∧
        ∃ c : Event, (∃ name, c.payload = .variableChanged name none) ∧ c.toJson = e.toJson := by
  have hloads : ∀ load name script, chapel.player.host.loader = some load →
      load name = .ok script → script.Sets Json.IsNormal := fun load name script hload => by
    cases hload
  obtain ⟨news, hlog, hnews⟩ := published_events_are_decoded hloads evolves_mourned
  obtain ⟨e, he⟩ : ∃ e, mourned.player.bus.log.toList[6]? = some e := ⟨_, rfl⟩
  obtain ⟨d, hd⟩ : ∃ d, mourned.player.bus.log.toList[14]? = some d := ⟨_, rfl⟩
  have hpayload : e.payload = .variableChanged "voice" (some .null) := by
    cases he
    rfl
  have hpayload' : d.payload = .variableChanged "voice" (some (.nat 2)) := by
    cases hd
    rfl
  have hcounted : e.IsCounted := by
    cases he
    exact ⟨trivial, rfl, .inl (by decide)⟩
  have hcounted' : d.IsCounted := by
    cases hd
    exact ⟨trivial, rfl, .inl (by decide)⟩
  have hmem := List.mem_of_getElem? he
  have hmem' := List.mem_of_getElem? hd
  obtain ⟨-, hsame, htold⟩ := hnews e (by rw [hlog] at hmem; exact hmem) hcounted
  obtain ⟨-, hsame', -⟩ := hnews d (by rw [hlog] at hmem'; exact hmem') hcounted'
  refine ⟨evolves_mourned, e, hmem, d, hmem', hpayload, hpayload', fun heq => ?_,
    hsame'.mpr fun name hnull => ?_, (htold "voice" .null hpayload).mpr rfl⟩
  · exact hsame.mp heq "voice" hpayload
  · rw [hpayload'] at hnull
    cases hnull

end Session

end Recital

import Recital.Proofs.Playback.Record

/-!
# Records of events

An event is written with what happened, tagged with its kind, and with the instant and the run.
Every event is read back as one of its kind, and as what it was but for one thing: a variable that
was set to `null` is written like one that was removed, and read as such (`Event.Payload.decoded`).
-/

namespace Recital

open Json (Keeps Record)

lemma State.keeps (site : Json.Site) : Keeps toJson (ofJsonAt? site) fun _ => True where
  reads s _ := by cases s <;> rfl
  yields := .trivial

namespace Event

namespace Payload

/-- The numbers of the payload are machine words. -/
def IsCounted : Payload → Prop
  | scriptCompleted _ report => report.IsCounted
  | scriptFailed _ fault => fault.IsCounted
  | lineExecuting index _ | lineExecuted index _ | commandExecuting index _
  | commandExecuted index _ _ | breakpointHit index => index ≤ Text.wordMax
  | lineFailed index fault => index ≤ Text.wordMax ∧ fault.IsCounted
  | commandRetrying index _ attempt delay =>
    index ≤ Text.wordMax ∧ attempt ≤ Nat.pow 2 32 - 1 ∧ delay ≤ Text.wordMax
  | _ => True

/-- Progress is a number, and a value that was set is normal. -/
def IsRegular : Payload → Prop
  | progressChanged progress => progress.isFinite = true
  | variableChanged _ (some value) => value.IsNormal
  | _ => True

/-- What the payload is read as.  A variable that was set to `null` cannot be told from one that was
removed. -/
def decoded : Payload → Payload
  | variableChanged name (some .null) => variableChanged name none
  | payload => payload

@[simp] lemma kind_decoded (p : Payload) : p.decoded.kind = p.kind := by
  unfold decoded
  split <;> rfl

/-- Nothing else is read as anything else. -/
lemma decoded_eq_iff {p : Payload} :
    p.decoded = p ↔ ∀ name, p ≠ variableChanged name (some .null) := by
  unfold decoded
  split
  · next name => simp
  · next hne => simpa using hne

lemma find?_kind (k : Kind) : (Kind.all.find? fun l => l.name == k.name) = some k := by
  cases k <;> rfl

/-- The fields of a payload are read by its kind. -/
lemma ofJson?_toJson_eq (p : Payload) : ofJson? p.toJson = ofRecord? p.kind (.obj p.fields) := by
  have htag : Json.tagged? "type" p.toJson = some (p.kind.name, .obj p.fields) := by
    refine Json.tagged?_obj ?_
    cases p <;> simp [fields]
  unfold ofJson?
  rw [htag]
  change (Kind.all.find? _).bind _ = _
  rw [find?_kind]
  rfl

/-- The fields are read back. -/
lemma ofRecord?_fields {p : Payload} (hcounted : p.IsCounted) (hregular : p.IsRegular) :
    ofRecord? p.kind (.obj p.fields) = some p.decoded := by
  cases p <;> simp only [kind, fields, ofRecord?]
  case scriptStarted script => exact Json.bind_record?_one (f := scriptStarted) rfl
  case scriptCompleted script report =>
    exact Json.bind_record?_two (f := scriptCompleted) (by decide) rfl
      ((Report.keeps .tagged).reads report hcounted)
  case scriptFailed script fault =>
    exact Json.bind_record?_two (f := scriptFailed) (by decide) rfl
      ((Fault.keeps .tagged).reads fault hcounted)
  case lineExecuting index line =>
    exact Json.bind_record?_two (f := lineExecuting) (by decide) (Json.word?_nat hcounted) rfl
  case lineExecuted index line =>
    exact Json.bind_record?_two (f := lineExecuted) (by decide) (Json.word?_nat hcounted) rfl
  case lineFailed index fault =>
    exact Json.bind_record?_two (f := lineFailed) (by decide) (Json.word?_nat hcounted.1)
      ((Fault.keeps .tagged).reads fault hcounted.2)
  case commandExecuting index type =>
    exact Json.bind_record?_two (f := commandExecuting) (by decide) (Json.word?_nat hcounted) rfl
  case commandExecuted index type success =>
    have hrecord : Json.record? ["index", "command_type", "success"]
        (.obj (commandExecuted index type success).fields) = some ⟨false, _⟩ :=
      Json.record?_obj (.refl _) (by decide)
    refine Option.bind_eq_some_iff.mpr ⟨_, hrecord, ?_⟩
    refine Option.bind_eq_some_iff.mpr
      ⟨_, Record.required_of_lookup rfl (Json.word?_nat hcounted), ?_⟩
    refine Option.bind_eq_some_iff.mpr ⟨_, Record.required_of_lookup rfl rfl, ?_⟩
    exact Option.bind_eq_some_iff.mpr ⟨_, Record.required_of_lookup rfl rfl, rfl⟩
  case commandRetrying index type attempt delay =>
    obtain ⟨hindex, hattempt, hdelay⟩ := hcounted
    have hrecord : Json.record? ["index", "command_type", "attempt", "delay_ms"]
        (.obj (commandRetrying index type attempt delay).fields) = some ⟨false, _⟩ :=
      Json.record?_obj (.refl _) (by decide)
    refine Option.bind_eq_some_iff.mpr ⟨_, hrecord, ?_⟩
    refine Option.bind_eq_some_iff.mpr
      ⟨_, Record.required_of_lookup rfl (Json.word?_nat hindex), ?_⟩
    refine Option.bind_eq_some_iff.mpr ⟨_, Record.required_of_lookup rfl rfl, ?_⟩
    refine Option.bind_eq_some_iff.mpr
      ⟨_, Record.required_of_lookup rfl (Json.natUpTo?_nat hattempt), ?_⟩
    exact Option.bind_eq_some_iff.mpr
      ⟨_, Record.required_of_lookup rfl (Json.word?_nat hdelay), rfl⟩
  case stateChanged before after =>
    exact Json.bind_record?_two (f := stateChanged) (by decide)
      ((State.keeps .tagged).reads before trivial) ((State.keeps .tagged).reads after trivial)
  case progressChanged progress =>
    exact Json.bind_record?_one (f := progressChanged) (Json.float?_float hregular)
  case breakpointHit index =>
    exact Json.bind_record?_one (f := breakpointHit) (Json.word?_nat hcounted)
  case variableChanged name value =>
    have hrecord : Json.record? ["name", "value"]
        (.obj (variableChanged name value).fields) = some ⟨false, _⟩ :=
      Json.record?_obj (.refl _) (by decide)
    refine Option.bind_eq_some_iff.mpr ⟨_, hrecord, ?_⟩
    refine Option.bind_eq_some_iff.mpr ⟨_, Record.required_of_lookup rfl rfl, ?_⟩
    cases value with
    | none => rfl
    | some value =>
      by_cases hnull : value = .null
      · subst hnull
        rfl
      · have hdecoded : (variableChanged name (some value)).decoded =
            variableChanged name (some value) :=
          decoded_eq_iff.mpr fun _ heq => by
            cases heq
            exact hnull rfl
        have hread : Json.option? (fun j => some j.normalize) (id value) = some (some value) :=
          Record.option?_of_ne_null hnull (Json.keeps_normal.reads value hregular)
        rw [hdecoded]
        exact Option.bind_eq_some_iff.mpr ⟨_, hread, rfl⟩

/-- A payload is read back, as one of its kind. -/
lemma ofJson?_toJson {p : Payload} (hcounted : p.IsCounted) (hregular : p.IsRegular) :
    ofJson? p.toJson = some p.decoded :=
  (ofJson?_toJson_eq p).trans (ofRecord?_fields hcounted hregular)

end Payload

/-- The numbers of the event are machine words, and its instant has a date. -/
structure IsCounted (e : Event) : Prop where
  payload : e.payload.IsCounted
  firedAt : e.firedAt.IsSound

/-- What the event is read as. -/
def decoded (e : Event) : Event := { e with payload := e.payload.decoded }

/-- An event is read back, as one of its kind. -/
lemma ofJson?_toJson {e : Event} (hcounted : e.IsCounted) (hregular : e.payload.IsRegular) :
    ofJson? e.toJson = some e.decoded := by
  have hrecord : Json.record? fieldNames e.toJson = some ⟨false, _⟩ :=
    Json.record?_obj (.refl _) (by decide)
  unfold ofJson?
  refine Option.bind_eq_some_iff.mpr ⟨_, hrecord, ?_⟩
  refine Option.bind_eq_some_iff.mpr ⟨_, Record.required_of_lookup rfl
    (Payload.ofJson?_toJson hcounted.payload hregular), ?_⟩
  refine Option.bind_eq_some_iff.mpr ⟨_, Record.required_of_lookup rfl
    (Instant.keeps.reads e.firedAt hcounted.firedAt), ?_⟩
  exact Option.bind_eq_some_iff.mpr ⟨_, Record.required_of_lookup rfl
    (Run.keeps.reads e.run trivial), rfl⟩

/-- An event that sets a variable is written like one that removes a variable only if it sets the
variable to `null`. -/
lemma exists_toJson_eq_iff {e : Event} {name : String} {value : Json}
    (he : e.payload = .variableChanged name (some value)) :
    (∃ d : Event, (∃ other, d.payload = .variableChanged other none) ∧ d.toJson = e.toJson) ↔
      value = .null := by
  constructor
  · rintro ⟨⟨_, at_, run⟩, ⟨other, rfl⟩, heq⟩
    obtain ⟨_, at', run'⟩ := e
    subst he
    simp only [toJson, Payload.toJson, Payload.fields, Json.ofOption, Json.obj.injEq,
      List.cons.injEq, Prod.mk.injEq, true_and] at heq
    exact heq.1.2.2.1.symm
  · rintro rfl
    refine ⟨{ e with payload := .variableChanged name none }, ⟨name, rfl⟩, ?_⟩
    simp only [toJson, he]
    rfl

end Event

end Recital

import Recital.Policy.Config
import Recital.Proofs.Playback.Record

/-!
# Records of policies and pacing

Backoffs are tagged with their kind, and a policy and the pacing of a playback may leave out any
field, which then holds what it holds in a new one.  They are read back from what they are written
as, like the records of a playback.  The speed of a playback has a number only if it is finite.
-/

namespace Recital

open Json (Keeps Yields Record)

/-! ### Backoffs -/

namespace Backoff

/-- The delays are 64-bit words. -/
def IsCounted : Backoff → Prop
  | .none => True
  | fixed delay => delay ≤ Text.wordMax
  | linear base => base ≤ Text.wordMax
  | exponential base limit _ => base ≤ Text.wordMax ∧ limit ≤ Text.wordMax

lemma keeps : Keeps toJson ofJson? IsCounted where
  reads b h := by
    cases b with
    | none => rfl
    | fixed delay =>
      have htag : Json.tagged? "kind" (fixed delay).toJson =
        some ("fixed", .obj [("delay_ms", .nat delay)]) := Json.tagged?_obj (by simp)
      unfold ofJson?
      rw [htag]
      exact Json.bind_record?_one (f := fixed) (Json.word?_nat h)
    | linear base =>
      have htag : Json.tagged? "kind" (linear base).toJson =
        some ("linear", .obj [("base_ms", .nat base)]) := Json.tagged?_obj (by simp)
      unfold ofJson?
      rw [htag]
      exact Json.bind_record?_one (f := linear) (Json.word?_nat h)
    | exponential base limit jitter =>
      have htag : Json.tagged? "kind" (exponential base limit jitter).toJson = some ("exponential",
          .obj [("base_ms", .nat base), ("max_ms", .nat limit), ("jitter", .bool jitter)]) :=
        Json.tagged?_obj (by simp)
      have hrecord : Json.record? ["base_ms", "max_ms", "jitter"]
          (.obj [("base_ms", .nat base), ("max_ms", .nat limit), ("jitter", .bool jitter)]) =
          some ⟨false, _⟩ :=
        Json.record?_obj (.refl _) (by decide)
      unfold ofJson?
      rw [htag]
      refine Option.bind_eq_some_iff.mpr ⟨_, hrecord, ?_⟩
      refine Option.bind_eq_some_iff.mpr ⟨_, Record.required_of_lookup rfl (Json.word?_nat h.1), ?_⟩
      refine Option.bind_eq_some_iff.mpr ⟨_, Record.required_of_lookup rfl (Json.word?_nat h.2), ?_⟩
      exact Option.bind_eq_some_iff.mpr ⟨_, Record.defaulted_of_lookup rfl rfl, rfl⟩
  yields j b h := by
    unfold ofJson? at h
    simp only [Option.bind_eq_bind] at h
    split at h
    · cases h
      trivial
    · cases h
      trivial
    · simp only [Option.bind_eq_some_iff] at h
      obtain ⟨r, -, delay, hdelay, heq⟩ := h
      cases heq
      exact Json.yields_word.required hdelay
    · simp only [Option.bind_eq_some_iff] at h
      obtain ⟨r, -, base, hbase, heq⟩ := h
      cases heq
      exact Json.yields_word.required hbase
    · simp only [Option.bind_eq_some_iff] at h
      obtain ⟨r, -, base, hbase, limit, hlimit, jitter, -, heq⟩ := h
      cases heq
      exact ⟨Json.yields_word.required hbase, Json.yields_word.required hlimit⟩
    · cases h

end Backoff

/-! ### Policies -/

namespace Policy

/-- The numbers of the policy are machine words. -/
structure IsCounted (p : Policy) : Prop where
  timeoutMs : p.timeoutMs ≤ Text.wordMax
  maxRetries : p.maxRetries ≤ Nat.pow 2 32 - 1
  backoff : p.backoff.IsCounted
  onError : ∀ r ∈ p.onError, r.IsCounted

/-- The fields that are written. -/
def fields (p : Policy) : List (String × Json) :=
  [("timeout_ms", .nat p.timeoutMs), ("max_retries", .nat p.maxRetries),
      ("backoff", p.backoff.toJson),
      ("retry_on", .arr (p.retryOn.map Fault.Category.toJson))] ++
    Json.fieldIfSome "category_hint" Fault.Category.toJson p.categoryHint ++
    Json.fieldIfSome "on_error" Remedy.toJson p.onError

variable {p : Policy}

lemma keys_fields : (p.fields.map Prod.fst).Sublist fieldNames := by
  simp only [fields, List.map_append]
  exact ((List.Sublist.refl ["timeout_ms", "max_retries", "backoff", "retry_on"]).append
    Json.keys_fieldIfSome).append Json.keys_fieldIfSome

/-- The fields that may be left out. -/
lemma lookup_fields :
    p.fields.lookup "category_hint" = p.categoryHint.map Fault.Category.toJson ∧
    p.fields.lookup "on_error" = p.onError.map Remedy.toJson := by
  simp only [fields, List.lookup_append, Json.lookup_field, Json.lookup_fieldIfSome,
    List.lookup_nil, String.reduceEq, if_true, if_false, Option.none_or, Option.or_none, and_self]

lemma keeps : Keeps toJson ofJson? IsCounted where
  reads p h := by
    have hrecord : Json.record? fieldNames p.toJson = some ⟨false, p.fields⟩ :=
      Json.record?_obj keys_fields (by decide)
    obtain ⟨hhint, hremedy⟩ := lookup_fields (p := p)
    unfold ofJson?
    refine Option.bind_eq_some_iff.mpr ⟨_, hrecord, ?_⟩
    refine Option.bind_eq_some_iff.mpr ⟨_, Record.defaulted_of_lookup rfl
      (Json.word?_nat h.timeoutMs), ?_⟩
    refine Option.bind_eq_some_iff.mpr ⟨_, Record.defaulted_of_lookup rfl
      (Json.natUpTo?_nat h.maxRetries), ?_⟩
    refine Option.bind_eq_some_iff.mpr ⟨_, Record.defaulted_of_lookup rfl
      (Backoff.keeps.reads p.backoff h.backoff), ?_⟩
    refine Option.bind_eq_some_iff.mpr ⟨_, Record.defaulted_of_lookup rfl
      (Json.list?_map fun c _ => (Fault.Category.keeps .free).reads c trivial), ?_⟩
    refine Option.bind_eq_some_iff.mpr ⟨_, Record.defaulted_option_of_lookup hhint
      (fun _ => Json.noConfusion) (fun c _ => (Fault.Category.keeps .free).reads c trivial), ?_⟩
    exact Option.bind_eq_some_iff.mpr ⟨_, Record.defaulted_option_of_lookup hremedy
      Remedy.toJson_ne_null (fun r hr => (Remedy.keeps .free).reads r (h.onError r hr)), rfl⟩
  yields j p h := by
    unfold ofJson? at h
    simp only [Option.bind_eq_bind, Option.bind_eq_some_iff] at h
    obtain ⟨r, -, timeout, htimeout, retries, hretries, backoff, hbackoff, retryOn, -, hint, -,
      remedy, hremedy, heq⟩ := h
    cases heq
    have hnone : Backoff.none.IsCounted := trivial
    exact {
      timeoutMs := Json.yields_word.defaulted (by decide) htimeout
      maxRetries := Json.yields_word32.defaulted (Nat.zero_le _) hretries
      backoff := Backoff.keeps.yields.defaulted hnone hbackoff
      onError := (Remedy.keeps .free).yields.option.defaulted
        (fun _ h => absurd h (Option.not_mem_none _)) hremedy }

end Policy

/-! ### Pacing -/

namespace Pacing

/-- The numbers of the pacing are 64-bit words. -/
structure IsCounted (p : Pacing) : Prop where
  lineDelayMs : p.lineDelayMs ≤ Text.wordMax
  autosaveSecs : ∀ n ∈ p.autosaveSecs, n ≤ Text.wordMax

/-- The fields that are written. -/
def fields (p : Pacing) : List (String × Json) :=
  [("line_delay_ms", .nat p.lineDelayMs), ("playback_speed", .float p.speed)] ++
    Json.fieldIfSome "autosave_interval_secs" .nat p.autosaveSecs ++
    [("autosave_key", .str p.autosaveKey)]

variable {p : Pacing}

lemma keys_fields : (p.fields.map Prod.fst).Sublist fieldNames := by
  simp only [fields, List.map_append]
  exact ((List.Sublist.refl ["line_delay_ms", "playback_speed"]).append
    Json.keys_fieldIfSome).append (.refl ["autosave_key"])

/-- The field that may be left out and the one after it. -/
lemma lookup_fields :
    p.fields.lookup "autosave_interval_secs" = p.autosaveSecs.map .nat ∧
    p.fields.lookup "autosave_key" = some (.str p.autosaveKey) := by
  simp only [fields, List.lookup_append, Json.lookup_field, Json.lookup_fieldIfSome,
    List.lookup_nil, String.reduceEq, if_true, if_false, Option.none_or, Option.or_none, and_self]

/-- A pacing with a finite speed is read back. -/
lemma ofJson?_toJson (h : p.IsCounted) (hspeed : p.speed.isFinite = true) :
    ofJson? p.toJson = some p := by
  have hrecord : Json.record? fieldNames p.toJson = some ⟨false, p.fields⟩ :=
    Json.record?_obj keys_fields (by decide)
  obtain ⟨hsecs, hkey⟩ := lookup_fields (p := p)
  unfold ofJson?
  refine Option.bind_eq_some_iff.mpr ⟨_, hrecord, ?_⟩
  refine Option.bind_eq_some_iff.mpr ⟨_, Record.defaulted_of_lookup rfl
    (Json.word?_nat h.lineDelayMs), ?_⟩
  refine Option.bind_eq_some_iff.mpr ⟨_, Record.defaulted_of_lookup rfl
    (Json.float?_float hspeed), ?_⟩
  refine Option.bind_eq_some_iff.mpr ⟨_, Record.defaulted_option_of_lookup hsecs
    (fun _ => Json.noConfusion) (fun n hn => Json.word?_nat (h.autosaveSecs n hn)), ?_⟩
  exact Option.bind_eq_some_iff.mpr ⟨_, Record.defaulted_of_lookup hkey rfl, rfl⟩

lemma yields : Yields ofJson? IsCounted := by
  intro j p h
  unfold ofJson? at h
  simp only [Option.bind_eq_bind, Option.bind_eq_some_iff] at h
  obtain ⟨r, -, delay, hdelay, speed, -, secs, hsecs, key, -, heq⟩ := h
  cases heq
  exact ⟨Json.yields_word.defaulted (Nat.zero_le _) hdelay,
    Json.yields_word.option.defaulted (fun _ h => absurd h (Option.not_mem_none _)) hsecs⟩

end Pacing

/-! ### All data -/

/-- Data is decoded from what it is encoded as, and decoding settles after one step: whatever was
decoded from any value is decoded from its own code as the same, which is encoded as before.  The
speed of a pacing has to be finite, and an instant has to have a date. -/
theorem encoding_is_lossless :
    Json.Lossless Flow.toJson Flow.ofJson? Flow.IsCounted ∧
    Json.Lossless Target.toJson Target.ofJson? Target.IsCounted ∧
    Json.Lossless Remedy.toJson Remedy.ofJson? Remedy.IsCounted ∧
    Json.Lossless Fault.toJson Fault.ofJson? Fault.IsCounted ∧
    Json.Lossless Frame.toJson Frame.ofJson? (fun f => f.returnLine ≤ Text.wordMax) ∧
    Json.Lossless Snapshot.toJson Snapshot.ofJson? Snapshot.IsRegular ∧
    Json.Lossless Report.toJson Report.ofJson? Report.IsCounted ∧
    Json.Lossless Run.toJson Run.ofJson? (fun _ => True) ∧
    Json.Lossless Backoff.toJson Backoff.ofJson? Backoff.IsCounted ∧
    Json.Lossless Policy.toJson Policy.ofJson? Policy.IsCounted ∧
    (∀ p : Pacing, p.IsCounted → p.speed.isFinite = true → Pacing.ofJson? p.toJson = some p) ∧
    (∀ j p, Pacing.ofJson? j = some p → p.speed.isFinite = true →
      p.IsCounted ∧ Pacing.ofJson? p.toJson = some p ∧
      (Pacing.ofJson? p.toJson).map Pacing.toJson = some p.toJson) := by
  have hpacing : ∀ j p, Pacing.ofJson? j = some p → p.speed.isFinite = true →
      p.IsCounted ∧ Pacing.ofJson? p.toJson = some p ∧
      (Pacing.ofJson? p.toJson).map Pacing.toJson = some p.toJson := by
    intro j p h hspeed
    have hcounted : p.IsCounted := Pacing.yields j p h
    have hagain : Pacing.ofJson? p.toJson = some p := Pacing.ofJson?_toJson hcounted hspeed
    exact ⟨hcounted, hagain, by rw [hagain, Option.map_some]⟩
  exact ⟨Flow.keeps.lossless, Target.keeps.lossless, (Remedy.keeps .free).lossless,
    (Fault.keeps .free).lossless, Frame.keeps.lossless, Snapshot.keeps.lossless,
    (Report.keeps .free).lossless, Run.keeps.lossless, Backoff.keeps.lossless,
    Policy.keeps.lossless,
    fun p => Pacing.ofJson?_toJson, hpacing⟩

/-- A report with a fault whose remedy is a jump, and a pacing at double speed. -/
theorem failed_report_and_fast_pacing_are_decoded :
    let fault : Fault := {
      message := "lost", severity := .critical, category := .network, lineIndex := some 3,
      remedy := some (.jump (.line 7)), attempts := 2 }
    let report : Report := {
      outcome := .failure, scriptName := "main", linesExecuted := 3, commandsExecuted := 2,
      elapsed := ⟨1500000000⟩, fault := some fault, lineIndex := some 3 }
    let pacing : Pacing := { speed := ⟨0x4000000000000000⟩, autosaveSecs := some 60 }
    Report.ofJson? report.toJson = some report ∧ Pacing.ofJson? pacing.toJson = some pacing := by
  intro fault report pacing
  obtain ⟨-, -, -, -, -, -, hreport, -, -, -, hpacing, -⟩ := encoding_is_lossless
  have hfault : fault.IsCounted := ⟨by decide, by simp [fault, Remedy.IsCounted, Target.IsCounted,
    Text.wordMax], by decide⟩
  refine ⟨hreport.decodes report ⟨by decide, by decide, by unfold Span.IsShort; decide,
    ?_, by decide⟩,
    hpacing pacing ⟨by decide, by decide⟩ (by decide)⟩
  rintro f hf
  cases hf
  exact hfault

end Recital

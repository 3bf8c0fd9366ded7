import Recital.Playback.Event
import Recital.Proofs.Json.Record
import Recital.Proofs.Store.Snapshots

/-!
# Records of a playback

Faults, snapshots, reports and flow actions are written as records and choices.  Each of them is
read back as what it was, as long as its numbers are machine words, and what is read has no other
numbers (`Json.Keeps`).  For a fault and a report this holds wherever they stand, on their own or in
an event.

A field that holds nothing is left out, and only such a field may be missing: were a value written
as `null`, it could not be told from none.
-/

namespace Recital

open Json (Keeps Yields Record)

lemma Table.eq_empty_of_isEmpty {α : Type} {t : Table α} (h : t.isEmpty = true) : t = ∅ :=
  Table.ext (List.isEmpty_iff.mp h)

/-! ### Targets and remedies -/

namespace Target

/-- The line is a 64-bit word. -/
def IsCounted : Target → Prop
  | line n => n ≤ Text.wordMax
  | label _ => True

lemma keeps : Keeps toJson ofJson? IsCounted where
  reads t h := by
    cases t with
    | line n =>
      change ((Json.nat n).word?).map line = some (line n)
      rw [Json.word?_nat h, Option.map_some]
    | label name => rfl
  yields j t h := by
    unfold ofJson? at h
    split at h
    · exact Yields.map (f := line) (Q := IsCounted) (Json.yields_word _) h
    · exact Yields.map (f := label) (Q := IsCounted) (fun _ _ => trivial) h
    · cases h

end Target

namespace Remedy

/-- The line of a jump is a 64-bit word. -/
def IsCounted : Remedy → Prop
  | jump target => target.IsCounted
  | _ => True

lemma toJson_ne_null (r : Remedy) : r.toJson ≠ .null := by
  cases r <;> exact Json.noConfusion

lemma keeps (site : Json.Site) : Keeps toJson (ofJsonAt? site) IsCounted where
  reads r h := by
    cases r with
    | jump target =>
      change (Target.ofJson? target.toJson).map jump = some (jump target)
      rw [Target.keeps.reads target h, Option.map_some]
    | skip | stop | rollback | retry => rfl
  yields j r h := by
    unfold ofJsonAt? at h
    split at h
    · exact Yields.map (f := jump) (Q := IsCounted) (Target.keeps.yields _) h
    · next name payload _ =>
      -- A name on its own never stands for a jump.
      split at h
      · unfold ofName? at h
        split at h <;> cases h <;> trivial
      · cases h
    · cases h

end Remedy

/-! ### Faults -/

namespace Fault

lemma Category.keeps (site : Json.Site) :
    Keeps Category.toJson (Category.ofJsonAt? site) fun _ => True where
  reads c _ := by cases c <;> rfl
  yields := .trivial

lemma Severity.keeps (site : Json.Site) :
    Keeps Severity.toJson (Severity.ofJsonAt? site) fun _ => True where
  reads s _ := by cases s <;> rfl
  yields := .trivial

/-- The numbers of the fault are machine words. -/
structure IsCounted (f : Fault) : Prop where
  lineIndex : ∀ n ∈ f.lineIndex, n ≤ Text.wordMax
  remedy : ∀ r ∈ f.remedy, r.IsCounted
  attempts : f.attempts ≤ Nat.pow 2 32 - 1

variable {f : Fault}

/-- The fields that are written. -/
def fields (f : Fault) : List (String × Json) :=
  [("message", .str f.message), ("severity", f.severity.toJson),
      ("category", f.category.toJson)] ++
    Json.fieldIfSome "command_type" .str f.commandType ++
    Json.fieldIfSome "line_index" .nat f.lineIndex ++
    Json.fieldIfSome "script_name" .str f.scriptName ++
    [("retryable", .bool f.retryable)] ++
    Json.fieldIfSome "recovery_action" Remedy.toJson f.remedy ++
    (if f.suggestion.isEmpty then [] else [("suggestion", .str f.suggestion)]) ++
    [("retry_attempts", .nat f.attempts)] ++
    (if f.context.isEmpty then [] else [("context", Json.ofTable .str f.context)])

lemma keys_fields : (f.fields.map Prod.fst).Sublist fieldNames := by
  simp only [fields, List.map_append]
  exact ((((((((List.Sublist.refl ["message", "severity", "category"]).append
    Json.keys_fieldIfSome).append Json.keys_fieldIfSome).append Json.keys_fieldIfSome).append
    (.refl ["retryable"])).append Json.keys_fieldIfSome).append Json.keys_ite).append
    (.refl ["retry_attempts"])).append Json.keys_ite

/-- The fields that are there, each with what it holds. -/
lemma lookup_fields :
    f.fields.lookup "message" = some (.str f.message) ∧
    f.fields.lookup "severity" = some f.severity.toJson ∧
    f.fields.lookup "category" = some f.category.toJson ∧
    f.fields.lookup "command_type" = f.commandType.map .str ∧
    f.fields.lookup "line_index" = f.lineIndex.map .nat ∧
    f.fields.lookup "script_name" = f.scriptName.map .str ∧
    f.fields.lookup "retryable" = some (.bool f.retryable) ∧
    f.fields.lookup "recovery_action" = f.remedy.map Remedy.toJson ∧
    f.fields.lookup "suggestion" =
      (if f.suggestion.isEmpty then none else some (.str f.suggestion)) ∧
    f.fields.lookup "retry_attempts" = some (.nat f.attempts) ∧
    f.fields.lookup "context" =
      (if f.context.isEmpty then none else some (Json.ofTable .str f.context)) := by
  simp only [fields, List.lookup_append, Json.lookup_field, Json.lookup_fieldIfSome,
    Json.lookup_ite, List.lookup_nil, String.reduceEq, if_true, if_false, Option.none_or,
    Option.or_none, and_self]

lemma keeps (site : Json.Site) : Keeps toJson (ofJsonAt? site) IsCounted where
  reads f h := by
    have hrecord : Json.record? fieldNames f.toJson = some ⟨false, f.fields⟩ :=
      Json.record?_obj keys_fields (by decide)
    obtain ⟨hmessage, hseverity, hcategory, htype, hline, hscript, hretryable, hremedy, hsuggestion,
      hattempts, hcontext⟩ := lookup_fields (f := f)
    -- One step for each field, in the order in which they are read.
    refine Option.bind_eq_some_iff.mpr ⟨_, hrecord, ?_⟩
    refine Option.bind_eq_some_iff.mpr ⟨_, Record.required_of_lookup hmessage rfl, ?_⟩
    refine Option.bind_eq_some_iff.mpr ⟨_, Record.required_of_lookup hseverity
      ((Severity.keeps site).reads f.severity trivial), ?_⟩
    refine Option.bind_eq_some_iff.mpr ⟨_, Record.required_of_lookup hcategory
      ((Category.keeps site).reads f.category trivial), ?_⟩
    refine Option.bind_eq_some_iff.mpr ⟨_, Record.optional_of_lookup rfl htype
      (fun _ => Json.noConfusion) (fun _ _ => rfl), ?_⟩
    refine Option.bind_eq_some_iff.mpr ⟨_, Record.optional_of_lookup rfl hline
      (fun _ => Json.noConfusion) (fun n hn => Json.word?_nat (h.lineIndex n hn)), ?_⟩
    refine Option.bind_eq_some_iff.mpr ⟨_, Record.optional_of_lookup rfl hscript
      (fun _ => Json.noConfusion) (fun _ _ => rfl), ?_⟩
    refine Option.bind_eq_some_iff.mpr ⟨_, Record.required_of_lookup hretryable rfl, ?_⟩
    refine Option.bind_eq_some_iff.mpr ⟨_, Record.optional_of_lookup rfl hremedy
      Remedy.toJson_ne_null (fun r hr => (Remedy.keeps site).reads r (h.remedy r hr)), ?_⟩
    refine Option.bind_eq_some_iff.mpr ⟨_, Record.defaulted_of_lookup_ite hsuggestion rfl
      String.isEmpty_iff.mp, ?_⟩
    refine Option.bind_eq_some_iff.mpr ⟨_, Record.defaulted_of_lookup hattempts
      (Json.natUpTo?_nat h.attempts), ?_⟩
    refine Option.bind_eq_some_iff.mpr ⟨_, Record.defaulted_of_lookup_ite hcontext
      (Json.table?_ofTable fun _ _ => rfl) Table.eq_empty_of_isEmpty, ?_⟩
    rfl
  yields j f h := by
    unfold ofJsonAt? at h
    obtain ⟨r, -, h⟩ := Option.bind_eq_some_iff.mp h
    obtain ⟨message, -, h⟩ := Option.bind_eq_some_iff.mp h
    obtain ⟨severity, -, h⟩ := Option.bind_eq_some_iff.mp h
    obtain ⟨category, -, h⟩ := Option.bind_eq_some_iff.mp h
    obtain ⟨type, -, h⟩ := Option.bind_eq_some_iff.mp h
    obtain ⟨line, hline, h⟩ := Option.bind_eq_some_iff.mp h
    obtain ⟨script, -, h⟩ := Option.bind_eq_some_iff.mp h
    obtain ⟨retryable, -, h⟩ := Option.bind_eq_some_iff.mp h
    obtain ⟨remedy, hremedy, h⟩ := Option.bind_eq_some_iff.mp h
    obtain ⟨suggestion, -, h⟩ := Option.bind_eq_some_iff.mp h
    obtain ⟨attempts, hattempts, h⟩ := Option.bind_eq_some_iff.mp h
    obtain ⟨context, -, h⟩ := Option.bind_eq_some_iff.mp h
    -- Only the fields that hold numbers have anything to say.
    cases h
    exact ⟨Json.yields_word.optional hline, (Remedy.keeps site).yields.optional hremedy,
      Json.yields_word32.defaulted (Nat.zero_le _) hattempts⟩

end Fault

/-! ### Flow actions -/

namespace Flow

/-- The line of a jump is a 64-bit word. -/
def IsCounted : Flow → Prop
  | toLine n => n ≤ Text.wordMax
  | _ => True

lemma keeps : Keeps toJson ofJson? IsCounted where
  reads flow h := by
    cases flow with
    | toLine n =>
      change ((Json.nat n).word?).map toLine = some (toLine n)
      rw [Json.word?_nat h, Option.map_some]
    | next | toLabel | stop | back | call => rfl
  yields j flow h := by
    unfold ofJson? at h
    split at h
    · exact Yields.map (f := toLine) (Q := IsCounted) (Json.yields_word _) h
    · exact Yields.map (f := toLabel) (Q := IsCounted) (fun _ _ => trivial) h
    · exact Yields.map (f := stop) (Q := IsCounted) (fun _ _ => trivial) h
    · exact Yields.map (f := call) (Q := IsCounted) (fun _ _ => trivial) h
    · split at h
      · cases h
        trivial
      · cases h
    · split at h
      · cases h
        trivial
      · cases h
    · cases h

end Flow

/-! ### Snapshots -/

namespace Frame

lemma keeps : Keeps toJson ofJson? fun f => f.returnLine ≤ Text.wordMax where
  reads f h := by
    unfold ofJson? toJson
    exact Json.bind_record?_one (f := Frame.mk) (Json.word?_nat h)
  yields j f h := by
    unfold ofJson? at h
    simp only [Option.bind_eq_bind, Option.bind_eq_some_iff] at h
    obtain ⟨r, -, line, hline, heq⟩ := h
    cases heq
    exact Json.yields_word.required hline

end Frame

lemma Instant.keeps : Keeps toJson ofJson? IsSound where
  reads t h := by
    refine Option.bind_eq_some_iff.mpr ⟨t.text, rfl, ?_⟩
    exact ofText?_text h
  yields j t h := by
    obtain ⟨s, -, hs⟩ := Option.bind_eq_some_iff.mp h
    exact isSound_of_ofText? hs

namespace Json

/-- A value in a table is written as it is, and what is read is normal. -/
lemma keeps_normal : Keeps id (fun j => some j.normalize) IsNormal where
  reads _ h := congrArg some h.normalize_eq
  yields j x h := by
    cases h
    exact isNormal_normalize j

end Json

namespace Snapshot

/-- The numbers of the snapshot are 64-bit words, its instant has a date, and the values of its
variables are normal. -/
structure IsRegular (s : Snapshot) : Prop extends s.IsCounted where
  vars : s.Holds Json.IsNormal

lemma keeps : Keeps toJson ofJson? IsRegular where
  reads s h := by
    have hrecord : Json.record? fieldNames s.toJson = some ⟨false, _⟩ :=
      Json.record?_obj (.refl _) (by decide)
    unfold ofJson?
    refine Option.bind_eq_some_iff.mpr ⟨_, hrecord, ?_⟩
    refine Option.bind_eq_some_iff.mpr ⟨_, Record.required_of_lookup rfl rfl, ?_⟩
    refine Option.bind_eq_some_iff.mpr ⟨_, Record.required_of_lookup rfl
      (Json.word?_nat h.cursor), ?_⟩
    refine Option.bind_eq_some_iff.mpr ⟨_, Record.defaulted_of_lookup rfl
      (Json.list?_map fun f hf => Frame.keeps.reads f (h.frames f hf)), ?_⟩
    refine Option.bind_eq_some_iff.mpr ⟨_, Record.defaulted_of_lookup rfl
      (Json.table?_ofTable fun e he => Json.keeps_normal.reads e.2 (h.vars e he)), ?_⟩
    refine Option.bind_eq_some_iff.mpr ⟨_, Record.defaulted_of_lookup rfl
      (Json.list?_map fun n hn => Json.word?_nat (h.breakpoints n hn)), ?_⟩
    refine Option.bind_eq_some_iff.mpr ⟨_, Record.defaulted_of_lookup rfl
      (Json.word?_nat h.linesExecuted), ?_⟩
    refine Option.bind_eq_some_iff.mpr ⟨_, Record.defaulted_of_lookup rfl
      (Json.word?_nat h.commandsExecuted), ?_⟩
    exact Option.bind_eq_some_iff.mpr ⟨_, Record.required_of_lookup rfl
      (Instant.keeps.reads s.savedAt h.savedAt), rfl⟩
  yields j s h := by
    have hnormal : s.Holds Json.IsNormal := isNormal_of_ofJson? h
    unfold ofJson? at h
    obtain ⟨r, -, h⟩ := Option.bind_eq_some_iff.mp h
    obtain ⟨name, -, h⟩ := Option.bind_eq_some_iff.mp h
    obtain ⟨cursor, hcursor, h⟩ := Option.bind_eq_some_iff.mp h
    obtain ⟨frames, hframes, h⟩ := Option.bind_eq_some_iff.mp h
    obtain ⟨vars, -, h⟩ := Option.bind_eq_some_iff.mp h
    obtain ⟨breakpoints, hbreakpoints, h⟩ := Option.bind_eq_some_iff.mp h
    obtain ⟨lines, hlines, h⟩ := Option.bind_eq_some_iff.mp h
    obtain ⟨commands, hcommands, h⟩ := Option.bind_eq_some_iff.mp h
    obtain ⟨savedAt, hsavedAt, h⟩ := Option.bind_eq_some_iff.mp h
    cases h
    exact {
      cursor := Json.yields_word.required hcursor
      frames := Frame.keeps.yields.list.defaulted (fun _ h => absurd h List.not_mem_nil) hframes
      breakpoints := Json.yields_word.list.defaulted (fun _ h => absurd h List.not_mem_nil)
        hbreakpoints
      linesExecuted := Json.yields_word.defaulted (Nat.zero_le _) hlines
      commandsExecuted := Json.yields_word.defaulted (Nat.zero_le _) hcommands
      savedAt := Instant.keeps.yields.required hsavedAt
      vars := hnormal }

end Snapshot

/-! ### Reports -/

lemma Outcome.keeps (site : Json.Site) : Keeps toJson (ofJsonAt? site) fun _ => True where
  reads o _ := by cases o <;> rfl
  yields := .trivial

namespace Span

/-- A span that is not too long. -/
def IsShort (d : Span) : Prop := d.nanos ≤ longest.nanos

lemma isShort_of_ite {known : Bool} {n : Nat} {d : Span}
    (h : (if known && decide (n ≤ longest.nanos) then some (Span.mk n) else none) = some d) :
    d.IsShort := by
  split at h
  · next hfits =>
    cases h
    rw [Bool.and_eq_true, decide_eq_true_eq] at hfits
    exact hfits.2
  · cases h

lemma keeps : Keeps toJson ofJson? IsShort where
  reads d h := by
    have hrecord : Json.record? ["secs", "nanos"] d.toJson = some ⟨false, _⟩ :=
      Json.record?_obj (.refl _) (by decide)
    have hlongest : longest.nanos = 18446744073709551615999999999 := rfl
    have hbound : d.nanos ≤ 18446744073709551615999999999 := hlongest ▸ h
    have hsecond : perSecond = 1000000000 := rfl
    have hsecs : d.secs ≤ Text.wordMax := by
      have hmax : Text.wordMax = 18446744073709551615 := rfl
      rw [secs, hsecond, hmax]
      omega
    have hsubsec : d.subsec ≤ Nat.pow 2 32 - 1 := by
      have hmax : Nat.pow 2 32 = 4294967296 := rfl
      rw [subsec, hsecond, hmax]
      omega
    have htotal : d.secs * perSecond + d.subsec = d.nanos := Nat.div_add_mod' _ _
    unfold ofJson?
    refine Option.bind_eq_some_iff.mpr ⟨true, rfl, ?_⟩
    refine Option.bind_eq_some_iff.mpr ⟨_, hrecord, ?_⟩
    refine Option.bind_eq_some_iff.mpr ⟨_, Record.required_of_lookup rfl (Json.word?_nat hsecs), ?_⟩
    refine Option.bind_eq_some_iff.mpr
      ⟨_, Record.required_of_lookup rfl (Json.natUpTo?_nat hsubsec), ?_⟩
    dsimp only
    rw [htotal]
    exact if_pos (by simpa [IsShort] using h)
  yields j d h := by
    unfold ofJson? at h
    simp only [Option.bind_eq_bind] at h
    split at h
    · simp only [Option.bind_eq_some_iff] at h
      obtain ⟨known, -, r, -, secs, -, nanos, -, h⟩ := h
      exact isShort_of_ite h
    · simp only [Option.bind_eq_some_iff] at h
      obtain ⟨known, -, r, -, secs, -, nanos, -, h⟩ := h
      exact isShort_of_ite h
    · cases h

end Span

namespace Report

/-- The numbers of the report are machine words, and so are those of its fault. -/
structure IsCounted (r : Report) : Prop where
  linesExecuted : r.linesExecuted ≤ Text.wordMax
  commandsExecuted : r.commandsExecuted ≤ Text.wordMax
  elapsed : r.elapsed.IsShort
  fault : ∀ f ∈ r.fault, f.IsCounted
  lineIndex : ∀ n ∈ r.lineIndex, n ≤ Text.wordMax

/-- The fields that are written. -/
def fields (r : Report) : List (String × Json) :=
  [("outcome", r.outcome.toJson), ("script_name", .str r.scriptName),
      ("lines_executed", .nat r.linesExecuted), ("commands_executed", .nat r.commandsExecuted),
      ("elapsed", r.elapsed.toJson)] ++
    Json.fieldIfSome "error" Fault.toJson r.fault ++
    Json.fieldIfSome "line_index" .nat r.lineIndex

variable {r : Report}

lemma keys_fields : (r.fields.map Prod.fst).Sublist fieldNames := by
  simp only [fields, List.map_append]
  exact ((List.Sublist.refl ["outcome", "script_name", "lines_executed", "commands_executed",
    "elapsed"]).append Json.keys_fieldIfSome).append Json.keys_fieldIfSome

/-- The fields that may be left out. -/
lemma lookup_fields : r.fields.lookup "error" = r.fault.map Fault.toJson ∧
    r.fields.lookup "line_index" = r.lineIndex.map .nat := by
  simp only [fields, List.lookup_append, Json.lookup_field, Json.lookup_fieldIfSome,
    List.lookup_nil, String.reduceEq, if_true, if_false, Option.none_or, Option.or_none, and_self]

lemma keeps (site : Json.Site) : Keeps toJson (ofJsonAt? site) IsCounted where
  reads r h := by
    have hrecord : Json.record? fieldNames r.toJson = some ⟨false, r.fields⟩ :=
      Json.record?_obj keys_fields (by decide)
    obtain ⟨hfault, hline⟩ := lookup_fields (r := r)
    refine Option.bind_eq_some_iff.mpr ⟨_, hrecord, ?_⟩
    refine Option.bind_eq_some_iff.mpr ⟨_, Record.required_of_lookup rfl
      ((Outcome.keeps site).reads r.outcome trivial), ?_⟩
    refine Option.bind_eq_some_iff.mpr ⟨_, Record.required_of_lookup rfl rfl, ?_⟩
    refine Option.bind_eq_some_iff.mpr ⟨_, Record.required_of_lookup rfl
      (Json.word?_nat h.linesExecuted), ?_⟩
    refine Option.bind_eq_some_iff.mpr ⟨_, Record.required_of_lookup rfl
      (Json.word?_nat h.commandsExecuted), ?_⟩
    refine Option.bind_eq_some_iff.mpr ⟨_, Record.required_of_lookup rfl
      (Span.keeps.reads r.elapsed h.elapsed), ?_⟩
    refine Option.bind_eq_some_iff.mpr ⟨_, Record.optional_of_lookup rfl hfault
      (fun _ => Json.noConfusion) (fun f hf => (Fault.keeps site).reads f (h.fault f hf)), ?_⟩
    exact Option.bind_eq_some_iff.mpr ⟨_, Record.optional_of_lookup rfl hline
      (fun _ => Json.noConfusion) (fun n hn => Json.word?_nat (h.lineIndex n hn)), rfl⟩
  yields j r h := by
    unfold ofJsonAt? at h
    simp only [Option.bind_eq_bind, Option.bind_eq_some_iff] at h
    obtain ⟨record, -, outcome, -, name, -, lines, hlines, commands, hcommands, elapsed, helapsed,
      fault, hfault, line, hline, heq⟩ := h
    cases heq
    exact {
      linesExecuted := Json.yields_word.required hlines
      commandsExecuted := Json.yields_word.required hcommands
      elapsed := Span.keeps.yields.required helapsed
      fault := (Fault.keeps site).yields.optional hfault
      lineIndex := Json.yields_word.optional hline }

end Report

/-! ### Runs -/

namespace Run

lemma keeps : Keeps toJson ofJson? fun _ => True where
  reads r _ := by
    have hkeys : (((("id", .str r.id) :: Json.fieldIfSome "parent_id" .str r.parent :
        List (String × Json))).map Prod.fst).Sublist fieldNames :=
      (List.Sublist.refl ["id"]).append Json.keys_fieldIfSome
    have hparent : (("id", .str r.id) :: Json.fieldIfSome "parent_id" .str r.parent :
        List (String × Json)).lookup "parent_id" = r.parent.map .str := by
      simp
    refine Option.bind_eq_some_iff.mpr ⟨_, Json.record?_obj hkeys (by decide), ?_⟩
    refine Option.bind_eq_some_iff.mpr ⟨_, Record.required_of_lookup rfl rfl, ?_⟩
    exact Option.bind_eq_some_iff.mpr ⟨_, Record.optional_of_lookup rfl hparent
      (fun _ => Json.noConfusion) (fun _ _ => rfl), rfl⟩
  yields := .trivial

end Run

end Recital

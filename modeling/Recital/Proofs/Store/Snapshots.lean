import Recital.Playback.Snapshot
import Recital.Proofs.Json.Drafted
import Recital.Proofs.Json.Record
import Recital.Proofs.Time.Instant
import Recital.Proofs.Player.LastingChange
import Recital.Proofs.Store.Documents

/-!
# Snapshots in files

A snapshot goes through three forms on its way to a file: a record of its fields, an envelope about
the record, and the text of the envelope.  Each is read back as what it was, as long as the values
of the variables do not nest too deeply: three of the levels that the reader admits are taken up by
the envelope, the record and the table of variables (`Json.IsPortable`).
-/

namespace Recital

namespace Json

/-- A value that can be the value of a variable in a snapshot that is saved. -/
structure IsPortable (j : Json) : Prop where
  normal : j.IsNormal
  fits : j.Fits (depthLimit - 3)

lemma isProper_nat {n : Nat} (h : n ≤ Text.wordMax) : (Number.integer n).IsProper := by
  have hmax : Text.wordMax = 18446744073709551615 := rfl
  change -2 ^ 63 ≤ (n : Int) ∧ (n : Int) < 2 ^ 64
  omega

end Json

/-! ### Snapshots -/

/-- The numbers of the snapshot are 64-bit words, and its instant has a date. -/
structure Snapshot.IsCounted (s : Snapshot) : Prop where
  cursor : s.cursor ≤ Text.wordMax
  frames : ∀ f ∈ s.frames, f.returnLine ≤ Text.wordMax
  breakpoints : ∀ n ∈ s.breakpoints, n ≤ Text.wordMax
  linesExecuted : s.linesExecuted ≤ Text.wordMax
  commandsExecuted : s.commandsExecuted ≤ Text.wordMax
  savedAt : s.savedAt.IsSound

/-- All parts of the snapshot can be saved in a file. -/
structure Snapshot.IsPortable (s : Snapshot) : Prop extends s.IsCounted where
  vars : s.Holds Json.IsPortable

namespace Snapshot

variable {s : Snapshot}

/-- The record of a snapshot with its fields in order. -/
def sorted (s : Snapshot) : Json :=
  .obj
    [("breakpoints", .arr (s.breakpoints.map .nat)),
      ("call_stack", .arr (s.frames.map Frame.toJson)),
      ("commands_executed", .nat s.commandsExecuted), ("cursor", .nat s.cursor),
      ("lines_executed", .nat s.linesExecuted), ("saved_at", s.savedAt.toJson),
      ("script_name", .str s.scriptName), ("variables", Json.ofTable id s.vars)]

lemma isNormal_frame (f : Frame) : f.toJson.IsNormal :=
  .obj (List.pairwise_singleton _ _) fun e he => by rw [List.mem_singleton.mp he]; exact .num

lemma isNormal_frames (frames : List Frame) : Json.IsNormal (.arr (frames.map Frame.toJson)) := by
  refine .arr fun j hj => ?_
  obtain ⟨f, -, rfl⟩ := List.mem_map.mp hj
  exact isNormal_frame f

lemma isNormal_nats (ns : List Nat) : Json.IsNormal (.arr (ns.map .nat)) := by
  refine .arr fun j hj => ?_
  obtain ⟨n, -, rfl⟩ := List.mem_map.mp hj
  exact .num

lemma IsPortable.normal (h : s.IsPortable) : s.Holds Json.IsNormal :=
  fun e he => (h.vars e he).normal

lemma isNormal_vars (h : s.Holds Json.IsNormal) : (Json.ofTable id s.vars).IsNormal := by
  refine .obj (s.vars.increasing.map _ fun _ _ h => h) fun e he => ?_
  obtain ⟨x, hx, rfl⟩ := List.mem_map.mp he
  exact h x hx

lemma isNormal_sorted (h : s.Holds Json.IsNormal) : s.sorted.IsNormal := by
  have hkeys : (["breakpoints", "call_stack", "commands_executed", "cursor", "lines_executed",
      "saved_at", "script_name", "variables"] : List String).Pairwise (· < ·) := by decide
  refine .obj (List.pairwise_map.mp hkeys) ?_
  simp only [List.forall_mem_cons]
  exact ⟨isNormal_nats _, isNormal_frames _, .num, .num, .num, .str, .str, isNormal_vars h,
    fun _ he => absurd he List.not_mem_nil⟩

lemma normalize_toJson (h : s.Holds Json.IsNormal) : s.toJson.normalize = s.sorted := by
  have hframes := (isNormal_frames s.frames).normalize_eq
  have hbreakpoints := (isNormal_nats s.breakpoints).normalize_eq
  have hvars := (isNormal_vars h).normalize_eq
  unfold toJson sorted
  rw [Json.normalize]
  congr 1
  simp only [Json.normalizeFields, hframes, hbreakpoints, hvars]
  rfl

lemma fits_sorted (h : s.IsPortable) : s.sorted.Fits (Json.depthLimit - 1) := by
  have hnats : ∀ ns : List Nat, (∀ n ∈ ns, n ≤ Text.wordMax) →
      Json.Fits (124 + 1) (.arr (ns.map .nat)) := fun ns hns => .arr fun j hj => by
    obtain ⟨n, hn, rfl⟩ := List.mem_map.mp hj
    exact .num (Json.isProper_nat (hns n hn))
  have hframes : Json.Fits (124 + 1) (.arr (s.frames.map Frame.toJson)) := .arr fun j hj => by
    obtain ⟨f, hf, rfl⟩ := List.mem_map.mp hj
    refine (.obj fun e he => ?_ : Json.Fits (123 + 1) f.toJson)
    rw [List.mem_singleton.mp he]
    exact .num (Json.isProper_nat (h.frames f hf))
  have hvars : Json.Fits (124 + 1) (Json.ofTable id s.vars) := .obj fun e he => by
    obtain ⟨x, hx, rfl⟩ := List.mem_map.mp he
    exact (h.vars x hx).fits
  refine (.obj ?_ : Json.Fits (125 + 1) s.sorted)
  simp only [List.forall_mem_cons]
  exact ⟨hnats _ h.breakpoints, hframes, .num (Json.isProper_nat h.commandsExecuted),
    .num (Json.isProper_nat h.cursor), .num (Json.isProper_nat h.linesExecuted), .str, .str, hvars,
    fun _ he => absurd he List.not_mem_nil⟩

/-- The fields of a record that is in order are read one by one. -/
lemma ofJson?_obj (breakpoints frames commands cursor lines savedAt name vars : Json) :
    ofJson? (.obj [("breakpoints", breakpoints), ("call_stack", frames),
        ("commands_executed", commands), ("cursor", cursor), ("lines_executed", lines),
        ("saved_at", savedAt), ("script_name", name), ("variables", vars)]) =
      name.str?.bind fun scriptName => cursor.word?.bind fun cursor =>
      (frames.list? Frame.ofJson?).bind fun frames =>
      (vars.table? fun j => some j.normalize).bind fun vars =>
      (breakpoints.list? Json.word?).bind fun breakpoints => lines.word?.bind fun linesExecuted =>
      commands.word?.bind fun commandsExecuted => (Instant.ofJson? savedAt).bind fun savedAt =>
      some ⟨scriptName, cursor, frames, vars, breakpoints, linesExecuted, commandsExecuted,
        savedAt⟩ := rfl

/-- A snapshot is read back from the record of its fields. -/
lemma ofJson?_sorted (h : s.IsCounted) (hnormal : s.Holds Json.IsNormal) :
    ofJson? s.sorted = some s := by
  have hframe : ∀ f ∈ s.frames, Frame.ofJson? f.toJson = some f := fun f hf => by
    have hline := Json.word?_nat (h.frames f hf)
    have hread : Frame.ofJson? f.toJson =
        (Json.word? (.nat f.returnLine)).bind fun n => some ⟨n⟩ := rfl
    rw [hread, hline]
    rfl
  have hvars : Json.table? (fun j => some j.normalize) (Json.ofTable id s.vars) = some s.vars :=
    Json.table?_ofTable fun e he => congrArg some (hnormal e he).normalize_eq
  have hinstant : Instant.ofJson? s.savedAt.toJson = some s.savedAt := by
    have htext : Instant.ofJson? s.savedAt.toJson =
        (some s.savedAt.text).bind Instant.ofText? := rfl
    rw [htext, Option.bind_some, Instant.ofText?_text h.savedAt]
  unfold sorted
  rw [ofJson?_obj, Json.word?_nat h.cursor, Json.list?_map hframe, hvars,
    Json.list?_map fun n hn => Json.word?_nat (h.breakpoints n hn), Json.word?_nat h.linesExecuted,
    Json.word?_nat h.commandsExecuted, hinstant]
  rfl

end Snapshot

namespace Store

/-! ### Envelopes -/

namespace Envelope

variable {key : String} {j : Json}

lemma ofJson?_obj (version minor key data : Json) :
    ofJson? (.obj [("version", version), ("minor_version", minor), ("key", key), ("data", data)]) =
      version.word32?.bind fun version => minor.word32?.bind fun minorVersion =>
      key.str?.bind fun key => (some data.normalize).bind fun data =>
      some ⟨version, minorVersion, key, data⟩ := rfl

/-- An envelope is read back from its text. -/
lemma read?_spread (hnormal : j.IsNormal) (hfits : j.Fits (Json.depthLimit - 1)) :
    read? (toJson { key, data := j }).spread = some { key, data := j } := by
  have hread : Json.readFor? (.record fieldNames) (toJson { key, data := j }).spread =
      some (toJson { key, data := j }) := by
    refine Json.readFor?_spread ?_ (.obj ?_)
    · simp [fieldNames]
    · have hone : Json.Number.IsProper (.integer (1 : Nat)) := Json.isProper_nat (by decide)
      simp only [List.forall_mem_cons]
      exact ⟨.num hone, .num hone, .str, hfits, fun _ he => absurd he List.not_mem_nil⟩
  unfold read?
  rw [hread, Option.bind_some]
  unfold toJson
  rw [ofJson?_obj, hnormal.normalize_eq]
  rfl

end Envelope

/-! ### Saved snapshots -/

namespace Directory

variable {d : Directory} {t u : FileTree} {key name : String} {s : Snapshot}

/-- A document that can be written is found in its file. -/
lemma contentDocument?_fileText {j : Json} (hnormal : j.IsNormal)
    (hfits : j.Fits (Json.depthLimit - 1)) :
    contentDocument? (fileText key j).toUTF8 = some j := by
  have htext : String.fromUTF8? (fileText key j).toUTF8 = some (fileText key j) :=
    dif_pos (fileText key j).isValidUTF8
  have henvelope : Envelope.read? (fileText key j) = some { key, data := j } :=
    Envelope.read?_spread hnormal hfits
  unfold contentDocument?
  rw [htext]
  simp only [bind, Option.bind_some]
  rw [henvelope]
  rfl

/-- A snapshot that is saved is found under its key. -/
lemma document?_save (ht : t.IsSound) (hs : s.IsPortable)
    (h : d.save t key s.toJson.normalize = (.ok (), u)) :
    document? (.directory d u) key = some s.sorted := by
  have hsaves := d.saves_save t key s.toJson.normalize
  rw [h] at hsaves
  cases hsaves with
  | saves hkey hfile _ hsound =>
    rw [document?_eq (hsound ht) hkey, hfile, Snapshot.normalize_toJson hs.normal, Option.bind_some]
    exact contentDocument?_fileText (Snapshot.isNormal_sorted hs.normal) (Snapshot.fits_sorted hs)

/-- A save under another key leaves the document of a key as it is. -/
lemma document?_save_of_ne (ht : t.IsSound) (hne : name ≠ key) (value : Json) :
    document? (.directory d (d.save t name value).2) key = document? (.directory d t) key := by
  have hsaves := d.saves_save t name value
  generalize d.save t name value = saved at hsaves
  cases hsaves with
  | fails hdrafts =>
    exact document?_congr ht (hdrafts.sound ht) fun hkey =>
      hdrafts.files _ (location_ne (temporaryName_ne hkey))
  | saves _ _ hothers hsound =>
    exact document?_congr ht (hsound ht) fun hkey =>
      hothers _ (location_ne hne.symm) (location_ne (temporaryName_ne hkey))

end Directory

end Store

/-! ### What is read from a file -/

namespace Json

/-- The fields of a record nest less deeply than the record. -/
lemma fits_of_record? {names : List String} {depth : Nat} {j : Json} {r : Record}
    (hj : j.Fits (depth + 1)) (h : record? names j = some r) : ∀ e ∈ r.fields, e.2.Fits depth := by
  cases hj with
  | null | bool | num | str => cases h
  | arr hitems =>
    simp only [record?] at h
    split at h
    · cases h
      exact fun e he => hitems _ (List.of_mem_zip he).2
    · cases h
  | obj hfields =>
    simp only [record?] at h
    split at h
    · cases h
      exact fun e he => hfields e (List.mem_of_mem_filter he)
    · cases h

/-- Normal values that are read into a table. -/
lemma isNormal_of_table? {j : Json} {t : Table Json}
    (h : table? (fun j => some j.normalize) j = some t) : ∀ e ∈ t.entries, e.2.IsNormal := by
  obtain ⟨fields, -, hfields⟩ := exists_of_table? h
  intro e he
  obtain ⟨x, -, hread⟩ := hfields e he
  rw [← Option.some.inj hread]
  exact isNormal_normalize x.2

lemma fits_of_table? {depth : Nat} {j : Json} {t : Table Json} (hj : j.Fits (depth + 1))
    (h : table? (fun j => some j.normalize) j = some t) : ∀ e ∈ t.entries, e.2.Fits depth := by
  obtain ⟨fields, rfl, hfields⟩ := exists_of_table? h
  intro e he
  obtain ⟨x, hx, hread⟩ := hfields e he
  rw [← Option.some.inj hread]
  cases hj with
  | obj hfits => exact (hfits x hx).normalize

end Json

namespace Store

/-- The data of an envelope that is read is normal, and nests less deeply than the envelope. -/
lemma Envelope.data_of_read? {text : String} {e : Envelope} (h : read? text = some e) :
    e.data.IsNormal ∧ e.data.Fits (Json.depthLimit - 1) := by
  obtain ⟨j, hread, hparsed⟩ := Option.bind_eq_some_iff.mp h
  have hfits : j.Fits (126 + 1) := Json.fits_of_readFor? hread
  unfold ofJson? at hparsed
  simp only [Option.bind_eq_bind, Option.bind_eq_some_iff] at hparsed
  obtain ⟨r, hrecord, _, -, _, -, _, -, data, hdata, heq⟩ := hparsed
  obtain ⟨x, hx, hnormal⟩ := Option.bind_eq_some_iff.mp hdata
  cases heq
  cases hnormal
  exact ⟨Json.isNormal_normalize x,
    (Json.fits_of_record? hfits hrecord _ (Json.mem_of_lookup hx)).normalize⟩

/-- An envelope that is found was read from a text. -/
lemma Directory.read?_of_envelope {d : Directory} {t : FileTree} {key : String} {e : Envelope}
    (h : d.envelope t key = .ok (some e)) : ∃ text, Envelope.read? text = some e := by
  unfold envelope at h
  cases hcheck : checkKey key with
  | error e =>
    simp only [hcheck, bind, Except.bind] at h
    cases h
  | ok =>
    simp only [hcheck, bind, Except.bind, throw, throwThe, MonadExceptOf.throw] at h
    split at h
    · cases h
    · cases h
    · next text _ =>
      split at h
      · cases h
      · next e' hread =>
        split at h
        · cases h
        · cases h
          exact ⟨text, hread⟩

end Store

/-- The variables of a snapshot were read from the document into a table, or there are none. -/
lemma Snapshot.table?_of_ofJson? {j : Json} {s : Snapshot} (h : ofJson? j = some s) :
    s.vars = ∅ ∨ ∃ r x, Json.record? fieldNames j = some r ∧ ("variables", x) ∈ r.fields ∧
      Json.table? (fun j => some j.normalize) x = some s.vars := by
  unfold ofJson? at h
  simp only [Option.bind_eq_bind, Option.bind_eq_some_iff] at h
  obtain ⟨r, hrecord, _, -, _, -, _, -, vars, hvars, _, -, _, -, _, -, _, -, heq⟩ := h
  cases heq
  unfold Json.Record.defaulted at hvars
  split at hvars
  · cases hvars
    exact .inl rfl
  · next x hx => exact .inr ⟨r, x, hrecord, Json.mem_of_lookup hx, hvars⟩

lemma Snapshot.isNormal_of_ofJson? {j : Json} {s : Snapshot} (h : ofJson? j = some s) :
    s.Holds Json.IsNormal := by
  unfold Holds
  rcases table?_of_ofJson? h with hempty | ⟨r, x, -, -, hvars⟩
  · rw [hempty]
    exact Table.holds_empty
  · exact Json.isNormal_of_table? hvars

/-- The variables of a snapshot that is read from a document can be saved again. -/
lemma Snapshot.holds_of_ofJson? {j : Json} {s : Snapshot} (hj : j.Fits (Json.depthLimit - 1))
    (h : ofJson? j = some s) : s.Holds Json.IsPortable := by
  have hfits : j.Fits (125 + 1) := hj
  unfold Holds
  rcases table?_of_ofJson? h with hempty | ⟨r, x, hrecord, hmem, hvars⟩
  · rw [hempty]
    exact Table.holds_empty
  · have hx : x.Fits (124 + 1) := Json.fits_of_record? hfits hrecord _ hmem
    exact fun e he => ⟨Json.isNormal_of_table? hvars e he, Json.fits_of_table? hx hvars e he⟩

/-- Whatever is in a store, the values that are read from it are normal. -/
lemma Store.yields_normal (store : Store) : store.Yields Json.IsNormal :=
  fun _ _ _ _ _ _ hs => Snapshot.isNormal_of_ofJson? hs

/-- Whatever is in the files of a directory, the values that are read from them can be saved
again. -/
lemma Store.yields_directory (d : Directory) (t : FileTree) :
    Yields Json.IsPortable (.directory d t) := by
  intro later hlater key j s hload hs
  have hdirectory : ∃ u, later = .directory d u := by
    clear hload
    induction hlater with
    | refl => exact ⟨t, rfl⟩
    | tail _ hsave ih =>
      obtain ⟨u, rfl⟩ := ih
      obtain ⟨name, value, rfl⟩ := hsave
      exact ⟨(d.save u name value).2, rfl⟩
  obtain ⟨u, rfl⟩ := hdirectory
  have hfound : (d.envelope u key).map (·.map Envelope.data) = .ok (some j) := hload
  cases henvelope : d.envelope u key with
  | error e =>
    rw [henvelope] at hfound
    cases hfound
  | ok found =>
    rw [henvelope] at hfound
    obtain ⟨e, rfl, rfl⟩ := Option.map_eq_some_iff.mp (Except.ok.inj hfound)
    obtain ⟨text, htext⟩ := Directory.read?_of_envelope henvelope
    exact Snapshot.holds_of_ofJson? (Envelope.data_of_read? htext).2 hs

end Recital

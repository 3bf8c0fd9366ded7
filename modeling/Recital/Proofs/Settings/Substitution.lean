import Recital.Proofs.Files.Component
import Recital.Proofs.Settings.Refusal

/-!
# What settings stand for

A value of a file stands for another one, which is said here without reading it in any order
(`Source.Expands`): an `!include` stands for what the file that it names stands for, an `!env_var`
for the value of the variable or its fallback, and everything else for itself with its parts
replaced.  The keys of a mapping are kept as they are.

What an expansion gives is what its file stands for (`gives_of_outcome`).  The other way around,
files that stand for something do not include each other in a circle, not even under paths that are
spelled in other ways (`Source.Gives.components_ne`).  So none of them is refused, however often it
is included, and the expansion gives what its file stands for (`loading_is_substitution`).
-/

namespace Recital.Settings

open Relation

variable {active : Active} {source : Source} {fuel : Nat} {path file f g p : Path} {text : String}
  {name : String} {y z : Yaml}

/-- Paths with the same components name the same files, spelled in other ways at most. -/
lemma Source.components_target_congr (source : Source) (h : f.components = g.components) :
    (source.target f ⟨name⟩).components = (source.target g ⟨name⟩).components :=
  Path.components_join_congr rfl
    (Path.components_join_congr (Path.components_parent?_congr h) rfl)

/-- A value without parts and tags. -/
def IsScalar : Yaml → Prop
  | .tagged .. | .seq _ | .map _ => False
  | _ => True

/-- What a value stands for in a file. -/
inductive Source.Expands (source : Source) : Path → Yaml → Yaml → Prop
  | included {file : Path} {tag name text : String} {y z : Yaml} (htag : tag = "include")
    (hread : source.tree.readPath source.cwd (source.target file ⟨name⟩) = .ok text)
    (hparse : Yaml.parse? text = some y) (h : source.Expands (source.target file ⟨name⟩) y z) :
    source.Expands file (.tagged tag (.str name)) z
  | substituted {file : Path} {tag s text : String} (htag : tag = "env_var")
    (h : (lookup source.env (reference s).1).or (reference s).2 = some text) :
    source.Expands file (.tagged tag (.str s)) ((Yaml.parse? text).getD (.str text))
  | tagged {file : Path} {tag : String} {y z : Yaml} (hinclude : tag ≠ "include")
    (henv : tag ≠ "env_var") (h : source.Expands file y z) :
    source.Expands file (.tagged tag y) (.tagged tag z)
  | noItem {file : Path} : source.Expands file (.seq []) (.seq [])
  | item {file : Path} {y z : Yaml} {items values : List Yaml} (h : source.Expands file y z)
    (hrest : source.Expands file (.seq items) (.seq values)) :
    source.Expands file (.seq (y :: items)) (.seq (z :: values))
  | noEntry {file : Path} : source.Expands file (.map []) (.map [])
  | entry {file : Path} {k y z : Yaml} {entries values : List (Yaml × Yaml)}
    (h : source.Expands file y z) (hrest : source.Expands file (.map entries) (.map values)) :
    source.Expands file (.map ((k, y) :: entries)) (.map ((k, z) :: values))
  | scalar {file : Path} {y : Yaml} (h : IsScalar y) : source.Expands file y y

/-- What a file stands for. -/
def Source.Gives (source : Source) (file : Path) (z : Yaml) : Prop :=
  ∃ text y, source.tree.readPath source.cwd file = .ok text ∧ Yaml.parse? text = some y ∧
    source.Expands file y z

/-! ### What is given is stood for -/

lemma map_eq_ok_iff {α β : Type} {r : Except Error α} {f : α → β} {b : β} :
    r.map f = .ok b ↔ ∃ a, r = .ok a ∧ f a = b := by
  cases r <;> simp [Except.map]

lemma bind_eq_ok_iff {α β : Type} {r : Except Error α} {next : α → Except Error β} {b : β} :
    r.bind next = .ok b ↔ ∃ a, r = .ok a ∧ next a = .ok b := by
  cases r <;> simp [Except.bind]

/-- Files that are included in another one are expanded to what they stand for. -/
def Source.IsFaithful (source : Source) (fuel : Nat) (file : Path) (active : Active) : Prop :=
  ∀ name z, outcome (expandFile source fuel (includePath source.base file name)) active = .ok z →
    source.Gives (source.target file name) z

mutual

/-- A value is expanded to what it stands for, if the files that it includes are. -/
lemma expands_of_outcome (hfiles : source.IsFaithful fuel file active) : (y z : Yaml) →
    outcome (expand (source.content fuel file) source.env y) active = .ok z →
    source.Expands file y z
  | .tagged tag y, z => fun h => by
    by_cases hinclude : tag = "include"
    · rw [expand, if_pos hinclude] at h
      cases y with
      | str name =>
        obtain ⟨text, y, hread, hparse, hy⟩ := hfiles ⟨name⟩ z h
        exact .included hinclude hread hparse hy
      | _ => cases h
    · by_cases henv : tag = "env_var"
      · rw [expand, if_neg hinclude, if_pos henv] at h
        unfold variableValue at h
        split at h
        · dsimp only at h
          split at h
          · next text htext =>
            cases h
            exact .substituted henv htext
          · cases h
        · cases h
      · rw [outcome_tagged alike_content hinclude henv, map_eq_ok_iff] at h
        obtain ⟨value, hvalue, rfl⟩ := h
        exact .tagged hinclude henv (expands_of_outcome hfiles y value hvalue)
  | .seq items, z => fun h => by
    rw [outcome_seq alike_content, map_eq_ok_iff] at h
    obtain ⟨values, hvalues, rfl⟩ := h
    exact expands_of_items hfiles items values hvalues
  | .map entries, z => fun h => by
    rw [outcome_map alike_content, map_eq_ok_iff] at h
    obtain ⟨values, hvalues, rfl⟩ := h
    exact expands_of_entries hfiles entries values hvalues
  | .null, _ | .bool _, _ | .int _, _ | .real _, _ | .str _, _ => fun h => by
    cases h
    exact .scalar trivial

lemma expands_of_items (hfiles : source.IsFaithful fuel file active) : (items values : List Yaml) →
    outcome (expandItems (source.content fuel file) source.env items) active = .ok values →
    source.Expands file (.seq items) (.seq values)
  | [], _ => fun h => by
    cases h
    exact .noItem
  | y :: items, _ => fun h => by
    rw [outcome_cons alike_content, bind_eq_ok_iff] at h
    obtain ⟨value, hvalue, hrest⟩ := h
    obtain ⟨values, hvalues, rfl⟩ := map_eq_ok_iff.mp hrest
    exact .item (expands_of_outcome hfiles y value hvalue)
      (expands_of_items hfiles items values hvalues)

lemma expands_of_entries (hfiles : source.IsFaithful fuel file active) :
    (entries values : List (Yaml × Yaml)) →
    outcome (expandEntries (source.content fuel file) source.env entries) active = .ok values →
    source.Expands file (.map entries) (.map values)
  | [], _ => fun h => by
    cases h
    exact .noEntry
  | (k, y) :: entries, _ => fun h => by
    rw [outcome_cons_entry alike_content, bind_eq_ok_iff] at h
    obtain ⟨value, hvalue, hrest⟩ := h
    obtain ⟨values, hvalues, rfl⟩ := map_eq_ok_iff.mp hrest
    exact .entry (expands_of_outcome hfiles y value hvalue)
      (expands_of_entries hfiles entries values hvalues)

end

/-- A file is expanded to what it stands for. -/
lemma gives_of_outcome (h : outcome (expandFile source fuel path) active = .ok z) :
    source.Gives (source.base.join path) z := by
  induction fuel generalizing path active z with
  | zero => cases h
  | succ fuel ih =>
    obtain ⟨text, hread⟩ := exists_text_of_outcome h
    rw [outcome_expandFile, hread] at h
    split at h
    · cases h
    · unfold expandText at h
      dsimp only at h
      split at h
      · next y hparse =>
        exact ⟨text, y, hread, hparse, expands_of_outcome (fun _ _ hfile => ih hfile) y z h⟩
      · cases h

/-! ### Files that stand for something -/

/-- A value includes the file of a name in one of its parts. -/
inductive Mentions (name : String) : Yaml → Prop
  | named {tag : String} (htag : tag = "include") : Mentions name (.tagged tag (.str name))
  | tagged {tag : String} {y : Yaml} (hinclude : tag ≠ "include") (henv : tag ≠ "env_var")
    (h : Mentions name y) : Mentions name (.tagged tag y)
  | item {y : Yaml} {items : List Yaml} (h : Mentions name y) : Mentions name (.seq (y :: items))
  | laterItem {y : Yaml} {items : List Yaml} (h : Mentions name (.seq items)) :
    Mentions name (.seq (y :: items))
  | entry {k y : Yaml} {entries : List (Yaml × Yaml)} (h : Mentions name y) :
    Mentions name (.map ((k, y) :: entries))
  | laterEntry {k y : Yaml} {entries : List (Yaml × Yaml)} (h : Mentions name (.map entries)) :
    Mentions name (.map ((k, y) :: entries))

/-- A file includes another one. -/
def Source.Names (source : Source) (f g : Path) : Prop :=
  ∃ text y name, source.tree.readPath source.cwd f = .ok text ∧ Yaml.parse? text = some y ∧
    Mentions name y ∧ g = source.target f ⟨name⟩

/-- A file stands for something, and includes come to an end from it on. -/
structure Source.IsSettled (source : Source) (f : Path) : Prop where
  gives : ∃ z, source.Gives f z
  acc : Acc (fun g f => source.Names f g) f

/-- The files that are included in a value that stands for something are settled. -/
lemma Source.Expands.isSettled (h : source.Expands file y z) (hname : Mentions name y) :
    source.IsSettled (source.target file ⟨name⟩) := by
  induction h generalizing name with
  | included htag hread hparse hy ih =>
    cases hname with
    | named =>
      refine ⟨⟨_, _, _, hread, hparse, hy⟩, ⟨_, fun g hg => ?_⟩⟩
      obtain ⟨text, y, next, hread', hparse', hnext, rfl⟩ := hg
      cases hread.symm.trans hread'
      cases hparse.symm.trans hparse'
      exact (ih hnext).acc
    | tagged hinclude => exact absurd htag hinclude
  | substituted htag =>
    cases hname with
    | named hinclude =>
      rw [htag] at hinclude
      exact absurd hinclude (by decide)
    | tagged _ henv => exact absurd htag henv
  | tagged hinclude _ _ ih =>
    cases hname with
    | named htag => exact absurd htag hinclude
    | tagged _ _ hname => exact ih hname
  | noItem | noEntry => cases hname
  | item _ _ ih ihrest =>
    cases hname with
    | item hname => exact ih hname
    | laterItem hname => exact ihrest hname
  | entry _ _ ih ihrest =>
    cases hname with
    | entry hname => exact ih hname
    | laterEntry hname => exact ihrest hname
  | scalar hscalar => cases hname <;> exact hscalar.elim

/-- What a settled file includes is settled. -/
lemma Source.Gives.isSettled (h : source.Gives f z) (hfg : source.Names f g) :
    source.IsSettled g := by
  obtain ⟨text, y, hread, hparse, hy⟩ := h
  obtain ⟨text', y', name, hread', hparse', hname, rfl⟩ := hfg
  cases hread.symm.trans hread'
  cases hparse.symm.trans hparse'
  exact hy.isSettled hname

lemma Source.Gives.exists_of_transGen (h : source.Gives f z) (hway : TransGen source.Names f p) :
    ∃ value, source.Gives p value := by
  induction hway with
  | single hfg => exact (h.isSettled hfg).gives
  | tail _ hgp ih =>
    obtain ⟨value, hg⟩ := ih
    exact (hg.isSettled hgp).gives

/-- Neither is another spelling of the path of a file that stands for something on the way from
there.  The induction goes down to a file that is included: the other spelling leads to the same
text, so that it includes another spelling of that file. -/
lemma Source.Gives.components_ne (h : source.Gives f z) (hway : TransGen source.Names f p) :
    p.components ≠ f.components := by
  have hacc : Acc (fun g f => source.Names f g) f := ⟨_, fun g hg => (h.isSettled hg).acc⟩
  induction hacc generalizing z p with
  | intro f _ ih =>
    intro hsame
    obtain ⟨g, hfg, hgp⟩ := TransGen.head'_iff.mp hway
    obtain ⟨value, hg⟩ := (h.isSettled hfg).gives
    obtain ⟨-, text', y', hread', -, -⟩ := h.exists_of_transGen hway
    obtain ⟨text, y, name, hread, hparse, hname, rfl⟩ := hfg
    obtain rfl : text = text' := Path.readPath_congr hsame.symm hread hread'
    have hback : source.Names p (source.target p ⟨name⟩) :=
      ⟨text, y, name, hread', hparse, hname, rfl⟩
    exact ih _ ⟨text, y, name, hread, hparse, hname, rfl⟩ hg (TransGen.tail' hgp hback)
      (source.components_target_congr hsame)

/-! ### What is stood for is given -/

/-- There is fuel for all paths that are not being expanded. -/
structure HasRoom (fuel : Nat) (active : Active) : Prop where
  isOpen : IsOpen active
  fuel : pathCount < fuel + active.length

lemma hasRoom_nestingBound : HasRoom nestingBound [] where
  isOpen := ⟨List.nodup_nil, fun _ h => absurd h List.not_mem_nil⟩
  fuel := by
    rw [List.length_nil]
    unfold nestingBound
    exact Nat.lt_add_one _

lemma HasRoom.exists_succ (h : HasRoom fuel active) : ∃ more, fuel = more + 1 := by
  have hlength := h.isOpen.length_le
  have hfuel := h.fuel
  exact ⟨fuel - 1, by omega⟩

/-- No file that a value includes, directly or through others, is being expanded. -/
def Source.IsClear (source : Source) (active : Active) (file : Path) (y : Yaml) : Prop :=
  ∀ name g, Mentions name y → ReflTransGen source.Names (source.target file ⟨name⟩) g →
    g.components ∉ active

/-- A file of which the text stands for a value is expanded to it, if none of the files on the way
is being expanded. -/
lemma outcome_of_text (hroom : HasRoom fuel active)
    (hnew : ∀ g, ReflTransGen source.Names (source.base.join path) g → g.components ∉ active)
    (hread : source.tree.readPath source.cwd (source.base.join path) = .ok text)
    (hparse : Yaml.parse? text = some y) (hy : source.Expands (source.base.join path) y z)
    (hvalue : ∀ {fuel active}, HasRoom fuel active →
      source.IsClear active (source.base.join path) y →
      outcome (expand (source.content fuel (source.base.join path)) source.env y) active = .ok z) :
    outcome (expandFile source fuel path) active = .ok z := by
  obtain ⟨more, rfl⟩ := hroom.exists_succ
  have hself : active.contains (source.base.join path).components = false := by
    simpa using hnew _ .refl
  rw [outcome_expandFile, hself, if_neg Bool.false_ne_true, hread]
  simp only [expandText, hparse]
  refine hvalue ⟨hroom.isOpen.cons hself hread, ?_⟩ fun name g hname hway => ?_
  · have hfuel := hroom.fuel
    rw [List.length_cons]
    omega
  · have hnames : source.Names (source.base.join path)
        (source.target (source.base.join path) ⟨name⟩) :=
      ⟨text, y, name, hread, hparse, hname, rfl⟩
    have hgives : source.Gives (source.base.join path) z := ⟨text, y, hread, hparse, hy⟩
    rw [List.mem_cons, not_or]
    exact ⟨hgives.components_ne (TransGen.head' hnames hway), hnew g (.head hnames hway)⟩

/-- A value is expanded to what it stands for. -/
lemma outcome_of_expands (h : source.Expands file y z) (hroom : HasRoom fuel active)
    (hclear : source.IsClear active file y) :
    outcome (expand (source.content fuel file) source.env y) active = .ok z := by
  induction h generalizing fuel active with
  | @included file tag name text y z htag hread hparse hy ih =>
    have hfile : outcome (expandFile source fuel (includePath source.base file ⟨name⟩)) active =
        .ok z :=
      outcome_of_text hroom (fun g hway => hclear name g (.named htag) hway) hread hparse hy ih
    rw [expand, if_pos htag]
    exact hfile
  | substituted htag htext =>
    rw [htag, expand, if_neg (by decide), if_pos rfl]
    simp [variableValue, htext]
  | tagged hinclude henv _ ih =>
    rw [outcome_tagged alike_content hinclude henv,
      ih hroom fun name g hname => hclear name g (.tagged hinclude henv hname)]
    rfl
  | noItem | noEntry => rfl
  | item _ _ ih ihrest =>
    have hfirst := ih hroom fun name g hname => hclear name g (.item hname)
    have hrest := ihrest hroom fun name g hname => hclear name g (.laterItem hname)
    rw [outcome_seq alike_content] at hrest ⊢
    obtain ⟨values, hvalues, heq⟩ := map_eq_ok_iff.mp hrest
    cases heq
    rw [outcome_cons alike_content, hfirst, hvalues]
    rfl
  | entry _ _ ih ihrest =>
    have hfirst := ih hroom fun name g hname => hclear name g (.entry hname)
    have hrest := ihrest hroom fun name g hname => hclear name g (.laterEntry hname)
    rw [outcome_map alike_content] at hrest ⊢
    obtain ⟨values, hvalues, heq⟩ := map_eq_ok_iff.mp hrest
    cases heq
    rw [outcome_cons_entry alike_content, hfirst, hvalues]
    rfl
  | @scalar file y hscalar =>
    cases y with
    | tagged | seq | map => exact hscalar.elim
    | _ => rfl

/-- A file is expanded to what it stands for. -/
lemma outcome_of_gives (h : source.Gives (source.base.join path) z) :
    outcome (expandFile source nestingBound path) [] = .ok z := by
  obtain ⟨text, y, hread, hparse, hy⟩ := h
  exact outcome_of_text hasRoom_nestingBound (fun _ _ => List.not_mem_nil) hread hparse hy
    (outcome_of_expands hy)

/-- A value stands for one other value. -/
theorem Source.Expands.unique {z' : Yaml} (h : source.Expands file y z)
    (h' : source.Expands file y z') :
    z = z' := by
  have hvalue := outcome_of_expands h hasRoom_nestingBound fun _ _ _ _ => List.not_mem_nil
  have hvalue' := outcome_of_expands h' hasRoom_nestingBound fun _ _ _ _ => List.not_mem_nil
  exact Except.ok.inj (hvalue.symm.trans hvalue')

/-! ### Loading -/

/-- After settings have been loaded, or could not be, the files are being expanded that were before.
A file is refused as circular if it is being expanded when it is included, and not otherwise.  And
what is loaded is the tree with each tag that has a meaning replaced, but for those in keys: a file
that stands for something is loaded, however often it is included, and one that does not is not. -/
theorem loading_is_substitution (source : Source) :
    ((∀ fuel path active, ((expandFile source fuel path).run.run active).2 = active) ∧
      ∀ fuel file text active,
        ((expandText (source.content fuel file) source.env file text).run.run active).2 = active) ∧
    ((∀ (v : Visit) p, v.gives source = .error (.circular p) ↔
        ∃ w, ReflTransGen source.Nests v w ∧ w.IsRefused source p) ∧
      ∀ fuel file text active p,
        outcome (expandText (source.content fuel file) source.env file text) active =
            .error (.circular p) ↔
          ∃ y name w, Yaml.parse? text = some y ∧
            Meets (source.content fuel file) source.env active (.str name.text) y ∧
            ReflTransGen source.Nests ⟨fuel, active, includePath source.base file name⟩ w ∧
            w.IsRefused source p) ∧
    ((∀ (v : Visit) z, v.gives source = .ok z → source.Gives (source.base.join v.path) z) ∧
      ∀ fuel file text active z,
        outcome (expandText (source.content fuel file) source.env file text) active = .ok z →
          ∃ y, Yaml.parse? text = some y ∧ source.Expands file y z) ∧
    (∀ path z, outcome (expandFile source nestingBound path) [] = .ok z ↔
        source.Gives (source.base.join path) z) ∧
      ∀ file text z,
        outcome (expandText (source.content nestingBound file) source.env file text) [] = .ok z ↔
          ∃ y, Yaml.parse? text = some y ∧ source.Expands file y z := by
  have htext : ∀ fuel file text active z,
      outcome (expandText (source.content fuel file) source.env file text) active = .ok z →
        ∃ y, Yaml.parse? text = some y ∧ source.Expands file y z := by
    intro fuel file text active z h
    unfold expandText at h
    split at h
    · next y hparse => exact ⟨y, hparse, expands_of_outcome (fun _ _ => gives_of_outcome) y z h⟩
    · cases h
  refine ⟨⟨fun fuel path active => (alike_self source fuel path active).active,
    fun fuel file text active => (alike_expandText alike_content file text).active⟩,
    ⟨fun v p => Visit.circular_iff, fun fuel file text active p => ?_⟩,
    ⟨fun v z => gives_of_outcome, htext⟩, fun path z => ⟨gives_of_outcome, outcome_of_gives⟩,
    fun file text z => ⟨htext _ _ _ _ _, ?_⟩⟩
  · rw [expandText_eq_circular_iff]
    constructor
    · rintro ⟨y, name, hparse, hmeets, hfile⟩
      have hvisit : Visit.gives source ⟨fuel, active, includePath source.base file name⟩ =
          .error (.circular p) := hfile
      obtain ⟨w, hway, hrefused⟩ := Visit.circular_iff.mp hvisit
      exact ⟨y, name, w, hparse, hmeets, hway, hrefused⟩
    · rintro ⟨y, name, w, hparse, hmeets, hway, hrefused⟩
      exact ⟨y, name, hparse, hmeets, Visit.circular_iff.mpr ⟨w, hway, hrefused⟩⟩
  · rintro ⟨y, hparse, hy⟩
    unfold expandText
    rw [hparse]
    exact outcome_of_expands hy hasRoom_nestingBound fun _ _ _ _ => List.not_mem_nil

/-- A tag on a text. -/
def tagged? : Yaml → Option (String × String)
  | .tagged tag (.str s) => some (tag, s)
  | _ => none

/-- The keys and the tagged texts of the only two entries of a mapping. -/
def taggedPair? : Yaml → Option ((String × String × String) × String × String × String)
  | .map [(.str key, .tagged tag (.str s)), (.str key', .tagged tag' (.str s'))] =>
    some ((key, tag, s), key', tag', s')
  | _ => none

lemma eq_of_tagged? {tag s : String} (h : (Yaml.parse? text).bind tagged? = some (tag, s)) :
    Yaml.parse? text = some (.tagged tag (.str s)) := by
  obtain ⟨y, hparse, hy⟩ := Option.bind_eq_some_iff.mp h
  unfold tagged? at hy
  split at hy
  · cases hy
    exact hparse
  · cases hy

lemma eq_of_taggedPair? {key tag s key' tag' s' : String}
    (h : (Yaml.parse? text).bind taggedPair? = some ((key, tag, s), key', tag', s')) :
    Yaml.parse? text =
      some (.map [(.str key, .tagged tag (.str s)), (.str key', .tagged tag' (.str s'))]) := by
  obtain ⟨y, hparse, hy⟩ := Option.bind_eq_some_iff.mp h
  unfold taggedPair? at hy
  split at hy
  · cases hy
    exact hparse
  · cases hy

/-- Settings in which two voices have one theme. -/
def canon : Source where
  tree := ⟨[(["home"], .directory),
    (["home", "score.yaml"], .file "first: !include alto.yaml\nsecond: !include bass.yaml".toUTF8),
    (["home", "alto.yaml"], .file "!include theme.yaml".toUTF8),
    (["home", "bass.yaml"], .file "!include ./theme.yaml".toUTF8),
    (["home", "theme.yaml"], .file "!tempo lento".toUTF8)]⟩
  cwd := ["home"]
  base := ⟨"/home"⟩

/-- The theme is loaded for each of the voices. -/
theorem canon_is_loaded :
    outcome (expandFile canon nestingBound ⟨"score.yaml"⟩) [] =
      .ok (.map [(.str "first", .tagged "tempo" (.str "lento")),
        (.str "second", .tagged "tempo" (.str "lento"))]) := by
  obtain ⟨-, -, -, hloaded, -⟩ := loading_is_substitution canon
  have htheme : Yaml.parse? "!tempo lento" = some (.tagged "tempo" (.str "lento")) :=
    eq_of_tagged? (by decide +kernel)
  have halto : Yaml.parse? "!include theme.yaml" = some (.tagged "include" (.str "theme.yaml")) :=
    eq_of_tagged? (by decide +kernel)
  have hbass : Yaml.parse? "!include ./theme.yaml" =
      some (.tagged "include" (.str "./theme.yaml")) := eq_of_tagged? (by decide +kernel)
  have hscore : Yaml.parse? "first: !include alto.yaml\nsecond: !include bass.yaml" =
      some (.map [(.str "first", .tagged "include" (.str "alto.yaml")),
        (.str "second", .tagged "include" (.str "bass.yaml"))]) :=
    eq_of_taggedPair? (by decide +kernel)
  have hlento : ∀ file, canon.Expands file (.tagged "tempo" (.str "lento"))
      (.tagged "tempo" (.str "lento")) := fun _ =>
    .tagged (by decide) (by decide) (.scalar trivial)
  have hread : canon.tree.readPath canon.cwd ⟨"/home/score.yaml"⟩ =
      .ok "first: !include alto.yaml\nsecond: !include bass.yaml" := by decide +kernel
  have hfirst : canon.tree.readPath canon.cwd (canon.target ⟨"/home/score.yaml"⟩ ⟨"alto.yaml"⟩) =
      .ok "!include theme.yaml" := by decide +kernel
  have hsecond : canon.tree.readPath canon.cwd (canon.target ⟨"/home/score.yaml"⟩ ⟨"bass.yaml"⟩) =
      .ok "!include ./theme.yaml" := by decide +kernel
  have htempo : canon.tree.readPath canon.cwd
      (canon.target (canon.target ⟨"/home/score.yaml"⟩ ⟨"alto.yaml"⟩) ⟨"theme.yaml"⟩) =
        .ok "!tempo lento" := by decide +kernel
  have htempo' : canon.tree.readPath canon.cwd
      (canon.target (canon.target ⟨"/home/score.yaml"⟩ ⟨"bass.yaml"⟩) ⟨"./theme.yaml"⟩) =
        .ok "!tempo lento" := by decide +kernel
  rw [hloaded]
  exact ⟨_, _, hread, hscore,
    .entry (.included rfl hfirst halto (.included rfl htempo htheme (hlento _)))
      (.entry (.included rfl hsecond hbass (.included rfl htempo' htheme (hlento _))) .noEntry)⟩

/-- The tag and the text of the only key of a mapping, and the number that stands there. -/
def taggedKey? : Yaml → Option (String × String × Int)
  | .map [(.tagged tag (.str s), .int i)] => some (tag, s, i)
  | _ => none

/-- A text by itself. -/
def plain? : Yaml → Option String
  | .str s => some s
  | _ => none

/-- A key with a meaning is kept, where its value in the environment would be another one. -/
theorem keys_are_kept :
    Yaml.parse? "? !env_var \"TEMPO allegro\"\n: 1" =
      some (.map [(.tagged "env_var" (.str "TEMPO allegro"), .int 1)]) ∧
    outcome (variableValue canon.env (.str "TEMPO allegro")) [] = .ok (.str "allegro") ∧
    outcome (expandText (canon.content nestingBound inlinePath) canon.env inlinePath
      "? !env_var \"TEMPO allegro\"\n: 1") [] =
        .ok (.map [(.tagged "env_var" (.str "TEMPO allegro"), .int 1)]) ∧
    Yaml.map [(.tagged "env_var" (.str "TEMPO allegro"), .int 1)] ≠
      .map [(.str "allegro", .int 1)] := by
  have hkey : (Yaml.parse? "? !env_var \"TEMPO allegro\"\n: 1").bind taggedKey? =
      some ("env_var", "TEMPO allegro", 1) := by decide +kernel
  have hparse : Yaml.parse? "? !env_var \"TEMPO allegro\"\n: 1" =
      some (.map [(.tagged "env_var" (.str "TEMPO allegro"), .int 1)]) := by
    obtain ⟨y, hparse, hy⟩ := Option.bind_eq_some_iff.mp hkey
    unfold taggedKey? at hy
    split at hy
    · cases hy
      exact hparse
    · cases hy
  have hname : reference "TEMPO allegro" = ("TEMPO", some "allegro") := by decide +kernel
  have hunset : lookup canon.env "TEMPO" = none := by decide +kernel
  have hplain : (Yaml.parse? "allegro").bind plain? = some "allegro" := by decide +kernel
  have hallegro : Yaml.parse? "allegro" = some (.str "allegro") := by
    obtain ⟨y, hparse, hy⟩ := Option.bind_eq_some_iff.mp hplain
    unfold plain? at hy
    split at hy
    · cases hy
      exact hparse
    · cases hy
  refine ⟨hparse, ?_, ?_, by simp⟩
  · simp [variableValue, hname, hunset, hallegro]
  · unfold expandText
    rw [hparse]
    rfl

end Recital.Settings

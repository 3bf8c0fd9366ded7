import Recital.Proofs.Files.Spelling
import Recital.Proofs.Settings.Depth

/-!
# Chains of includes

What an expansion gives depends on the files that are being expanded, and it leaves them as they
are, so it is known by its outcome (`outcome`).  Values are expanded in the order of the document,
and the first one that fails is the last one that is looked at.  So if everything before an
`!include` can be expanded (`Meets`), its error is the error of the whole, and through a chain of
files that include each other (`Source.Opens`) it is the error of the file with which the chain
begins (`Source.Opens.fails`).
-/

namespace Recital.Settings

variable {α β : Type} {active : Active} {includes : Yaml → Loading Yaml} {env : Table String}
  {source : Source} {fuel : Nat} {path file name : Path} {rest : List Path} {e : Error} {y z : Yaml}

/-! ### Outcomes -/

/-- What a step gives while the given files are being expanded. -/
def outcome (step : Loading α) (active : Active) : Except Error α := (step.run.run active).1

@[simp] lemma outcome_pure (a : α) : outcome (pure a) active = .ok a := rfl

@[simp] lemma outcome_throw (e : Error) : outcome (throw e : Loading α) active = .error e := rfl

/-- The next step is made with what a step gives. -/
lemma outcome_bind {step : Loading α} (h : Alike active step step) (next : α → Loading β) :
    outcome (step >>= next) active =
      (outcome step active).bind fun a => outcome (next a) active := by
  have hactive := h.active
  unfold outcome
  rw [run_bind]
  generalize step.run.run active = r at hactive
  obtain ⟨a | a, s⟩ := r
  · rfl
  · cases hactive
    rfl

/-- The value of a variable does not depend on the files that are being expanded. -/
lemma outcome_variableValue (env : Table String) (y : Yaml) (active after : Active) :
    outcome (variableValue env y) active = outcome (variableValue env y) after := by
  unfold variableValue
  split
  · dsimp only
    split <;> rfl
  · rfl

/-- Whatever fuel is left, an expansion leaves the files as they are that are being expanded. -/
lemma alike_self (source : Source) (fuel : Nat) (path : Path) (active : Active) :
    Alike active (expandFile source fuel path) (expandFile source fuel path) := by
  induction fuel generalizing path active with
  | zero => exact .throw _ _
  | succ fuel ih =>
    rw [expandFile]
    dsimp only
    refine alike_get fun _ => ?_
    split
    · exact .throw _ _
    · exact alike_visit (alike_expandText (alike_includeFrom fun name => ih name _) _ _)

/-- After an expansion no file is being expanded. -/
lemma run_of_outcome (h : outcome (expandFile source fuel path) [] = .error e) :
    (expandFile source fuel path).run.run [] = (.error e, []) :=
  Prod.ext h (alike_self source fuel path []).active

/-- The content of the file that a value names in another one. -/
def Source.content (source : Source) (fuel : Nat) (file : Path) : Yaml → Loading Yaml :=
  includeFrom (expandFile source fuel) source.base file

/-- The path by which a file is read that is included in another one. -/
def Source.target (source : Source) (file name : Path) : Path :=
  source.base.join (includePath source.base file name)

lemma alike_content (y : Yaml) :
    Alike active (source.content fuel file y) (source.content fuel file y) :=
  alike_includeFrom (fun path => alike_self source fuel path active) y

/-- What is included is the content of the file that is named. -/
lemma outcome_content (name : Path) : outcome (source.content fuel file (.str name.text)) active =
    outcome (expandFile source fuel (includePath source.base file name)) active := rfl

/-- A file is refused, cannot be read, or gives what its text does. -/
lemma outcome_expandFile : outcome (expandFile source (fuel + 1) path) active =
    if active.contains (source.base.join path).components then
      .error (.circular (source.base.join path))
    else match source.tree.readPath source.cwd (source.base.join path) with
      | .error e => .error (.unreadable (source.base.join path) e)
      | .ok text => outcome (expandText (source.content fuel (source.base.join path)) source.env
          (source.base.join path) text) ((source.base.join path).components :: active) := by
  have hrun : ∀ (components : List Path.Component) (e : Error) (visit : Loading Yaml), outcome (do
      if (← get).contains components then throw e
      visit : Loading Yaml) active =
      if active.contains components then .error e else outcome visit active := by
    intro components e visit
    change ((if active.contains components then throw e >>= fun (_ : PUnit) => visit
      else visit : Loading Yaml).run.run active).1 = _
    split <;> rfl
  rw [expandFile]
  dsimp only
  rw [hrun]
  split
  · rfl
  · cases source.tree.readPath source.cwd (source.base.join path) <;> rfl

/-- A file that is expanded can be read. -/
lemma exists_text_of_outcome (h : outcome (expandFile source fuel path) active = .ok z) :
    ∃ text, source.tree.readPath source.cwd (source.base.join path) = .ok text := by
  cases fuel with
  | zero => cases h
  | succ fuel =>
    rw [outcome_expandFile] at h
    split at h
    · cases h
    · cases hread : source.tree.readPath source.cwd (source.base.join path) with
      | error e =>
        rw [hread] at h
        cases h
      | ok text => exact ⟨text, rfl⟩

/-! ### In the order of the document -/

/-- A value includes a file, and everything before can be expanded. -/
inductive Meets (includes : Yaml → Loading Yaml) (env : Table String) (active : Active) (z : Yaml) :
    Yaml → Prop
  | named : Meets includes env active z (.tagged "include" z)
  | tagged {tag : String} {y : Yaml} (hinclude : tag ≠ "include") (henv : tag ≠ "env_var")
    (h : Meets includes env active z y) : Meets includes env active z (.tagged tag y)
  | item {before values after : List Yaml} {y : Yaml}
    (hbefore : outcome (expandItems includes env before) active = .ok values)
    (h : Meets includes env active z y) : Meets includes env active z (.seq (before ++ y :: after))
  | entry {before values after : List (Yaml × Yaml)} {k y : Yaml}
    (hbefore : outcome (expandEntries includes env before) active = .ok values)
    (h : Meets includes env active z y) :
    Meets includes env active z (.map (before ++ (k, y) :: after))

section Order

variable (hincludes : ∀ y, Alike active (includes y) (includes y))

include hincludes

lemma outcome_cons (items : List Yaml) : outcome (expandItems includes env (y :: items)) active =
    (outcome (expand includes env y) active).bind fun value =>
      (outcome (expandItems includes env items) active).map (value :: ·) := by
  rw [expandItems, outcome_bind (alike_expand hincludes y)]
  congr 1
  funext value
  rw [outcome_bind (alike_expandItems hincludes items)]
  cases outcome (expandItems includes env items) active <;> rfl

lemma outcome_cons_entry (k : Yaml) (entries : List (Yaml × Yaml)) :
    outcome (expandEntries includes env ((k, y) :: entries)) active =
      (outcome (expand includes env y) active).bind fun value =>
        (outcome (expandEntries includes env entries) active).map ((k, value) :: ·) := by
  rw [expandEntries, outcome_bind (alike_expand hincludes y)]
  congr 1
  funext value
  rw [outcome_bind (alike_expandEntries hincludes entries)]
  cases outcome (expandEntries includes env entries) active <;> rfl

/-- Values are expanded after those that stand before them. -/
lemma outcome_append (before after : List Yaml) :
    outcome (expandItems includes env (before ++ after)) active =
      (outcome (expandItems includes env before) active).bind fun values =>
        (outcome (expandItems includes env after) active).map (values ++ ·) := by
  induction before with
  | nil =>
    rw [List.nil_append, expandItems, outcome_pure]
    cases outcome (expandItems includes env after) active <;> rfl
  | cons y before ih =>
    rw [List.cons_append, outcome_cons hincludes, outcome_cons hincludes, ih]
    cases outcome (expand includes env y) active
    · rfl
    · cases outcome (expandItems includes env before) active
      · rfl
      · cases outcome (expandItems includes env after) active <;> rfl

lemma outcome_append_entries (before after : List (Yaml × Yaml)) :
    outcome (expandEntries includes env (before ++ after)) active =
      (outcome (expandEntries includes env before) active).bind fun values =>
        (outcome (expandEntries includes env after) active).map (values ++ ·) := by
  induction before with
  | nil =>
    rw [List.nil_append, expandEntries, outcome_pure]
    cases outcome (expandEntries includes env after) active <;> rfl
  | cons x before ih =>
    rw [List.cons_append, outcome_cons_entry hincludes, outcome_cons_entry hincludes, ih]
    cases outcome (expand includes env x.2) active
    · rfl
    · cases outcome (expandEntries includes env before) active
      · rfl
      · cases outcome (expandEntries includes env after) active <;> rfl

lemma outcome_tagged {tag : String} (hinclude : tag ≠ "include") (henv : tag ≠ "env_var") :
    outcome (expand includes env (.tagged tag y)) active =
      (outcome (expand includes env y) active).map (.tagged tag) := by
  rw [expand, if_neg hinclude, if_neg henv, outcome_bind (alike_expand hincludes y)]
  cases outcome (expand includes env y) active <;> rfl

lemma outcome_seq (items : List Yaml) : outcome (expand includes env (.seq items)) active =
    (outcome (expandItems includes env items) active).map .seq := by
  rw [expand, outcome_bind (alike_expandItems hincludes items)]
  cases outcome (expandItems includes env items) active <;> rfl

lemma outcome_map (entries : List (Yaml × Yaml)) :
    outcome (expand includes env (.map entries)) active =
      (outcome (expandEntries includes env entries) active).map .map := by
  rw [expand, outcome_bind (alike_expandEntries hincludes entries)]
  cases outcome (expandEntries includes env entries) active <;> rfl

/-- The error of a file that is included is the error of the value that includes it. -/
lemma Meets.fails (h : Meets includes env active z y)
    (hz : outcome (includes z) active = .error e) :
    outcome (expand includes env y) active = .error e := by
  induction h with
  | named =>
    rw [expand, if_pos rfl]
    exact hz
  | tagged hinclude henv _ ih =>
    rw [outcome_tagged hincludes hinclude henv, ih]
    rfl
  | item hbefore _ ih =>
    rw [outcome_seq hincludes, outcome_append hincludes, hbefore, outcome_cons hincludes, ih]
    rfl
  | entry hbefore _ ih =>
    rw [outcome_map hincludes, outcome_append_entries hincludes, hbefore,
      outcome_cons_entry hincludes, ih]
    rfl

end Order

/-! ### Chains of files -/

/-- The innermost one of some files that are being expanded includes another file, and everything
before can be expanded. -/
def Source.Includes (source : Source) : List Path → Path → Prop
  | [], _ => False
  | file :: rest, name => ∃ text y, source.tree.readPath source.cwd file = .ok text ∧
      Yaml.parse? text = some y ∧
        Meets (source.content (nestingBound - (rest.length + 1)) file) source.env
          ((file :: rest).map Path.components) (.str name.text) y

/-- The files that are being expanded one in another when a path is expanded, the innermost first.
Each but the outermost is included in the next one, after nothing that fails. -/
inductive Source.Opens (source : Source) (path : Path) : List Path → Prop
  | opens {text : String}
    (hread : source.tree.readPath source.cwd (source.base.join path) = .ok text) :
    source.Opens path [source.base.join path]
  | includes {file name : Path} {rest : List Path} {text : String}
    (h : source.Opens path (file :: rest)) (hname : source.Includes (file :: rest) name)
    (hnew : (source.target file name).components ∉ (file :: rest).map Path.components)
    (hread : source.tree.readPath source.cwd (source.target file name) = .ok text) :
    source.Opens path (source.target file name :: file :: rest)

namespace Source.Opens

lemma isOpen (h : source.Opens path rest) : IsOpen (rest.map Path.components) := by
  induction h with
  | opens hread =>
    have hnone : IsOpen [] := ⟨List.nodup_nil, fun _ h => absurd h List.not_mem_nil⟩
    exact hnone.cons rfl hread
  | includes _ _ hnew hread ih => exact ih.cons (by simpa using hnew) hread

/-- There is fuel for one more file. -/
lemma length_lt (h : source.Opens path rest) : rest.length < nestingBound := by
  have hlength := h.isOpen.length_le
  rw [List.length_map] at hlength
  have hbound : nestingBound = pathCount + 1 := rfl
  omega

/-- The files are those of which the paths are joined to the base. -/
lemma exists_join (h : source.Opens path rest) (hfile : file ∈ rest) :
    ∃ label, file = source.base.join label := by
  induction h with
  | opens => exact ⟨_, List.mem_singleton.mp hfile⟩
  | includes _ _ _ _ ih =>
    rcases List.mem_cons.mp hfile with rfl | hfile
    · exact ⟨_, rfl⟩
    · exact ih hfile

/-- The files can be read. -/
lemma exists_locate (h : source.Opens path rest) (hfile : file ∈ rest) :
    ∃ l text, source.tree.locate source.cwd file = .ok l ∧ source.tree.readText l = .ok text := by
  obtain ⟨text, hread⟩ : ∃ text, source.tree.readPath source.cwd file = .ok text := by
    induction h with
    | opens hread => exact ⟨_, List.mem_singleton.mp hfile ▸ hread⟩
    | includes _ _ _ hread ih =>
      rcases List.mem_cons.mp hfile with rfl | hfile
      · exact ⟨_, hread⟩
      · exact ih hfile
  obtain ⟨l, hl, htext⟩ := Path.exists_locate_of_readPath hread
  exact ⟨l, text, hl, htext⟩

end Source.Opens

/-- The error of a file that is included is the error of the file that includes it. -/
lemma Source.Includes.fails (h : source.Includes (source.base.join path :: rest) name)
    (hnew : (source.base.join path).components ∉ rest.map Path.components)
    (hfuel : rest.length < nestingBound)
    (hname : outcome (expandFile source (nestingBound - (rest.length + 1))
      (includePath source.base (source.base.join path) name))
      ((source.base.join path :: rest).map Path.components) = .error e) :
    outcome (expandFile source (nestingBound - rest.length) path) (rest.map Path.components) =
      .error e := by
  obtain ⟨text, y, hread, hparse, hmeets⟩ := h
  obtain ⟨fuel, hless, hmore⟩ : ∃ fuel, nestingBound - (rest.length + 1) = fuel ∧
      nestingBound - rest.length = fuel + 1 := ⟨_, rfl, by omega⟩
  rw [hless] at hmeets hname
  rw [hmore, outcome_expandFile, if_neg (by simpa using hnew), hread]
  simp only [expandText, hparse]
  exact hmeets.fails alike_content (by rw [outcome_content]; exact hname)

/-- The error of a file that the innermost one includes is the error of the whole expansion. -/
theorem Source.Opens.fails (h : source.Opens path (file :: rest))
    (hname : source.Includes (file :: rest) name)
    (hfails : outcome (expandFile source (nestingBound - (rest.length + 1))
      (includePath source.base file name)) ((file :: rest).map Path.components) = .error e) :
    outcome (expandFile source nestingBound path) [] = .error e := by
  induction rest generalizing file name with
  | nil =>
    have hfuel : 0 < nestingBound := Nat.zero_lt_of_lt h.length_lt
    cases h
    have hfile := hname.fails (by simp) hfuel hfails
    rwa [List.length_nil, Nat.sub_zero, List.map_nil] at hfile
  | cons file' rest ih =>
    have hfuel := Nat.lt_of_succ_lt h.length_lt
    obtain _ | ⟨h, hname', hnew, hread⟩ := h
    exact ih h hname' (hname.fails hnew hfuel hfails)

end Recital.Settings

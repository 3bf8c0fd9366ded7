import Recital.Proofs.Settings.Depth

/-!
# Where settings are found

A file of settings names others relative to the directory in which it stands.  They are looked up
by paths that are joined from the names on the way.  `loadNamed` reads settings without following
such paths: it knows the directory of the file that it reads, and follows each name from there.
Both read the same, however deep files include each other, where a path of settings is absolute, or
leads to them from the directory in which it starts (`settings_are_found_where_named`).  Of any
other path the part before the last component is followed twice.
-/

namespace Recital.Settings

variable {tree : FileTree} {cwd dir : Location} {env : Table String} {base p label name : Path}

/-! ### Following names -/

/-- The file that a name means in a directory, and its text. -/
def openNamed (tree : FileTree) (dir : Location) (name : Path) :
    Except FileError (Location × String) := do
  let l ← tree.reach dir name
  return (l, ← tree.readText l)

/-- Reads a file that is named in a file of a directory, where `load` gives the expanded content of
the file that a name means in a directory. -/
def includeNamed (load : Path → Location → Path → Loading Yaml) (base label : Path)
    (dir : Location) (y : Yaml) : Loading Yaml := do
  let name ← includeName y
  load (includePath base label name) dir name

/-- The expanded content of the file that a name means in a directory, where files include each
other less deeply than `depth`.  Its label, which is joined from the names on the way, is what
errors show; a file is refused when its label is too long, or is that of a file that is being
expanded. -/
def expandNamed (tree : FileTree) (env : Table String) (base : Path) :
    Nat → Path → Location → Path → Loading Yaml
  | 0, label, _, _ => throw (.unreadable label .tooLong)
  | depth + 1, label, dir, name => do
    let label := base.join label
    let components := label.components
    if (← get).contains components then throw (.circular label)
    match (FileTree.fault? label).elim (openNamed tree dir name) .error with
    | .error e => throw (.unreadable label e)
    | .ok (l, text) =>
      modify (components :: ·)
      let includes := includeNamed (expandNamed tree env base depth) base label l.dropLast
      let result ← observe (expandText includes env label text)
      modify (·.erase components)
      ExceptT.mk (return result)

/-- The configuration of the settings file that a path means. -/
def loadNamed (tree : FileTree) (cwd : Location) (env : Table String) (depth : Nat) (p : Path) :
    Except Error Config := do
  let base := (p.parent?).getD ⟨""⟩
  ofYaml p (← ((expandNamed tree env base depth p cwd p).run.run []).1)

/-- The configuration of the text of settings that stands in no file. -/
def readNamed (tree : FileTree) (cwd : Location) (env : Table String) (depth : Nat)
    (text : String) : Except Error Config := do
  let includes := includeNamed (expandNamed tree env ⟨"."⟩ depth) ⟨"."⟩ inlinePath cwd
  ofYaml inlinePath (← ((expandText includes env inlinePath text).run.run []).1)

/-! ### Joined paths -/

/-- The path of an included file is joined to the directory of the file that includes it. -/
lemma exists_includePath (ht : tree.IsSound) (hcwd : tree.entry? cwd = some .directory)
    {l : Location} {content : ByteArray} (h : tree.reach cwd (base.join label) = .ok l)
    (hfile : tree.file? l = some content) :
    ∃ d, (base.join label).parent? = some d ∧ tree.Enters cwd d l.dropLast ∧
      d.isAbsolute = (base.isAbsolute || label.isAbsolute) ∧
        ∀ name, includePath base (base.join label) name = d.join name := by
  obtain ⟨d, hd, henters⟩ := FileTree.exists_parent? ht hcwd h hfile
  refine ⟨d, hd, henters, ?_, fun name => ?_⟩
  · rw [Path.isAbsolute_of_parent? hd, Path.isAbsolute_join]
  · unfold includePath
    rw [hd, Option.getD_some]

/-- The path of an included file leads where the name of the file leads from the directory of the
file that includes it. -/
lemma reach_includePath (ht : tree.IsSound) (hcwd : tree.entry? cwd = some .directory)
    (hbase : base.isAbsolute = true ∨ tree.reach cwd base = .ok cwd) {l : Location}
    {content : ByteArray} (h : tree.reach cwd (base.join label) = .ok l)
    (hfile : tree.file? l = some content) :
    tree.reach cwd (base.join (includePath base (base.join label) name)) =
      tree.reach l.dropLast name := by
  obtain ⟨d, -, henters, hd, hpath⟩ := exists_includePath ht hcwd h hfile
  rw [hpath, ← henters.reach_join]
  cases habsolute : (d.join name).isAbsolute with
  | true => rw [Path.join_of_isAbsolute habsolute]
  | false =>
    rw [Path.isAbsolute_join, hd, Bool.or_eq_false_iff, Bool.or_eq_false_iff] at habsolute
    rw [habsolute.1.1] at hbase
    rcases hbase with hbase | hbase
    · cases hbase
    · exact FileTree.Enters.reach_join ⟨hbase, hcwd⟩ _

/-- Files are found where they are named, however deep they include each other.  The induction is on
the depth that is left; what it carries from file to file is that a label leads where the name
leads from the directory of the file that holds it. -/
lemma expandFile_eq (ht : tree.IsSound) (hcwd : tree.entry? cwd = some .directory)
    (hbase : base.isAbsolute = true ∨ tree.reach cwd base = .ok cwd) (fuel : Nat)
    (h : tree.reach cwd (base.join label) = tree.reach dir name) :
    expandFile { tree, cwd, env, base } fuel label =
      expandNamed tree env base fuel label dir name := by
  induction fuel generalizing label dir name with
  | zero => rfl
  | succ fuel ih =>
    have hincludes : ∀ {l : Location} {text : String}, tree.reach dir name = .ok l →
        tree.readText l = .ok text →
        includeFrom (expandFile { tree, cwd, env, base } fuel) base (base.join label) =
          includeNamed (expandNamed tree env base fuel) base (base.join label) l.dropLast := by
      intro l text hl htext
      obtain ⟨content, hfile⟩ := FileTree.exists_file?_of_readText htext
      funext y
      exact bind_congr fun name => ih (reach_includePath ht hcwd hbase (h.trans hl) hfile)
    rw [expandFile, expandNamed]
    simp only [FileTree.readPath_eq, h]
    cases hfault : FileTree.fault? (base.join label) with
    | some e => rfl
    | none =>
      simp only [Option.elim_none, openNamed]
      cases hl : tree.reach dir name with
      | error e => rfl
      | ok l =>
        simp only [Except.bind, bind]
        cases htext : tree.readText l with
        | error e => rfl
        | ok text =>
          rw [hincludes hl htext]
          rfl

/-- Settings are found where they are named, by an absolute path or by one that stays in the
directory in which it starts. -/
theorem settings_are_found_where_named (ht : tree.IsSound)
    (hcwd : tree.entry? cwd = some .directory)
    (hp : p.isAbsolute = true ∨ tree.reach cwd ((p.parent?).getD ⟨""⟩) = .ok cwd) {depth : Nat}
    (hdepth : nestingBound ≤ depth) : load tree cwd env p = loadNamed tree cwd env depth p := by
  have hbase : ((p.parent?).getD ⟨""⟩).isAbsolute = true ∨
      tree.reach cwd ((p.parent?).getD ⟨""⟩) = .ok cwd := by
    rcases hp with hp | hp
    · cases hparent : p.parent? with
      | some d => exact .inl ((Path.isAbsolute_of_parent? hparent).trans hp)
      | none => exact .inr (FileTree.reach_empty hcwd)
    · exact .inr hp
  have hroot : tree.reach cwd (((p.parent?).getD ⟨""⟩).join p) = tree.reach cwd p := by
    rcases hp with hp | hp
    · rw [Path.join_of_isAbsolute hp]
    · exact FileTree.Enters.reach_join ⟨hp, hcwd⟩ p
  have hexpanded :=
    (alike_of_le { tree, cwd, env, base := (p.parent?).getD ⟨""⟩ } hdepth p).result
  rw [expandFile_eq ht hcwd hbase depth hroot] at hexpanded
  unfold load loadNamed
  simp only [hexpanded]

/-- What a text of settings names is found from the directory that relative paths start at. -/
theorem named_in_text_is_found (ht : tree.IsSound) (hcwd : tree.entry? cwd = some .directory)
    {depth : Nat} (hdepth : nestingBound ≤ depth) (text : String) :
    read tree cwd env text = readNamed tree cwd env depth text := by
  have hdot : tree.reach cwd ⟨"."⟩ = .ok cwd := FileTree.walk_dot_eq_ok_iff.mpr ⟨hcwd, rfl⟩
  have hpath : ∀ name, includePath ⟨"."⟩ inlinePath name = name := fun name =>
    Path.join_of_isEmpty rfl
  have hincludes : includeFrom (expandFile { tree, cwd, env, base := ⟨"."⟩ } depth) ⟨"."⟩
      inlinePath = includeNamed (expandNamed tree env ⟨"."⟩ depth) ⟨"."⟩ inlinePath cwd := by
    funext y
    refine bind_congr fun name => expandFile_eq ht hcwd (.inr hdot) _ ?_
    rw [hpath]
    exact FileTree.Enters.reach_join ⟨hdot, hcwd⟩ name
  have halike : Alike []
      (expandText (includeFrom (expandFile { tree, cwd, env, base := ⟨"."⟩ } nestingBound) ⟨"."⟩
        inlinePath) env inlinePath text)
      (expandText (includeFrom (expandFile { tree, cwd, env, base := ⟨"."⟩ } depth) ⟨"."⟩
        inlinePath) env inlinePath text) :=
    alike_expandText (alike_includeFrom (alike_of_le _ hdepth)) _ _
  have hexpanded := halike.result
  rw [hincludes] at hexpanded
  unfold read readNamed
  simp only [hexpanded]

/-- Settings of which the pace stands in a directory of its own, beside the delay that it names. -/
def concert : FileTree :=
  ⟨[(["home"], .directory),
    (["home", "engine.yaml"], .file "playback: !include parts/pace.yaml".toUTF8),
    (["home", "parts"], .directory),
    (["home", "parts", "pace.yaml"], .file "line_delay_ms: !include delay.yaml".toUTF8),
    (["home", "parts", "delay.yaml"], .file "250".toUTF8)]⟩

lemma isSound_concert : concert.IsSound := by
  refine FileTree.isSound_of_entries (by decide) fun x hx => ?_
  simp only [concert, List.mem_cons, List.not_mem_nil, or_false] at hx
  rcases hx with rfl | rfl | rfl | rfl | rfl <;> rfl

/-- The pace and the delay are found from the directory of the settings. -/
theorem concert_is_found : concert.IsSound ∧ concert.entry? ["home"] = some .directory ∧
    concert.reach ["home"] ((Path.parent? ⟨"./engine.yaml"⟩).getD ⟨""⟩) = .ok ["home"] ∧
    load concert ["home"] ∅ ⟨"./engine.yaml"⟩ =
      loadNamed concert ["home"] ∅ nestingBound ⟨"./engine.yaml"⟩ ∧
    ∃ c, load concert ["home"] ∅ ⟨"./engine.yaml"⟩ = .ok c ∧ c.pacing.lineDelayMs = 250 := by
  have hdir : concert.reach ["home"] ((Path.parent? ⟨"./engine.yaml"⟩).getD ⟨""⟩) = .ok ["home"] :=
    rfl
  have hfound : load concert ["home"] ∅ ⟨"./engine.yaml"⟩ =
      loadNamed concert ["home"] ∅ nestingBound ⟨"./engine.yaml"⟩ :=
    settings_are_found_where_named isSound_concert rfl (.inr hdir) (Nat.le_refl _)
  refine ⟨isSound_concert, rfl, hdir, hfound, ?_⟩
  have hdelay : (loadNamed concert ["home"] ∅ nestingBound ⟨"./engine.yaml"⟩).toOption.map
      (·.pacing.lineDelayMs) = some 250 := by
    decide +kernel
  rw [hfound]
  cases hload : loadNamed concert ["home"] ∅ nestingBound ⟨"./engine.yaml"⟩ with
  | error e =>
    rw [hload] at hdelay
    cases hdelay
  | ok c =>
    rw [hload] at hdelay
    exact ⟨c, rfl, Option.some.inj hdelay⟩

end Recital.Settings

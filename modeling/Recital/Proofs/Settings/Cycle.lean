import Recital.Proofs.Settings.Nesting
import Recital.Proofs.Settings.Placement
import Mathlib.Logic.Relation

/-!
# Cycles of includes

A file that is being expanded is not read again, but it is known by the components of its path only.
So a cycle of includes is refused where it closes if the path that closes it has the components of
another one on it.  That is so if the paths start alike and have no parts `..`.

Any other cycle is entered again.  Where files are found where they are named (`Source.IsPlaced`),
what could be expanded the first time around gives the same again, or ends in a file that is refused
or in a path that is too long to be followed (`Follows`).  So the cycle is followed until one of
these errors comes (`recoils_of_transGen`), and the expansion never succeeds.
-/

namespace Recital.Settings

open Relation

variable {α β : Type} {active after : Active} {includes others : Yaml → Loading Yaml}
  {env : Table String} {source : Source} {fuel more : Nat} {label again name path file : Path}
  {rest : List Path} {l m : Location} {text : String} {y z : Yaml}

/-! ### Recoil -/

/-- A file is being expanded already, or its path is too long to be followed. -/
inductive Error.IsRecoil : Error → Prop
  | circular (path : Path) : (Error.circular path).IsRecoil
  | tooLong (path : Path) : (Error.unreadable path .tooLong).IsRecoil

/-- An expansion fails because a file is being expanded already, or because a path is too long. -/
def Recoils (r : Except Error α) : Prop := ∃ e, r = .error e ∧ e.IsRecoil

/-- What one expansion gives is given by another one, too, unless that recoils. -/
def Follows (r r' : Except Error α) : Prop := ∀ a, r = .ok a → r' = .ok a ∨ Recoils r'

lemma Recoils.bind {r : Except Error α} (h : Recoils r) (next : α → Except Error β) :
    Recoils (r.bind next) := by
  obtain ⟨e, rfl, he⟩ := h
  exact ⟨e, rfl, he⟩

lemma Recoils.map {r : Except Error α} (h : Recoils r) (f : α → β) : Recoils (r.map f) := by
  obtain ⟨e, rfl, he⟩ := h
  exact ⟨e, rfl, he⟩

lemma Follows.refl (r : Except Error α) : Follows r r := fun _ h => .inl h

lemma Follows.bind {r r' : Except Error α} {next next' : α → Except Error β} (h : Follows r r')
    (hnext : ∀ a, Follows (next a) (next' a)) : Follows (r.bind next) (r'.bind next') := by
  intro b hb
  cases r with
  | error e => cases hb
  | ok a =>
    rcases h a rfl with rfl | hrecoils
    · exact hnext a b hb
    · exact .inr (hrecoils.bind next')

lemma Follows.map {r r' : Except Error α} (h : Follows r r') (f : α → β) :
    Follows (r.map f) (r'.map f) := by
  intro b hb
  cases r with
  | error e => cases hb
  | ok a =>
    rcases h a rfl with rfl | hrecoils
    · exact .inl hb
    · exact .inr (hrecoils.map f)

/-! ### Values -/

section Values

variable (hincludes : ∀ y, Alike active (includes y) (includes y))
  (hothers : ∀ y, Alike after (others y) (others y))

include hincludes hothers

mutual

/-- Values are expanded as before when what they include is. -/
lemma follows_expand
    (h : ∀ y, Follows (outcome (includes y) active) (outcome (others y) after)) :
    (y : Yaml) →
    Follows (outcome (expand includes env y) active) (outcome (expand others env y) after)
  | .tagged tag y => by
    by_cases hinclude : tag = "include"
    · rw [expand, expand, if_pos hinclude, if_pos hinclude]
      exact h y
    · by_cases henv : tag = "env_var"
      · rw [expand, expand, if_neg hinclude, if_neg hinclude, if_pos henv, if_pos henv,
          outcome_variableValue env y active after]
        exact .refl _
      · rw [outcome_tagged hincludes hinclude henv, outcome_tagged hothers hinclude henv]
        exact (follows_expand h y).map _
  | .seq items => by
    rw [outcome_seq hincludes, outcome_seq hothers]
    exact (follows_expandItems h items).map _
  | .map entries => by
    rw [outcome_map hincludes, outcome_map hothers]
    exact (follows_expandEntries h entries).map _
  | .null | .bool _ | .int _ | .real _ | .str _ => .refl _

lemma follows_expandItems
    (h : ∀ y, Follows (outcome (includes y) active) (outcome (others y) after)) :
    (items : List Yaml) →
    Follows (outcome (expandItems includes env items) active)
      (outcome (expandItems others env items) after)
  | [] => .refl _
  | y :: items => by
    rw [outcome_cons hincludes, outcome_cons hothers]
    exact (follows_expand h y).bind fun _ => (follows_expandItems h items).map _

lemma follows_expandEntries
    (h : ∀ y, Follows (outcome (includes y) active) (outcome (others y) after)) :
    (entries : List (Yaml × Yaml)) →
    Follows (outcome (expandEntries includes env entries) active)
      (outcome (expandEntries others env entries) after)
  | [] => .refl _
  | (k, y) :: entries => by
    rw [outcome_cons_entry hincludes, outcome_cons_entry hothers]
    exact (follows_expand h y).bind fun _ => (follows_expandEntries h entries).map _

end

/-- A value recoils again when a file that it includes does. -/
lemma Meets.recoils
    (h : ∀ y, Follows (outcome (includes y) active) (outcome (others y) after))
    (hmeets : Meets includes env active z y) (hz : Recoils (outcome (others z) after)) :
    Recoils (outcome (expand others env y) after) := by
  induction hmeets with
  | named =>
    rw [expand, if_pos rfl]
    exact hz
  | tagged hinclude henv _ ih =>
    rw [outcome_tagged hothers hinclude henv]
    exact ih.map _
  | @item before values _ _ hbefore _ ih =>
    rw [outcome_seq hothers, outcome_append hothers]
    refine Recoils.map ?_ _
    rcases follows_expandItems hincludes hothers h before values hbefore with hagain | hrecoils
    · rw [hagain, outcome_cons hothers]
      exact (ih.bind _).map _
    · exact hrecoils.bind _
  | @entry before values _ _ _ hbefore _ ih =>
    rw [outcome_map hothers, outcome_append_entries hothers]
    refine Recoils.map ?_ _
    rcases follows_expandEntries hincludes hothers h before values hbefore with hagain | hrecoils
    · rw [hagain, outcome_cons_entry hothers]
      exact (ih.bind _).map _
    · exact hrecoils.bind _

end Values

/-! ### Files -/

/-- Files are found where they are named: relative paths start in the directory to which the base
leads, or the base is absolute. -/
structure Source.IsPlaced (source : Source) : Prop where
  sound : source.tree.IsSound
  cwd : source.tree.entry? source.cwd = some .directory
  base : source.base.isAbsolute = true ∨ source.tree.reach source.cwd source.base = .ok source.cwd

section Files

variable (h : source.IsPlaced)

include h

/-- A file is found from the directory of the file that includes it. -/
lemma reach_target (hl : source.tree.reach source.cwd (source.base.join label) = .ok l)
    (htext : source.tree.readText l = .ok text) :
    source.tree.reach source.cwd (source.target (source.base.join label) name) =
      source.tree.reach l.dropLast name := by
  obtain ⟨content, hfile⟩ := FileTree.exists_file?_of_readText htext
  exact reach_includePath h.sound h.cwd h.base hl hfile

/-- The null character is in no path that is joined from paths without it. -/
lemma isClean_target (hl : source.tree.reach source.cwd (source.base.join label) = .ok l)
    (htext : source.tree.readText l = .ok text) (hlabel : (source.base.join label).IsClean)
    (hname : name.IsClean) : (source.target (source.base.join label) name).IsClean := by
  obtain ⟨content, hfile⟩ := FileTree.exists_file?_of_readText htext
  obtain ⟨d, hparent, -, hd, hpath⟩ := exists_includePath h.sound h.cwd hl hfile
  have hclean : (d.join name).IsClean := (hlabel.parent hparent).join hname
  unfold Source.target
  rw [hpath]
  cases habsolute : (d.join name).isAbsolute with
  | true => rwa [Path.join_of_isAbsolute habsolute]
  | false =>
    rw [Path.isAbsolute_join, hd, Bool.or_eq_false_iff, Bool.or_eq_false_iff] at habsolute
    exact (hlabel.of_join.2 habsolute.1.2).join hclean

/-- What a file includes by one path gives the same by another one, if the files there do. -/
lemma follows_content (hl : source.tree.reach source.cwd (source.base.join label) = .ok l)
    (hagain : source.tree.reach source.cwd (source.base.join again) = .ok l)
    (htext : source.tree.readText l = .ok text) (hclean : (source.base.join again).IsClean)
    (hfiles : ∀ label again, source.tree.reach source.cwd (source.base.join label) =
      source.tree.reach source.cwd (source.base.join again) → (source.base.join again).IsClean →
        Follows (outcome (expandFile source fuel label) active)
          (outcome (expandFile source more again) after)) (y : Yaml) :
    Follows (outcome (source.content fuel (source.base.join label) y) active)
      (outcome (source.content more (source.base.join again) y) after) := by
  intro v hv
  have hstr : ∃ name : Path, y = .str name.text := by
    cases y with
    | str s => exact ⟨⟨s⟩, rfl⟩
    | _ => cases hv
  obtain ⟨name, rfl⟩ := hstr
  rw [outcome_content] at hv ⊢
  have hname : name.IsClean := by
    obtain ⟨text, hread⟩ := exists_text_of_outcome hv
    obtain ⟨l, hlocate, -⟩ := Path.exists_locate_of_readPath hread
    exact (Path.isClean_of_locate hlocate).of_join.1.of_join.1
  refine hfiles _ _ ?_ (isClean_target h hagain htext hclean hname) v hv
  exact (reach_target h hl htext).trans (reach_target h hagain htext).symm

/-- A file gives by any path what it gives by one of them, or recoils. -/
lemma follows_expandFile (hreach : source.tree.reach source.cwd (source.base.join label) =
      source.tree.reach source.cwd (source.base.join again))
    (hclean : (source.base.join again).IsClean) :
    Follows (outcome (expandFile source fuel label) active)
      (outcome (expandFile source more again) after) := by
  induction more generalizing fuel label again active after with
  | zero => exact fun _ _ => .inr ⟨_, rfl, .tooLong again⟩
  | succ more ih =>
    intro v hv
    obtain ⟨text, hread⟩ := exists_text_of_outcome hv
    obtain ⟨l, hlocate, htext⟩ := Path.exists_locate_of_readPath hread
    have hl := Path.reach_of_locate hlocate
    have hagain := hreach.symm.trans hl
    cases fuel with
    | zero => cases hv
    | succ fuel =>
      rw [outcome_expandFile, hread] at hv
      rw [outcome_expandFile]
      split at hv
      · cases hv
      · split
        · exact .inr ⟨_, rfl, .circular _⟩
        · rcases hclean.readPath h.cwd hagain htext with hread | hread
          · rw [hread]
            unfold expandText at hv ⊢
            cases hparse : Yaml.parse? text with
            | none => simp [hparse] at hv
            | some y =>
              simp only [hparse] at hv ⊢
              exact follows_expand alike_content alike_content
                (follows_content h hl hagain htext hclean fun _ _ => ih) y v hv
          · rw [hread]
            exact .inr ⟨_, rfl, .tooLong _⟩

end Files

/-! ### Locations -/

/-- A file at a location includes a file at another one, and everything before can be expanded. -/
inductive Source.Leads (source : Source) (l m : Location) : Prop
  | includes {label name : Path} {fuel : Nat} {active : Active} {text next : String} {y : Yaml}
    (hl : source.tree.reach source.cwd (source.base.join label) = .ok l)
    (htext : source.tree.readText l = .ok text) (hparse : Yaml.parse? text = some y)
    (hmeets : Meets (source.content fuel (source.base.join label)) source.env active
      (.str name.text) y)
    (hname : name.IsClean) (hm : source.tree.reach l.dropLast name = .ok m)
    (hnext : source.tree.readText m = .ok next)

/-- A file on a cycle of includes is never expanded to the end.  The induction is on the fuel; it
goes from file to file, as the cycle can be entered at each of them. -/
theorem recoils_of_transGen (h : source.IsPlaced) (hcycle : TransGen source.Leads l l)
    (hagain : source.tree.reach source.cwd (source.base.join again) = .ok l)
    (hclean : (source.base.join again).IsClean) :
    Recoils (outcome (expandFile source more again) after) := by
  induction more generalizing l again after with
  | zero => exact ⟨_, rfl, .tooLong again⟩
  | succ more ih =>
    obtain ⟨m, hlm, hml⟩ := TransGen.head'_iff.mp hcycle
    have hnext : TransGen source.Leads m m := TransGen.tail' hml hlm
    obtain ⟨hl, htext, hparse, hmeets, hname, hm, -⟩ := hlm
    rw [outcome_expandFile]
    split
    · exact ⟨_, rfl, .circular _⟩
    · rcases hclean.readPath h.cwd hagain htext with hread | hread
      · rw [hread]
        simp only [expandText, hparse]
        refine hmeets.recoils alike_content alike_content
          (follows_content h hl hagain htext hclean fun _ _ => follows_expandFile h) ?_
        rw [outcome_content]
        exact ih hnext ((reach_target h hagain htext).trans hm)
          (isClean_target h hagain htext hclean hname)
      · rw [hread]
        exact ⟨_, rfl, .tooLong _⟩

/-- The innermost file leads to one that it includes, if that can be read. -/
lemma Source.Includes.leads (h : source.IsPlaced)
    (hname : source.Includes (source.base.join label :: rest) name)
    (hl : source.tree.reach source.cwd (source.base.join label) = .ok l)
    (hm : source.tree.locate source.cwd (source.target (source.base.join label) name) = .ok m)
    (hnext : source.tree.readText m = .ok text) : source.Leads l m := by
  obtain ⟨own, y, hown, hparse, hmeets⟩ := hname
  obtain ⟨l', hlocate, htext⟩ := Path.exists_locate_of_readPath hown
  cases (Path.reach_of_locate hlocate).symm.trans hl
  exact .includes hl htext hparse hmeets (Path.isClean_of_locate hm).of_join.1.of_join.1
    ((reach_target h hl htext).symm.trans (Path.reach_of_locate hm)) hnext

namespace Source.Opens

variable {f : Path} (hopens : source.Opens path (file :: rest))

include hopens

/-- The files that are being expanded lead to the innermost one. -/
lemma leads (h : source.IsPlaced) (hmem : f ∈ file :: rest)
    (hl : source.tree.locate source.cwd f = .ok l)
    (hm : source.tree.locate source.cwd file = .ok m) : ReflTransGen source.Leads l m := by
  induction rest generalizing file m with
  | nil =>
    obtain rfl := List.mem_singleton.mp hmem
    cases hl.symm.trans hm
    exact .refl
  | cons file' rest ih =>
    rcases List.mem_cons.mp hmem with rfl | hrest
    · cases hl.symm.trans hm
      exact .refl
    · obtain _ | ⟨hopens, hname, -, hread⟩ := hopens
      obtain ⟨label, rfl⟩ := hopens.exists_join List.mem_cons_self
      obtain ⟨l', text, hl', -⟩ := hopens.exists_locate List.mem_cons_self
      obtain ⟨m', hm', hnext⟩ := Path.exists_locate_of_readPath hread
      cases hm'.symm.trans hm
      exact (ih hopens hrest hl').tail (hname.leads h (Path.reach_of_locate hl') hm hnext)

/-- A path has the components of the path of a file to which it leads if both start alike and have
no parts `..`. -/
lemma mem_components (hf : f ∈ file :: rest)
    (hsame : source.tree.locate source.cwd (source.target file name) =
      source.tree.locate source.cwd f)
    (hstart : f.StartsLike (source.target file name)) (hup : .up ∉ f.components)
    (hback : .up ∉ (source.target file name).components) :
    (source.target file name).components ∈ (file :: rest).map Path.components := by
  obtain ⟨l, text, hl, -⟩ := hopens.exists_locate hf
  exact List.mem_map.mpr ⟨f, hf, hstart.components_eq hup hback (Path.reach_of_locate hl)
    (Path.reach_of_locate (hsame.trans hl))⟩

variable (hname : source.Includes (file :: rest) name)

include hname

/-- A path is refused that has the components of one of the files. -/
lemma refuses
    (hmem : (source.target file name).components ∈ (file :: rest).map Path.components) :
    outcome (expandFile source nestingBound path) [] =
      .error (.circular (source.target file name)) := by
  have hlength := hopens.length_lt
  rw [List.length_cons] at hlength
  obtain ⟨fuel, hfuel⟩ : ∃ fuel, nestingBound - (rest.length + 1) = fuel + 1 :=
    ⟨nestingBound - (rest.length + 1) - 1, by omega⟩
  refine hopens.fails hname ?_
  rw [hfuel, outcome_expandFile]
  exact if_pos (List.contains_iff_mem.mpr hmem)

/-- A path that leads to one of the files is followed until a path is refused or too long. -/
lemma recoils (h : source.IsPlaced) (hf : f ∈ file :: rest)
    (hsame : source.tree.locate source.cwd (source.target file name) =
      source.tree.locate source.cwd f) :
    Recoils (outcome (expandFile source nestingBound path) []) := by
  obtain ⟨label, rfl⟩ := hopens.exists_join List.mem_cons_self
  obtain ⟨l, text, hl, htext⟩ := hopens.exists_locate hf
  obtain ⟨m, -, hm, -⟩ := hopens.exists_locate List.mem_cons_self
  have hback := hsame.trans hl
  have hcycle : TransGen source.Leads l l := TransGen.tail' (hopens.leads h hf hl hm)
    (hname.leads h (Path.reach_of_locate hm) hback htext)
  obtain ⟨e, he, hrecoil⟩ := recoils_of_transGen h hcycle (Path.reach_of_locate hback)
    (Path.isClean_of_locate hback)
  exact ⟨e, hopens.fails hname he, hrecoil⟩

end Source.Opens

/-- A cycle of includes is refused where it closes if the path there has the components of another
one on it.  If it leads to a file on the cycle in any other way, the expansion fails all the same,
because a file is refused later or a path becomes too long; and it is refused at once if the paths
have no parts `..` and start alike. -/
theorem include_cycle_is_refused (hopens : source.Opens path (file :: rest))
    (hname : source.Includes (file :: rest) name) :
    ((source.target file name).components ∈ (file :: rest).map Path.components →
      (expandFile source nestingBound path).run.run [] =
        (.error (.circular (source.target file name)), [])) ∧
    (∀ f ∈ file :: rest, source.tree.locate source.cwd (source.target file name) =
        source.tree.locate source.cwd f →
      (source.IsPlaced → ∃ e, e.IsRecoil ∧
        (expandFile source nestingBound path).run.run [] = (.error e, [])) ∧
      (f.StartsLike (source.target file name) → .up ∉ f.components →
        .up ∉ (source.target file name).components →
        (expandFile source nestingBound path).run.run [] =
          (.error (.circular (source.target file name)), []))) := by
  have hrefuses := fun hmem => run_of_outcome (hopens.refuses hname hmem)
  refine ⟨hrefuses, fun f hf hsame => ⟨fun h => ?_, fun hstart hup hback => ?_⟩⟩
  · obtain ⟨e, he, hrecoil⟩ := hopens.recoils hname h hf hsame
    exact ⟨e, hrecoil, run_of_outcome he⟩
  · exact hrefuses (hopens.mem_components hf hsame hstart hup hback)

/-- The key of the only entry of a mapping, and the file that is included there. -/
def soleInclude? : Yaml → Option (String × Path)
  | .map [(.str key, .tagged "include" (.str name))] => some (key, ⟨name⟩)
  | _ => none

/-- A file of which the text is one entry includes the file that is named there. -/
lemma Source.includes_of_sole {key : String}
    (hread : source.tree.readPath source.cwd file = .ok text)
    (hsole : (Yaml.parse? text).bind soleInclude? = some (key, name)) :
    source.Includes (file :: rest) name := by
  obtain ⟨y, hparse, hy⟩ := Option.bind_eq_some_iff.mp hsole
  unfold soleInclude? at hy
  split at hy
  · next file' =>
    cases hy
    have hmeets : Meets (source.content (nestingBound - (rest.length + 1)) file) source.env
        ((file :: rest).map Path.components) (.str file')
        (.map ([] ++ (.str key, .tagged "include" (.str file')) :: [])) := .entry rfl .named
    exact ⟨text, _, hread, hparse, hmeets⟩
  · cases hy

/-- Settings of which the pace is given by the settings themselves. -/
def perpetuum : Source where
  tree := ⟨[(["home"], .directory),
    (["home", "engine.yaml"], .file "playback: !include pace.yaml".toUTF8),
    (["home", "pace.yaml"], .file "line_delay_ms: !include ./engine.yaml".toUTF8)]⟩
  cwd := ["home"]
  base := ⟨"/home"⟩

lemma isPlaced_perpetuum : perpetuum.IsPlaced where
  sound := by
    refine FileTree.isSound_of_entries (by decide) fun x hx => ?_
    simp only [perpetuum, List.mem_cons, List.not_mem_nil, or_false] at hx
    rcases hx with rfl | rfl | rfl <;> rfl
  cwd := rfl
  base := .inl rfl

/-- The settings are refused, as the pace includes them again by another text. -/
theorem perpetuum_is_refused :
    perpetuum.Opens ⟨"engine.yaml"⟩ [⟨"/home/pace.yaml"⟩, ⟨"/home/engine.yaml"⟩] ∧
      perpetuum.Includes [⟨"/home/pace.yaml"⟩, ⟨"/home/engine.yaml"⟩] ⟨"./engine.yaml"⟩ ∧
      perpetuum.IsPlaced ∧
      (∃ e, e.IsRecoil ∧
        (expandFile perpetuum nestingBound ⟨"engine.yaml"⟩).run.run [] = (.error e, [])) ∧
      (expandFile perpetuum nestingBound ⟨"engine.yaml"⟩).run.run [] =
        (.error (.circular ⟨"/home/./engine.yaml"⟩), []) := by
  have hread : perpetuum.tree.readPath perpetuum.cwd ⟨"/home/engine.yaml"⟩ =
      .ok "playback: !include pace.yaml" := by decide +kernel
  have hpace : perpetuum.tree.readPath perpetuum.cwd ⟨"/home/pace.yaml"⟩ =
      .ok "line_delay_ms: !include ./engine.yaml" := by decide +kernel
  have hplayback : (Yaml.parse? "playback: !include pace.yaml").bind soleInclude? =
      some ("playback", ⟨"pace.yaml"⟩) := by decide +kernel
  have hdelay : (Yaml.parse? "line_delay_ms: !include ./engine.yaml").bind soleInclude? =
      some ("line_delay_ms", ⟨"./engine.yaml"⟩) := by decide +kernel
  have hengine : perpetuum.Opens ⟨"engine.yaml"⟩ [⟨"/home/engine.yaml"⟩] := .opens hread
  have hopens : perpetuum.Opens ⟨"engine.yaml"⟩ [⟨"/home/pace.yaml"⟩, ⟨"/home/engine.yaml"⟩] :=
    hengine.includes (Source.includes_of_sole hread hplayback) (by decide +kernel) hpace
  have hname : perpetuum.Includes [⟨"/home/pace.yaml"⟩, ⟨"/home/engine.yaml"⟩] ⟨"./engine.yaml"⟩ :=
    Source.includes_of_sole hpace hdelay
  obtain ⟨-, hlocated⟩ := include_cycle_is_refused hopens hname
  obtain ⟨hrecoils, hcircular⟩ := hlocated ⟨"/home/engine.yaml"⟩
    (List.mem_cons_of_mem _ List.mem_cons_self) (by decide +kernel)
  exact ⟨hopens, hname, isPlaced_perpetuum, hrecoils isPlaced_perpetuum,
    hcircular ⟨by decide +kernel, by decide +kernel⟩ (by decide +kernel) (by decide +kernel)⟩

end Recital.Settings

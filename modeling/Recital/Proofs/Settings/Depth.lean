import Recital.Proofs.Files.Route
import Recital.Settings.Load
import Mathlib.Data.Fintype.BigOperators
import Mathlib.Data.Fintype.Card
import Mathlib.Data.Fintype.Option

/-!
# How deep settings nest

Expansion has fuel for as many files as there are paths that can be followed, and one more.  A file
that is being expanded is not read again, so the files that are being expanded at one time are named
by different paths, none of them too long (`IsOpen`), and there are never more of them than that
(`IsOpen.length_le`).  So the fuel is never used up, and more of it makes no difference
(`alike_of_le`): two expansions with enough fuel do the same, and none of them leaves a file being
expanded that was not so before (`Alike`).
-/

namespace Recital

namespace Path

/-- The components are those of a path that is not too long to be followed. -/
def IsShort (components : List Component) : Prop :=
  ∃ p : Path, p.components = components ∧ p.text.utf8ByteSize ≤ FileTree.pathLimit

/-- The bytes of a text by their places. -/
def placed (p : Path) (i : Fin FileTree.pathLimit) : Option (Fin UInt8.size) :=
  p.text.toByteArray.data[i.val]?.map UInt8.toFin

/-- Texts that are not too long differ in a byte. -/
lemma eq_of_placed {p q : Path} (hp : p.text.utf8ByteSize ≤ FileTree.pathLimit)
    (hq : q.text.utf8ByteSize ≤ FileTree.pathLimit) (h : p.placed = q.placed) : p = q := by
  obtain ⟨text⟩ := p
  obtain ⟨text'⟩ := q
  have hbytes : text.toByteArray.data = text'.toByteArray.data := by
    refine Array.ext_getElem? fun i => ?_
    by_cases hi : i < FileTree.pathLimit
    · exact Option.map_injective (fun _ _ hx => UInt8.toFin_inj.mp hx) (congrFun h ⟨i, hi⟩)
    · have hsize : ∀ s : String, s.utf8ByteSize ≤ FileTree.pathLimit →
          s.toByteArray.data[i]? = none := fun s hs =>
        Array.getElem?_eq_none (Nat.le_trans hs (Nat.le_of_not_lt hi))
      rw [hsize _ hp, hsize _ hq]
  rw [Path.mk.injEq]
  exact String.toByteArray_inj.mp (ByteArray.ext hbytes)

end Path

namespace Settings

open Recital.Path

/-- The files that are being expanded have different paths, none of them too long. -/
structure IsOpen (active : Active) : Prop where
  nodup : active.Nodup
  short : ∀ components ∈ active, IsShort components

/-- So many texts have a byte or none at each of the places. -/
lemma card_placed (limit : Nat) :
    Fintype.card (Fin limit → Option (Fin UInt8.size)) = Nat.pow (UInt8.size + 1) limit := by
  rw [Fintype.card_fun, Fintype.card_option, Fintype.card_fin, Fintype.card_fin]
  rfl

/-- There are not more of them than paths that can be followed. -/
lemma IsOpen.length_le {active : Active} (hopen : IsOpen active) : active.length ≤ pathCount := by
  choose! path hpath using hopen.short
  have hinjective : ∀ x ∈ active, ∀ y ∈ active, (path x).placed = (path y).placed → x = y := by
    intro x hx y hy heq
    obtain ⟨hxc, hxs⟩ := hpath x hx
    obtain ⟨hyc, hys⟩ := hpath y hy
    rw [← hxc, ← hyc, eq_of_placed hxs hys heq]
  have hcard := (hopen.nodup.map_on hinjective).length_le_card
  rw [List.length_map, card_placed] at hcard
  unfold pathCount
  exact hcard

/-! ### Steps that are taken alike -/

/-- Two steps do the same when the given files are being expanded, and the same files are being
expanded afterwards. -/
structure Alike {α : Type} (active : Active) (step other : Loading α) : Prop where
  result : step.run.run active = other.run.run active
  active : (step.run.run active).2 = active

variable {α β : Type} {active : Active} {step other : Loading α}

lemma Alike.pure (active : Active) (a : α) : Alike active (Pure.pure a) (Pure.pure a) := ⟨rfl, rfl⟩

lemma Alike.throw (active : Active) (e : Error) :
    Alike active (MonadExcept.throw e : Loading α) (MonadExcept.throw e) := ⟨rfl, rfl⟩

/-- A step is followed by the next one unless it fails. -/
lemma run_bind (step : Loading α) (next : α → Loading β) (active : Active) :
    (step >>= next).run.run active = match step.run.run active with
      | (.ok a, active) => (next a).run.run active
      | (.error e, active) => (.error e, active) := by
  obtain ⟨r, hr⟩ : ∃ r, r = step.run.run active := ⟨_, rfl⟩
  change (ExceptT.bindCont next (step.run.run active).1).run (step.run.run active).2 = _
  rw [← hr]
  obtain ⟨a | e, after⟩ := r <;> rfl

lemma Alike.bind {next after : α → Loading β} (h : Alike active step other)
    (hnext : ∀ a, Alike active (next a) (after a)) :
    Alike active (step >>= next) (other >>= after) := by
  obtain ⟨hresult, hactive⟩ := h
  have hrun := run_bind step next active
  have hother := run_bind other after active
  rw [← hresult] at hother
  generalize step.run.run active = r at hactive hrun hother
  obtain ⟨a | a, s⟩ := r
  · cases hactive
    exact ⟨hrun.trans hother.symm, by rw [hrun]⟩
  · cases hactive
    obtain ⟨hsame, hkept⟩ := hnext a
    exact ⟨hrun.trans (hsame.trans hother.symm), by rw [hrun]; exact hkept⟩

variable {includes others : Yaml → Loading Yaml} {env : Table String}

lemma alike_variableValue (y : Yaml) :
    Alike active (variableValue env y) (variableValue env y) := by
  refine ⟨rfl, ?_⟩
  unfold variableValue
  split
  · dsimp only
    split <;> rfl
  · rfl

lemma alike_includeFrom {load other : Path → Loading Yaml}
    (h : ∀ path, Alike active (load path) (other path)) {base file : Path} (y : Yaml) :
    Alike active (includeFrom load base file y) (includeFrom other base file y) := by
  have hname : Alike active (includeName y) (includeName y) := by
    refine ⟨rfl, ?_⟩
    unfold includeName
    split <;> rfl
  exact hname.bind fun name => h _

mutual

/-- Values are expanded alike when what they include is. -/
lemma alike_expand (h : ∀ y, Alike active (includes y) (others y)) :
    (y : Yaml) → Alike active (expand includes env y) (expand others env y)
  | .tagged tag y => by
    rw [expand, expand]
    split
    · exact h y
    · split
      · exact alike_variableValue y
      · exact (alike_expand h y).bind fun _ => .pure _ _
  | .seq items => by
    rw [expand, expand]
    exact (alike_expandItems h items).bind fun _ => .pure _ _
  | .map entries => by
    rw [expand, expand]
    exact (alike_expandEntries h entries).bind fun _ => .pure _ _
  | .null | .bool _ | .int _ | .real _ | .str _ => .pure _ _

lemma alike_expandItems (h : ∀ y, Alike active (includes y) (others y)) :
    (ys : List Yaml) → Alike active (expandItems includes env ys) (expandItems others env ys)
  | [] => .pure _ _
  | y :: ys => by
    rw [expandItems, expandItems]
    exact (alike_expand h y).bind fun _ => (alike_expandItems h ys).bind fun _ => .pure _ _

lemma alike_expandEntries (h : ∀ y, Alike active (includes y) (others y)) :
    (entries : List (Yaml × Yaml)) →
      Alike active (expandEntries includes env entries) (expandEntries others env entries)
  | [] => .pure _ _
  | (k, y) :: entries => by
    rw [expandEntries, expandEntries]
    exact (alike_expand h y).bind fun _ => (alike_expandEntries h entries).bind fun _ => .pure _ _

end

lemma alike_expandText (h : ∀ y, Alike active (includes y) (others y)) (file : Path)
    (text : String) :
    Alike active (expandText includes env file text) (expandText others env file text) := by
  unfold expandText
  split
  · exact alike_expand h _
  · exact .throw _ _

/-! ### Fuel -/

/-- What is done while a file is being expanded. -/
lemma alike_visit {components : List Component} {step other : Loading Yaml}
    (h : Alike (components :: active) step other) :
    Alike active
      (do
        modify (components :: ·)
        let result ← observe step
        modify (·.erase components)
        ExceptT.mk (return result))
      (do
        modify (components :: ·)
        let result ← observe other
        modify (·.erase components)
        ExceptT.mk (return result)) := by
  have hrun : ∀ visit : Loading Yaml,
      (do
        modify (components :: ·)
        let result ← observe visit
        modify (·.erase components)
        ExceptT.mk (return result) : Loading Yaml).run.run active =
      ((visit.run.run (components :: active)).1,
        (visit.run.run (components :: active)).2.erase components) := fun _ => rfl
  refine ⟨?_, ?_⟩
  · rw [hrun, hrun, h.result]
  · rw [hrun, h.active]
    exact List.erase_cons_head _ _

/-- A file that can be read is being expanded, too, if it is not so already. -/
lemma IsOpen.cons (hopen : IsOpen active) {tree : FileTree} {cwd : Location} {p : Path}
    {text : String} (hnew : active.contains p.components = false)
    (hread : tree.readPath cwd p = .ok text) : IsOpen (p.components :: active) where
  nodup := List.nodup_cons.mpr ⟨by simpa using hnew, hopen.nodup⟩
  short := List.forall_mem_cons.mpr ⟨⟨p, rfl, FileTree.utf8ByteSize_le_of_readPath hread⟩,
    hopen.short⟩

/-- A file that is being expanded is refused. -/
lemma alike_get {components : List Component} {e : Error} {step other : Loading Yaml}
    (h : active.contains components = false → Alike active step other) :
    Alike active
      (do
        if (← get).contains components then throw e
        step)
      (do
        if (← get).contains components then throw e
        other) := by
  have hrun : ∀ visit : Loading Yaml,
      (do
        if (← get).contains components then throw e
        visit : Loading Yaml).run.run active =
      if active.contains components then (.error e, active) else visit.run.run active := by
    intro visit
    change (if active.contains components then throw e >>= fun (_ : PUnit) => visit
      else visit : Loading Yaml).run.run active = _
    split <;> rfl
  cases hcontains : active.contains components with
  | true => exact ⟨by rw [hrun, hrun, hcontains]; rfl, by rw [hrun, hcontains]; rfl⟩
  | false =>
    obtain ⟨hresult, hactive⟩ := h hcontains
    refine ⟨?_, ?_⟩
    · rw [hrun, hrun, hcontains]
      exact hresult
    · rw [hrun, hcontains]
      exact hactive

/-- The fuel does not matter where there is enough of it. -/
lemma alike_expandFile {source : Source} {fuel more : Nat} {path : Path} (hopen : IsOpen active)
    (hfuel : pathCount < fuel + active.length) (hmore : pathCount < more + active.length) :
    Alike active (expandFile source fuel path) (expandFile source more path) := by
  have hlength := hopen.length_le
  induction fuel generalizing more active path with
  | zero => omega
  | succ fuel ih =>
    cases more with
    | zero => omega
    | succ more =>
      rw [expandFile, expandFile]
      dsimp only
      refine alike_get fun hnew => ?_
      split
      · exact .throw _ _
      · next text hread =>
        have hopen' : IsOpen ((source.base.join path).components :: active) :=
          hopen.cons hnew hread
        refine alike_visit (alike_expandText (alike_includeFrom fun name => ?_) _ _)
        refine ih hopen' ?_ ?_ hopen'.length_le
        · rw [List.length_cons]
          omega
        · rw [List.length_cons]
          omega

/-- More fuel than is given makes no difference. -/
lemma alike_of_le (source : Source) {fuel : Nat} (hfuel : nestingBound ≤ fuel) (path : Path) :
    Alike [] (expandFile source nestingBound path) (expandFile source fuel path) := by
  have hopen : IsOpen [] := ⟨List.nodup_nil, fun _ h => absurd h List.not_mem_nil⟩
  have hbound : pathCount < nestingBound := by
    unfold nestingBound
    exact Nat.lt_add_one _
  refine alike_expandFile hopen ?_ ?_
  · rw [List.length_nil]
    exact hbound
  · rw [List.length_nil]
    exact Nat.lt_of_lt_of_le hbound hfuel

end Settings

end Recital

import Recital.Proofs.Json.Normal

/-!
# What is read can be written

The numbers that the reader makes are of the kind that can be written again, and a value that is
taken from a draft nests no more deeply than was asked for (`Json.fits_of_value?`).
-/

namespace Recital.Json

/-! ### Numbers that are read -/

lemma isProper_of_realNumber {negative : Bool} {d : Nat} {e : Int} {n : Number}
    (h : realNumber negative d e = some n) : n.IsProper := by
  unfold realNumber at h
  dsimp only at h
  split at h
  · next hfinite =>
    rw [← Option.some.inj h]
    exact hfinite
  · cases h

lemma isProper_of_integerNumber {negative : Bool} {m : Nat} {n : Number}
    (h : integerNumber negative m = some n) : n.IsProper := by
  have hpow : Nat.pow 2 63 = 9223372036854775808 ∧ Nat.pow 2 64 = 18446744073709551616 :=
    ⟨rfl, rfl⟩
  unfold integerNumber at h
  split at h
  · split at h
    · exact isProper_of_realNumber h
    · next hword =>
      rw [← Option.some.inj h]
      change -2 ^ 63 ≤ -(m : Int) ∧ -(m : Int) < 2 ^ 64
      omega
  · split at h
    · next hword =>
      rw [← Option.some.inj h]
      change -2 ^ 63 ≤ (m : Int) ∧ (m : Int) < 2 ^ 64
      omega
    · exact isProper_of_realNumber h

lemma isProper_of_readNumber {cs rest : List Char} {n : Number}
    (h : readNumber cs = some (some n, rest)) : n.IsProper := by
  unfold readNumber at h
  split at h
  next negative digits heq =>
  simp only [Option.bind_eq_bind, Option.bind_eq_some_iff] at h
  obtain ⟨⟨whole, cs⟩, -, ⟨fraction, cs⟩, -, ⟨exponent, cs⟩, -, hnumber⟩ := h
  have hsome := (Prod.mk.inj (Option.some.inj hnumber)).1
  split at hsome
  · exact isProper_of_integerNumber hsome
  · exact isProper_of_realNumber hsome

/-! ### Drafts that are read -/

/-- The numbers of the draft can be written. -/
inductive Draft.IsProper : Draft → Prop
  | null : IsProper .null
  | bool {b : Bool} : IsProper (.bool b)
  | num {value : Option Number} (h : ∀ n, value = some n → n.IsProper) : IsProper (.num value)
  | str {value : Option String} : IsProper (.str value)
  | arr {items : List Draft} (h : ∀ d ∈ items, IsProper d) : IsProper (.arr items)
  | obj {fields : List (Option String × Draft)} (h : ∀ e ∈ fields, IsProper e.2) :
    IsProper (.obj fields)

/-- With the given fuel all that is read is proper, given that what is held is. -/
structure ReadsProper (fuel : Nat) : Prop where
  value : ∀ cs d rest, readValue fuel cs = some (d, rest) → d.IsProper
  items : ∀ held cs d rest, (∀ x ∈ held, Draft.IsProper x) →
    readItems fuel held cs = some (d, rest) → d.IsProper
  fields : ∀ held cs d rest, (∀ e ∈ held, Draft.IsProper e.2) →
    readFields fuel held cs = some (d, rest) → d.IsProper

lemma readsProper (fuel : Nat) : ReadsProper fuel := by
  induction fuel with
  | zero =>
    refine ⟨fun _ _ _ h => ?_, fun _ _ _ _ _ h => ?_, fun _ _ _ _ _ h => ?_⟩ <;> cases h
  | succ fuel ih =>
    refine ⟨fun cs d rest h => ?_, fun held cs d rest hheld h => ?_,
      fun held cs d rest hheld h => ?_⟩
    · rw [readValue] at h
      split at h
      · cases h
      · obtain ⟨r, -, heq⟩ := Option.map_eq_some_iff.mp h
        cases heq
        exact .str
      · split at h
        · cases h
          exact .arr fun _ hx => absurd hx List.not_mem_nil
        · exact ih.items _ _ _ _ (fun _ hx => absurd hx List.not_mem_nil) h
      · split at h
        · cases h
          exact .obj fun _ hx => absurd hx List.not_mem_nil
        · exact ih.fields _ _ _ _ (fun _ hx => absurd hx List.not_mem_nil) h
      · obtain ⟨r, -, heq⟩ := Option.map_eq_some_iff.mp h
        cases heq
        exact .null
      · obtain ⟨r, -, heq⟩ := Option.map_eq_some_iff.mp h
        cases heq
        exact .bool
      · obtain ⟨r, -, heq⟩ := Option.map_eq_some_iff.mp h
        cases heq
        exact .bool
      · obtain ⟨⟨n, r⟩, hread, heq⟩ := Option.map_eq_some_iff.mp h
        cases heq
        refine .num fun m hm => ?_
        rw [hm] at hread
        exact isProper_of_readNumber hread
    · rw [readItems] at h
      simp only [Option.bind_eq_bind, Option.bind_eq_some_iff] at h
      obtain ⟨⟨x, behind⟩, hvalue, hnext⟩ := h
      have hall : ∀ y ∈ x :: held, Draft.IsProper y :=
        List.forall_mem_cons.mpr ⟨ih.value _ _ _ hvalue, hheld⟩
      dsimp only at hnext
      split at hnext
      · exact ih.items _ _ _ _ hall hnext
      · cases hnext
        exact .arr fun y hy => hall y (List.mem_reverse.mp hy)
      · cases hnext
    · rw [readFields] at h
      simp only [Option.bind_eq_bind, Option.bind_eq_some_iff] at h
      obtain ⟨opened, -, ⟨k, named⟩, -, valued, -, ⟨x, behind⟩, hvalue, hnext⟩ := h
      have hall : ∀ e ∈ (k, x) :: held, Draft.IsProper e.2 :=
        List.forall_mem_cons.mpr ⟨ih.value _ _ _ hvalue, hheld⟩
      dsimp only at hnext
      split at hnext
      · exact ih.fields _ _ _ _ hall hnext
      · cases hnext
        exact .obj fun e he => hall e (List.mem_reverse.mp he)
      · cases hnext

lemma isProper_of_draft? {s : String} {d : Draft} (h : draft? s = some d) : d.IsProper := by
  unfold draft? at h
  simp only [Option.bind_eq_bind, Option.bind_eq_some_iff] at h
  obtain ⟨⟨x, rest⟩, hvalue, hend⟩ := h
  split at hend
  · cases hend
    exact (readsProper _).value _ _ _ hvalue
  · cases hend

/-! ### Values that are taken from drafts -/

open Draft

/-- Some value of the list that was drafted was taken from the draft. -/
lemma mem_of_items? {ds : List Draft} {interest : Interest} {n depth : Nat} {js : List Json}
    {j : Json}
    (h : items? ds interest n depth = some js) (hj : j ∈ js) :
    ∃ d ∈ ds, ∃ part, value? d part depth = some j := by
  induction ds generalizing n js with
  | nil =>
    cases h
    cases hj
  | cons d ds ih =>
    rw [items?] at h
    simp only [Option.bind_eq_bind, Option.bind_eq_some_iff] at h
    obtain ⟨x, hx, xs, hxs, heq⟩ := h
    cases heq
    rcases List.mem_cons.mp hj with rfl | hj
    · exact ⟨d, List.mem_cons_self, _, hx⟩
    · obtain ⟨d', hd', hpart⟩ := ih hxs hj
      exact ⟨d', .tail _ hd', hpart⟩

lemma mem_of_fields? {ds : List (Option String × Draft)} {interest : Interest} {depth : Nat}
    {js : List (String × Json)} {e : String × Json} (h : fields? ds interest depth = some js)
    (he : e ∈ js) : ∃ d ∈ ds, ∃ part, value? d.2 part depth = some e.2 := by
  induction ds generalizing js with
  | nil =>
    cases h
    cases he
  | cons d ds ih =>
    obtain ⟨key, d⟩ := d
    cases key with
    | none => cases h
    | some key =>
      rw [fields?] at h
      split at h
      · obtain ⟨d', hd', hpart⟩ := ih h he
        exact ⟨d', .tail _ hd', hpart⟩
      · simp only [Option.bind_eq_bind, Option.bind_eq_some_iff] at h
        obtain ⟨x, hx, xs, hxs, heq⟩ := h
        cases heq
        rcases List.mem_cons.mp he with rfl | he
        · exact ⟨_, List.mem_cons_self, _, hx⟩
        · obtain ⟨d', hd', hpart⟩ := ih hxs he
          exact ⟨d', .tail _ hd', hpart⟩

/-- A value that is taken from a draft nests as deeply as was asked for. -/
lemma fits_of_value? {d : Draft} {interest : Interest} {depth : Nat} {j : Json} (hd : d.IsProper)
    (h : value? d interest depth = some j) : Fits depth j := by
  induction hd generalizing interest depth j with
  | null =>
    cases h
    exact .null
  | bool =>
    cases h
    exact .bool
  | num hn =>
    obtain ⟨n, hsome, rfl⟩ := Option.map_eq_some_iff.mp h
    exact .num (hn n hsome)
  | str =>
    obtain ⟨s, -, rfl⟩ := Option.map_eq_some_iff.mp h
    exact .str
  | arr _ ih =>
    cases depth with
    | zero => cases h
    | succ depth =>
      obtain ⟨js, hjs, rfl⟩ := Option.map_eq_some_iff.mp h
      refine .arr fun x hx => ?_
      obtain ⟨d, hd, part, hvalue⟩ := mem_of_items? hjs hx
      exact ih d hd hvalue
  | obj _ ih =>
    cases depth with
    | zero => cases h
    | succ depth =>
      obtain ⟨js, hjs, rfl⟩ := Option.map_eq_some_iff.mp h
      refine .obj fun x hx => ?_
      obtain ⟨d, hd, part, hvalue⟩ := mem_of_fields? hjs hx
      exact ih d hd hvalue

/-- What is read from a text can be written. -/
theorem fits_of_readFor? {interest : Interest} {s : String} {j : Json}
    (h : readFor? interest s = some j) : Fits depthLimit j := by
  obtain ⟨d, hd, hvalue⟩ := Option.bind_eq_some_iff.mp h
  exact fits_of_value? (isProper_of_draft? hd) hvalue

/-- A value that can be read from a text. -/
structure IsReadable (j : Json) : Prop where
  normal : j.IsNormal
  fits : j.Fits depthLimit

lemma isReadable_of_parse? {s : String} {j : Json} (h : parse? s = some j) : j.IsReadable := by
  obtain ⟨x, hx, rfl⟩ := Option.map_eq_some_iff.mp h
  exact ⟨isNormal_normalize x, (fits_of_readFor? hx).normalize⟩

/-- Which value is read can be told from how it is printed. -/
lemma parse?_of_spread {s : String} {j : Json} (hj : j.Fits depthLimit)
    (h : (parse? s).map spread = some j.spread) : parse? s = some j := by
  obtain ⟨k, hk, hspread⟩ := Option.map_eq_some_iff.mp h
  rw [hk, eq_of_spread (isReadable_of_parse? hk).fits hj hspread]

end Recital.Json

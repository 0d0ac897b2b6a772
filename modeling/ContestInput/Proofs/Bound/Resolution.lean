import ContestInput.Proofs.Bound.Extract
import ContestInput.Proofs.Faults
/-!
# Symbols and the clauses that bound them

A size refers to the constant of its symbol, and a clause declares the constant of its identifier.
Both have the same name exactly if symbol and identifier have the same upper case, so a definition
can be declared exactly if the description bounds each of its symbols, in whatever case.
-/

namespace ContestInput

open Fallible

/-- The end that all names of constants share makes no two of them equal. -/
theorem constantName_eq_iff {s t : String} :
    constantName s = constantName t ↔ Text.upper s.toList = Text.upper t.toList := by
  rw [← String.toList_inj]
  simp only [constantName, String.toList_append, String.toList_ofList, List.append_left_inj]

/-- The sizes are equal, or symbols with the same upper case. -/
inductive Size.SameUpper : Size → Size → Prop where
  | literal (value : UInt64) : SameUpper (.literal value) (.literal value)
  | symbol {s t : String} : Text.upper s.toList = Text.upper t.toList →
      SameUpper (.symbol s) (.symbol t)

theorem Size.map_count_eq_of_sameUpper {sizes sizes' : List Size}
    (h : List.Forall₂ SameUpper sizes sizes') : sizes'.map count = sizes.map count := by
  induction h with
  | nil => rfl
  | cons hsize _ ih =>
    rw [List.map_cons, List.map_cons, ih]
    cases hsize with
    | literal value => rfl
    | symbol hupper => rw [count, count, constantName_eq_iff.2 hupper]

namespace Bound

/-- The description has a clause on an identifier with the same upper case as the symbol. -/
def Bounds (description symbol : String) : Prop :=
  ∃ t spans, Prepared description t ∧ Reading t 0 spans ∧
    ∃ span ∈ spans, Text.upper span.found.clause.identifier = Text.upper symbol.toList

variable {description : String} {constants : List Constant}

theorem bounds_iff {symbol : String} : Bounds description symbol ↔
    ∃ c ∈ clauses (normalize description),
      Text.upper c.identifier = Text.upper symbol.toList := by
  constructor
  · rintro ⟨t, spans, ht, hr, span, hspan, hupper⟩
    obtain rfl := prepared_iff.1 ht
    rw [clauses_eq_iff.2 ⟨spans, hr, rfl⟩]
    exact ⟨_, List.mem_map_of_mem hspan, hupper⟩
  · rintro ⟨c, hc, hupper⟩
    obtain ⟨spans, hr, hspans⟩ := clauses_eq_iff.1 (rfl : clauses (normalize description) = _)
    rw [← hspans] at hc
    obtain ⟨span, hspan, rfl⟩ := List.mem_map.1 hc
    exact ⟨_, spans, prepared_iff.2 rfl, hr, span, hspan, hupper⟩

theorem names_of_extract (h : extract description = .ok constants) :
    constants.map (·.name) =
      (clauses (normalize description)).map fun c => constantName (String.ofList c.identifier) := by
  rw [extract, mapM_constant_eq_iff, Extraction] at h
  generalize clauses (normalize description) = cs at h ⊢
  induction h with
  | nil => rfl
  | cons hdeclares _ ih =>
    rw [List.map_cons, List.map_cons, ih, hdeclares.name, constantName_ofList]

theorem constantName_mem_iff_bounds (h : extract description = .ok constants) {symbol : String} :
    constantName symbol ∈ constants.map (·.name) ↔ Bounds description symbol := by
  rw [names_of_extract h, List.mem_map, bounds_iff]
  simp only [constantName_eq_iff, String.toList_ofList]

end Bound

private theorem Program.declarationsOf_singleton {constants : List Constant} {d : Definition} :
    declarationsOf constants [d] = d.declarations constants := by
  rw [declarationsOf, List.mapM_cons, List.mapM_nil]
  cases d.declarations constants with
  | error fault => rfl
  | ok lines =>
    change Except.ok ([lines].flatten) = _
    rw [List.flatten_singleton]

namespace Definition

open Program

variable {constants : List Constant} {d : Definition} {f : Form} {fault : Fault}

theorem exists_declarations_iff_of_form (hform : d.form = .ok f) :
    (∃ lines, d.declarations constants = .ok lines) ↔
      ∀ s, .symbol s ∈ d.sizes → constantName s ∈ constants.map (·.name) := by
  simp only [declarations_eq_ok_iff, Constant.declares_eq_decide, decide_eq_true_eq]
  constructor
  · rintro ⟨lines, -, -, -, hdeclared⟩
    exact hdeclared
  · intro hdeclared
    exact ⟨_, f, hform, rfl, hdeclared⟩

theorem declarations_eq_error_iff_of_form (hform : d.form = .ok f) :
    d.declarations constants = .error fault ↔
      d.sizes.mapM (Size.resolve constants) = .error fault := by
  rw [declarations, hform]
  exact bind_pure_eq_error_iff

/-- The lines of a definition mention its symbols in upper case only. -/
theorem declarations_of_sameUpper {sizes : List Size} {lines : List Declaration}
    (hsizes : List.Forall₂ Size.SameUpper d.sizes sizes)
    (h : d.declarations constants = .ok lines) :
    { d with sizes := sizes }.declarations constants = .ok lines := by
  obtain ⟨f, hform, rfl, hdeclared⟩ := declarations_eq_ok_iff.1 h
  obtain ⟨hvalid, hlayout, hitem⟩ := form_eq_ok_iff.1 hform
  have hform' : { d with sizes := sizes }.form = .ok f := by
    have harity : sizes.length = d.layout.arity := hsizes.length_eq.symm.trans hvalid.arity
    have hvalid' : { d with sizes := sizes }.IsValid :=
      ⟨hvalid.names_ne_nil, hvalid.oneName, hvalid.nodup, harity⟩
    exact form_eq_ok_iff.2 ⟨hvalid', hlayout, hitem⟩
  have hcounts := Size.map_count_eq_of_sameUpper hsizes
  refine declarations_eq_ok_iff.2 ⟨f, hform', by rw [hcounts], fun name hname => ?_⟩
  have hcount : Count.constant (constantName name) ∈ d.sizes.map Size.count :=
    hcounts ▸ List.mem_map_of_mem hname
  obtain ⟨size, hsize, heq⟩ := List.mem_map.1 hcount
  cases size with
  | literal value => exact absurd heq (by simp [Size.count])
  | symbol s =>
    rw [← Count.constant.inj heq]
    exact hdeclared s hsize

end Definition

/-- With the constants of a description, a definition that keeps its promises is declared exactly if
the description bounds each of its symbols, and else the first symbol that it does not bound is
told. The case of a symbol does not matter, not even for the lines. -/
theorem Bound.declarations_iff_bounds {description : String} {constants : List Constant}
    {d : Definition} (hextract : extract description = .ok constants) (hvalid : d.IsValid)
    (hholds : d.layout.holds d.item = true) :
    ((∃ lines, Program.declarationsOf constants [d] = .ok lines) ↔
      ∀ s, .symbol s ∈ d.sizes → Bounds description s) ∧
    (∀ fault, Program.declarationsOf constants [d] = .error fault ↔ ∃ before s after,
      d.sizes = before ++ .symbol s :: after ∧ (∀ r, .symbol r ∈ before → Bounds description r) ∧
        ¬ Bounds description s ∧ fault = .unresolvedSize s (constantName s)) ∧
    ∀ sizes lines, List.Forall₂ Size.SameUpper d.sizes sizes →
      Program.declarationsOf constants [d] = .ok lines →
        Program.declarationsOf constants [{ d with sizes := sizes }] = .ok lines := by
  have hform : d.form = .ok ⟨d.layout, d.item, hholds⟩ :=
    Definition.form_eq_ok_iff.2 ⟨hvalid, rfl, rfl⟩
  simp only [Program.declarationsOf_singleton]
  refine ⟨?_, fun fault => ?_, fun sizes lines => Definition.declarations_of_sameUpper⟩
  · simp only [Definition.exists_declarations_iff_of_form hform,
      constantName_mem_iff_bounds hextract]
  · simp only [Definition.declarations_eq_error_iff_of_form hform, Size.mapM_resolve_eq_error_iff,
      constantName_mem_iff_bounds hextract]

/-- A letter that is written with two capitals meets these two in the description. -/
theorem Bound.declarations_iff_bounds_two_capitals :
    let row (symbol : String) : Definition := ⟨.harray, .number, ["A"], [.symbol symbol]⟩
    extract "1 ≤ mass ≤ 9" = .ok [⟨"MASS_MAX", 9⟩] ∧ (∀ s, (row s).IsValid) ∧
      Layout.harray.holds .number = true ∧
      (∃ lines, Program.declarationsOf [⟨"MASS_MAX", 9⟩] [row "maß"] = .ok lines ∧
        Program.declarationsOf [⟨"MASS_MAX", 9⟩] [row "Mass"] = .ok lines) ∧
      Program.declarationsOf [⟨"MASS_MAX", 9⟩] [row "k"] =
        .error (.unresolvedSize "k" "K_MAX") := by
  intro row
  have hextract : extract "1 ≤ mass ≤ 9" = .ok [⟨"MASS_MAX", 9⟩] := by decide +kernel
  have hvalid (s : String) : (row s).IsValid := ⟨by simp [row], fun _ => rfl, by simp [row], rfl⟩
  refine ⟨hextract, hvalid, rfl, ?_, ?_⟩
  · obtain ⟨hdeclared, -, hrespelled⟩ := declarations_iff_bounds hextract (hvalid "maß") rfl
    have hmass : Bounds "1 ≤ mass ≤ 9" "maß" := bounds_iff.2 (by decide +kernel)
    obtain ⟨lines, hlines⟩ := hdeclared.2 fun s hs => by
      obtain rfl := Size.symbol.inj (List.mem_singleton.1 hs)
      exact hmass
    have hsizes : List.Forall₂ Size.SameUpper (row "maß").sizes [.symbol "Mass"] :=
      .cons (.symbol (by decide +kernel)) .nil
    exact ⟨lines, hlines, hrespelled _ lines hsizes hlines⟩
  · have hk : ¬ Bounds "1 ≤ mass ≤ 9" "k" := fun h => absurd (bounds_iff.1 h) (by decide +kernel)
    exact ((declarations_iff_bounds hextract (hvalid "k") rfl).2.1 _).2
      ⟨[], "k", [], rfl, by simp, hk, by decide +kernel⟩

end ContestInput

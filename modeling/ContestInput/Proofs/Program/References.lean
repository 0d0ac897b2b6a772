import ContestInput.Proofs.Program.Storage
import ContestInput.Proofs.Verdict
/-!
# Constants that declarations refer to

A declaration refers to the constants in its dimensions. Those of sizes are always declared, so
what may be missing are the widths of strings. A check of a program that can be written warns of
the references to constants that are not declared, and of nothing else.
-/

namespace ContestInput

open Fallible

theorem Constant.declares_eq_decide (constants : List Constant) (name : String) :
    declares constants name = decide (name ∈ constants.map (·.name)) := by
  rw [declares, Bool.eq_iff_iff, List.any_eq_true, decide_eq_true_eq, List.mem_map]
  simp only [decide_eq_true_eq]

namespace Program

def Count.constant? : Count → Option String
  | .literal _ => none
  | .constant name => some name

/-- The constants in the dimensions of a line, each with the variable that has the dimension. -/
def Declaration.references (line : Declaration) : List (String × String) :=
  line.declared.flatMap fun v =>
    ((v.extents.map (·.count)).filterMap Count.constant?).map (v.name, ·)

/-- The references of lines to constants that are not declared. -/
def undeclared (constants : List Constant) (lines : List Declaration) : List (String × String) :=
  (lines.flatMap Declaration.references).filter fun ref => ref.2 ∉ constants.map (·.name)

theorem mem_undeclared_iff {constants : List Constant} {lines : List Declaration}
    {ref : String × String} : ref ∈ undeclared constants lines ↔
      (∃ line ∈ lines, ref ∈ line.references) ∧ ref.2 ∉ constants.map (·.name) := by
  rw [undeclared, List.mem_filter, List.mem_flatMap, decide_eq_true_eq]

end Program

open Program

namespace Form

private theorem flatMap_references (f : Form) (counts : List Count) (names : List String) :
    (f.declarations counts names).flatMap Declaration.references = names.flatMap fun v =>
      ((counts ++ if f.item = Item.string then [Count.constant (constantName v)] else []).filterMap
        Count.constant?).map (v, ·) := by
  have hdeclared : (f.declarations counts names).flatMap Declaration.references =
      ((f.declarations counts names).flatMap (·.declared)).flatMap fun v =>
        ((v.extents.map (·.count)).filterMap Count.constant?).map (v.name, ·) := by
    rw [List.flatMap_assoc]
    rfl
  rw [hdeclared, flatMap_declared, List.flatMap_map]
  simp only [map_count_extents]

end Form

namespace Definition

variable {constants : List Constant} {d : Definition} {lines : List Declaration}

private theorem filter_references_sizes (h : ∀ name, .symbol name ∈ d.sizes →
      Constant.declares constants (constantName name) = true) (v : String) :
    ((((d.sizes.map Size.count).filterMap Count.constant?).map (v, ·)).filter
      fun ref => ref.2 ∉ constants.map (·.name)) = [] := by
  rw [List.filter_eq_nil_iff]
  intro ref href
  obtain ⟨name, hname, rfl⟩ := List.mem_map.1 href
  obtain ⟨c, hc, hconstant⟩ := List.mem_filterMap.1 hname
  obtain ⟨size, hsize, rfl⟩ := List.mem_map.1 hc
  cases size with
  | literal value => exact absurd hconstant (by simp [Size.count, Count.constant?])
  | symbol s =>
    obtain rfl : constantName s = name := Option.some.inj hconstant
    have hdeclared := h s hsize
    rw [Constant.declares_eq_decide, decide_eq_true_eq] at hdeclared
    simpa using hdeclared

/-- The widths that are missing are the constants that the lines refer to and no line declares. -/
theorem missingWidths_eq_undeclared (h : d.declarations constants = .ok lines) :
    d.missingWidths constants =
      (undeclared constants lines).map fun ref => .unresolvedWidth ref.1 ref.2 := by
  obtain ⟨f, hform, rfl, hdeclared⟩ := declarations_eq_ok_iff.1 h
  have hitem := (form_eq_ok_iff.1 hform).2.2
  rw [undeclared, Form.flatMap_references, hitem, List.filter_flatMap]
  simp only [List.filterMap_append, List.map_append, List.filter_append,
    filter_references_sizes hdeclared, List.nil_append]
  rw [missingWidths]
  cases d.item with
  | number => simp
  | char => simp
  | string =>
    have hmissing : (fun name => !Constant.declares constants (constantName name)) =
        (fun ref => decide (ref.2 ∉ constants.map (·.name))) ∘ fun v => (v, constantName v) := by
      funext name
      rw [Function.comp_apply, decide_not, Constant.declares_eq_decide]
    simp only [if_pos, List.filterMap_cons, Count.constant?, List.filterMap_nil, List.map_cons,
      List.map_nil]
    rw [← List.filter_flatMap, ← List.map_eq_flatMap, List.filter_map, List.map_map, hmissing]
    rfl

end Definition

namespace Program

variable {extractor : Extractor} {ds : List Definition} {description text : String}
  {constants : List Constant} {p : Program}

theorem ofDefinitions_eq_ok_iff :
    ofDefinitions constants ds = .ok p ↔ p.constants = constants ∧
      declarationsOf constants ds = .ok p.declarations ∧ readStatementsOf ds = .ok p.reads := by
  rw [ofDefinitions, bind_eq_ok_iff]
  constructor
  · rintro ⟨lines, hlines, h⟩
    obtain ⟨reads, hreads, h⟩ := bind_eq_ok_iff.1 h
    obtain rfl := pure_eq_ok_iff.1 h
    exact ⟨rfl, hlines, hreads⟩
  · rintro ⟨rfl, hlines, hreads⟩
    exact ⟨p.declarations, hlines, bind_eq_ok_iff.2 ⟨p.reads, hreads, rfl⟩⟩

theorem exists_groups_of_ofDefinitions (h : ofDefinitions constants ds = .ok p) :
    ∃ groups, p.declarations = groups.flatten ∧
      List.Forall₂ (fun d lines => d.declarations p.constants = .ok lines) ds groups := by
  obtain ⟨rfl, hdeclarations, -⟩ := ofDefinitions_eq_ok_iff.1 h
  obtain ⟨groups, hgroups, hflatten⟩ := bind_eq_ok_iff.1 hdeclarations
  exact ⟨groups, (pure_eq_ok_iff.1 hflatten).symm, mapM_eq_ok_iff.1 hgroups⟩

theorem exists_groups_of_generate (h : generate extractor ds description = .ok text) :
    ∃ (p : Program) (groups : List (List Declaration)), extractor description = .ok p.constants ∧
      ofDefinitions p.constants ds = .ok p ∧ text = p.text ∧ p.declarations = groups.flatten ∧
      List.Forall₂ (fun d lines => d.declarations p.constants = .ok lines) ds groups := by
  obtain ⟨constants, hconstants, h⟩ := bind_eq_ok_iff.1 h
  obtain ⟨p, hp, htext⟩ := bind_eq_ok_iff.1 h
  obtain rfl := (ofDefinitions_eq_ok_iff.1 hp).1
  obtain ⟨groups, hflatten, hgroups⟩ := exists_groups_of_ofDefinitions hp
  exact ⟨p, groups, hconstants, hp, (pure_eq_ok_iff.1 htext).symm, hflatten, hgroups⟩

end Program

namespace Report

variable {constants : List Constant} {ds : List Definition} {groups : List (List Declaration)}

/-- The warning of a reference in the lines of the definition at a position. -/
def warning (index : Nat) (ref : String × String) : Diagnostic :=
  ⟨.warning, some index, .unresolvedWidth ref.1 ref.2⟩

private theorem mapIdx_congr {α β γ : Type} {R : α → β → Prop} {f : Nat → α → γ} {g : Nat → β → γ}
    {as : List α} {bs : List β} (h : List.Forall₂ R as bs)
    (hitem : ∀ k a b, R a b → f k a = g k b) : as.mapIdx f = bs.mapIdx g := by
  induction h generalizing f g with
  | nil => rfl
  | @cons a b as bs hab _ ih =>
    rw [List.mapIdx_cons, List.mapIdx_cons, hitem 0 a b hab, ih fun k => hitem (k + 1)]

theorem ofDefinitions_eq_warnings (h : List.Forall₂ (fun d lines =>
      d.declarations constants = .ok lines) ds groups) : ofDefinitions constants ds =
    (groups.mapIdx fun k lines => (undeclared constants lines).map (warning k)).flatten := by
  refine congrArg List.flatten (mapIdx_congr h fun k d lines hd => ?_)
  rw [Definition.findings_of_declarations_ok hd, Definition.missingWidths_eq_undeclared hd,
    List.map_map]
  rfl

theorem mem_warnings_iff {diagnostic : Diagnostic} : diagnostic ∈ (groups.mapIdx fun k lines =>
      (undeclared constants lines).map (warning k)).flatten ↔
    ∃ k lines ref, groups[k]? = some lines ∧ diagnostic = warning k ref ∧
      (∃ line ∈ lines, ref ∈ line.references) ∧ ref.2 ∉ constants.map (·.name) := by
  rw [List.mem_flatten]
  constructor
  · rintro ⟨warnings, hwarnings, hmem⟩
    obtain ⟨k, hk, rfl⟩ := List.mem_mapIdx.1 hwarnings
    obtain ⟨ref, href, rfl⟩ := List.mem_map.1 hmem
    exact ⟨k, groups[k], ref, List.getElem?_eq_getElem hk, rfl, mem_undeclared_iff.1 href⟩
  · rintro ⟨k, lines, ref, hk, rfl, href⟩
    obtain ⟨hlt, rfl⟩ := List.getElem?_eq_some_iff.1 hk
    exact ⟨_, List.mem_mapIdx.2 ⟨k, hlt, rfl⟩, List.mem_map_of_mem (mem_undeclared_iff.2 href)⟩

/-- The report has the warnings of the undeclared references in the lines of each definition, in
their order, and nothing else. -/
structure WarnsOfUndeclared (r : Report) (constants : List Constant)
    (groups : List (List Declaration)) : Prop where
  eq_warnings :
    r = (groups.mapIdx fun k lines => (undeclared constants lines).map (warning k)).flatten
  complete : r = [] → ∀ line ∈ groups.flatten, ∀ ref ∈ line.references,
    ref.2 ∈ constants.map (·.name)
  sound : ∀ diagnostic ∈ r, ∃ k lines ref, groups[k]? = some lines ∧ diagnostic = warning k ref ∧
    (∃ line ∈ lines, ref ∈ line.references) ∧ ref.2 ∉ constants.map (·.name)

theorem warnsOfUndeclared_ofDefinitions (h : List.Forall₂ (fun d lines =>
      d.declarations constants = .ok lines) ds groups) :
    (ofDefinitions constants ds).WarnsOfUndeclared constants groups := by
  have hwarnings := ofDefinitions_eq_warnings h
  refine ⟨hwarnings, fun hnone line hline ref href => ?_, fun diagnostic hdiagnostic => ?_⟩
  · by_contra hundeclared
    obtain ⟨lines, hlines, hline⟩ := List.mem_flatten.1 hline
    obtain ⟨k, hk⟩ := List.mem_iff_getElem?.1 hlines
    have hwarning := mem_warnings_iff.2 ⟨k, lines, ref, hk, rfl, ⟨line, hline, href⟩, hundeclared⟩
    rw [← hwarnings, hnone] at hwarning
    exact absurd hwarning List.not_mem_nil
  · rw [hwarnings] at hdiagnostic
    exact mem_warnings_iff.1 hdiagnostic

end Report

end ContestInput

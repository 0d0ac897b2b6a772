import ContestInput.Proofs.Faults
import ContestInput.Proofs.Locality
/-!
# More constants

Declarations ask of a list of constants only which names are in it, not where a name stands, how
often, or what it is worth. More names keep every declaration that could be written and every fault
but that of a missing constant, and they take away the warnings of the names that are new.
-/

namespace ContestInput

open Fallible

def Fault.missing? : Fault → Option String
  | .unresolvedSize _ constant | .unresolvedWidth _ constant => some constant
  | _ => none

section Names

variable {constants constants' : List Constant}

theorem Constant.declares_mono (h : constants.map (·.name) ⊆ constants'.map (·.name))
    {name : String} (hname : declares constants name = true) : declares constants' name = true := by
  rw [declares_eq_decide, decide_eq_true_eq] at hname ⊢
  exact h hname

theorem Constant.declares_congr (h : constants.map (·.name) ⊆ constants'.map (·.name))
    (h' : constants'.map (·.name) ⊆ constants.map (·.name)) :
    declares constants' = declares constants := by
  funext name
  rw [Bool.eq_iff_iff]
  exact ⟨declares_mono h', declares_mono h⟩

private theorem Size.resolve_congr
    (h : Constant.declares constants' = Constant.declares constants) :
    resolve constants' = resolve constants := by
  funext size
  cases size with
  | literal value => rfl
  | symbol name => rw [resolve, resolve, h]

end Names

namespace Definition

variable {constants constants' : List Constant} {d : Definition} {fault : Fault}

theorem declarations_mono (h : constants.map (·.name) ⊆ constants'.map (·.name))
    {lines : List Program.Declaration} (hlines : d.declarations constants = .ok lines) :
    d.declarations constants' = .ok lines := by
  obtain ⟨f, hform, rfl, hdeclared⟩ := declarations_eq_ok_iff.1 hlines
  refine declarations_eq_ok_iff.2 ⟨f, hform, rfl, ?_⟩
  intro name hname
  exact Constant.declares_mono h (hdeclared name hname)

theorem declarations_congr (h : Constant.declares constants' = Constant.declares constants) :
    declarations constants' = declarations constants := by
  funext d
  rw [declarations, declarations, Size.resolve_congr h]

/-- A fault that is not about a missing constant is a fault whatever the constants are. -/
theorem hasFault_congr (constants constants' : List Constant) (hresolved : ¬ fault.IsUnresolved) :
    d.HasFault constants fault ↔ d.HasFault constants' fault := by
  have hread (cs : List Constant) : d.HasFault cs fault ↔ d.readStatement = .error fault := by
    rw [readStatement_eq_error_iff_hasFault cs]
    exact (and_iff_left hresolved).symm
  exact (hread constants).trans (hread constants').symm

private theorem forall_not_hasFault_mono (h : constants.map (·.name) ⊆ constants'.map (·.name))
    (hnone : ∀ f, ¬ d.HasFault constants f) : ∀ f, ¬ d.HasFault constants' f := by
  obtain ⟨lines, hlines⟩ := exists_declarations_iff.2 hnone
  exact exists_declarations_iff.1 ⟨lines, declarations_mono h hlines⟩

theorem missingWidths_eq_filter (h : constants.map (·.name) ⊆ constants'.map (·.name))
    (d : Definition) : d.missingWidths constants' = (d.missingWidths constants).filter fun fault =>
      ∃ name ∈ fault.missing?, name ∉ constants'.map (·.name) := by
  have hwidth (name : String) : (d.item = .string ∧ constantName name ∉ constants'.map (·.name)) ↔
      constantName name ∉ constants'.map (·.name) ∧
        d.item = .string ∧ constantName name ∉ constants.map (·.name) := by
    constructor
    · rintro ⟨hitem, hname⟩
      exact ⟨hname, hitem, fun hold => hname (h hold)⟩
    · rintro ⟨hname, hitem, -⟩
      exact ⟨hitem, hname⟩
  have hmissing (name : String) :
      (∃ constant ∈ (Fault.unresolvedWidth name (constantName name)).missing?,
        constant ∉ constants'.map (·.name)) ↔ constantName name ∉ constants'.map (·.name) := by
    simp only [Fault.missing?, Option.mem_def, Option.some.injEq, exists_eq_left']
  rw [missingWidths_eq_map, missingWidths_eq_map, List.filter_map, List.filter_filter]
  congr 1
  apply List.filter_congr
  intro name _
  rw [Bool.eq_iff_iff, Bool.and_eq_true, Function.comp_apply, decide_eq_true_eq, decide_eq_true_eq,
    decide_eq_true_eq, hmissing]
  exact hwidth name

end Definition

namespace Program

variable {constants constants' : List Constant} {ds : List Definition} {fault : Fault}

theorem declarationsOf_eq_ok_mono (h : constants.map (·.name) ⊆ constants'.map (·.name))
    {lines : List Declaration} (hlines : declarationsOf constants ds = .ok lines) :
    declarationsOf constants' ds = .ok lines := by
  obtain ⟨groups, hgroups, hflatten⟩ := bind_eq_ok_iff.1 hlines
  refine bind_eq_ok_iff.2 ⟨groups, ?_, hflatten⟩
  rw [mapM_eq_ok_iff] at hgroups ⊢
  exact hgroups.imp fun _ _ => Definition.declarations_mono h

/-- More constants may only move a fault that is about a missing one: any other one is told again,
since nothing in front of it has become wrong. -/
theorem declarationsOf_eq_error_mono (h : constants.map (·.name) ⊆ constants'.map (·.name))
    (hfault : declarationsOf constants ds = .error fault) (hresolved : ¬ fault.IsUnresolved) :
    declarationsOf constants' ds = .error fault := by
  obtain ⟨before, d, after, rfl, hbefore, hd⟩ := declarationsOf_eq_error_iff.1 hfault
  refine declarationsOf_eq_error_iff.2 ⟨before, d, after, rfl, ?_, ?_⟩
  · intro b hb
    exact Definition.forall_not_hasFault_mono h (hbefore b hb)
  · exact (Definition.hasFault_congr constants constants' hresolved).1 hd

/-- With at least the same names of constants, in whatever order, number and with whatever values,
definitions that could be declared have the same lines, a fault other than a missing constant stays
the one that is told, and of the missing widths those are left whose constants are still missing.
With the same names, every line and every fault is the same. -/
theorem declarationsOf_of_more_constants (h : constants.map (·.name) ⊆ constants'.map (·.name)) :
    (∀ ds lines, declarationsOf constants ds = .ok lines →
      declarationsOf constants' ds = .ok lines) ∧
    (∀ ds fault, declarationsOf constants ds = .error fault → ¬ fault.IsUnresolved →
      declarationsOf constants' ds = .error fault) ∧
    (∀ d : Definition, d.missingWidths constants' = (d.missingWidths constants).filter fun fault =>
      ∃ name ∈ fault.missing?, name ∉ constants'.map (·.name)) ∧
    (constants'.map (·.name) ⊆ constants.map (·.name) →
      (∀ ds, declarationsOf constants' ds = declarationsOf constants ds) ∧
      ∀ d : Definition, d.missingWidths constants' = d.missingWidths constants) := by
  refine ⟨fun ds lines => declarationsOf_eq_ok_mono h,
    fun ds fault => declarationsOf_eq_error_mono h, Definition.missingWidths_eq_filter h,
    fun h' => ?_⟩
  have hdeclares := Constant.declares_congr h h'
  constructor
  · intro ds
    rw [declarationsOf, declarationsOf, Definition.declarations_congr hdeclares]
  · intro d
    rw [Definition.missingWidths, Definition.missingWidths, hdeclares]

/-- One more name takes its own warning away, and no constant mends a layout that cannot hold its
item. -/
theorem declarationsOf_of_more_constants_two :
    let few : List Constant := [⟨"N_MAX", 9⟩]
    let more : List Constant := [⟨"T_MAX", 4⟩, ⟨"N_MAX", 1⟩, ⟨"N_MAX", 9⟩]
    let rows : Definition := ⟨.varray, .string, ["S", "t", "U"], [.symbol "n"]⟩
    let runs : Definition := ⟨.varray, .char, ["C"], [.symbol "k"]⟩
    few.map (·.name) ⊆ more.map (·.name) ∧
    (∃ lines, declarationsOf few [rows] = .ok lines ∧ declarationsOf more [rows] = .ok lines) ∧
    declarationsOf few [rows, runs] = .error (.unsupportedCombination .varray .char) ∧
    declarationsOf more [rows, runs] = .error (.unsupportedCombination .varray .char) ∧
    rows.missingWidths few =
      [.unresolvedWidth "S" "S_MAX", .unresolvedWidth "t" "T_MAX", .unresolvedWidth "U" "U_MAX"] ∧
    rows.missingWidths more = [.unresolvedWidth "S" "S_MAX", .unresolvedWidth "U" "U_MAX"] ∧
    ∀ ds, declarationsOf [⟨"N_MAX", 1⟩, ⟨"N_MAX", 2⟩] ds = declarationsOf few ds := by
  intro few more rows runs
  have hmore : few.map (·.name) ⊆ more.map (·.name) := by simp [few, more]
  obtain ⟨hlines, hfault, hwidths, -⟩ := declarationsOf_of_more_constants hmore
  have hrows : ∃ lines, declarationsOf few [rows] = .ok lines := ⟨_, rfl⟩
  have hruns : declarationsOf few [rows, runs] =
      .error (.unsupportedCombination .varray .char) := by decide +kernel
  refine ⟨hmore, ?_, hruns, hfault _ _ hruns ?_, by decide +kernel, ?_, ?_⟩
  · obtain ⟨lines, hlines'⟩ := hrows
    exact ⟨lines, hlines', hlines _ _ hlines'⟩
  · rintro ⟨symbol, constant, h⟩
    exact absurd h (by simp)
  · rw [hwidths]
    decide +kernel
  · exact ((declarationsOf_of_more_constants (by simp [few])).2.2.2 (by simp [few])).1

end Program

end ContestInput

import ContestInput.Proofs.Fallible
import ContestInput.Program.Basic
import ContestInput.Report
/-!
# The verdict of a check

A check goes on after a fault and judges each definition by itself, while a program is written in
whole passes over all definitions that stop at the first fault. Both come to the same verdict: a
definition whose input statement has a fault has the same fault in its declaration, so the first
error of the check is what stops the program.
-/

namespace ContestInput

open Fallible

namespace Definition

variable {constants : List Constant} {d : Definition} {fault : Fault}

theorem readStatement_eq_error_iff : d.readStatement = .error fault ↔ d.form = .error fault := by
  rw [readStatement, bind_eq_error_iff]
  constructor
  · rintro (h | ⟨form, -, h⟩)
    · exact h
    · exact absurd h pure_ne_error
  · exact .inl

/-- A fault of the form comes before any fault of the sizes. -/
theorem declarations_eq_error_of_readStatement (h : d.readStatement = .error fault) :
    d.declarations constants = .error fault := by
  rw [declarations, bind_eq_error_iff]
  exact .inl (readStatement_eq_error_iff.1 h)

theorem exists_readStatement_of_declarations {lines : List Program.Declaration}
    (h : d.declarations constants = .ok lines) : ∃ r, d.readStatement = .ok r := by
  cases hr : d.readStatement with
  | ok r => exact ⟨r, rfl⟩
  | error fault =>
    rw [declarations_eq_error_of_readStatement hr] at h
    exact absurd h (by simp)

theorem findings_of_declarations_ok {lines : List Program.Declaration}
    (h : d.declarations constants = .ok lines) (index : Nat) :
    d.findings constants index =
      (d.missingWidths constants).map (⟨.warning, some index, ·⟩) := by
  obtain ⟨r, hr⟩ := exists_readStatement_of_declarations h
  rw [findings, h, hr]
  rfl

theorem findings_of_declarations_error (h : d.declarations constants = .error fault)
    (index : Nat) : d.findings constants index = [⟨.error, some index, fault⟩] := by
  rw [findings, h]
  rfl

end Definition

namespace Report

/-- The fault of the first error of a report. Warnings are passed over. -/
def firstFault? (r : Report) : Option Fault :=
  r.errors.head?.map (·.fault)

private theorem errors_append (r s : Report) : errors (r ++ s) = errors r ++ errors s :=
  List.filter_append _ _

private theorem errors_warnings (index : Nat) (faults : List Fault) :
    errors (faults.map (⟨.warning, some index, ·⟩)) = [] := by
  simp [errors]

theorem isValid_iff_firstFault? {r : Report} : r.isValid = true ↔ r.firstFault? = none := by
  simp [isValid, firstFault?, errors]

/-- The first fault that a check of definitions finds is the first one of their declarations. The
positions start at `offset`, since the check of a list's tail counts on from its head. -/
private theorem firstFault?_findings (constants : List Constant) (ds : List Definition)
    (offset : Nat) :
    firstFault? (ds.mapIdx fun i d => d.findings constants (i + offset)).flatten =
      match ds.mapM (Definition.declarations constants) with
      | .ok _ => none
      | .error fault => some fault := by
  induction ds generalizing offset with
  | nil => rfl
  | cons d ds ih =>
    rw [List.mapIdx_cons, List.flatten_cons, List.mapM_cons, firstFault?, errors_append]
    cases hd : d.declarations constants with
    | error fault =>
      rw [Definition.findings_of_declarations_error hd]
      rfl
    | ok lines =>
      rw [Definition.findings_of_declarations_ok hd, errors_warnings, List.nil_append]
      have htail := ih (offset + 1)
      simp only [Nat.add_comm offset 1, ← Nat.add_assoc, firstFault?] at htail
      rw [htail]
      cases ds.mapM (Definition.declarations constants) with
      | error fault => rfl
      | ok rest => rfl

theorem firstFault?_ofDefinitions (constants : List Constant) (ds : List Definition) :
    firstFault? (ofDefinitions constants ds) =
      match Program.declarationsOf constants ds with
      | .ok _ => none
      | .error fault => some fault := by
  have h := firstFault?_findings constants ds 0
  rw [Program.declarationsOf]
  cases hm : ds.mapM (Definition.declarations constants) with
  | ok lines =>
    rw [hm] at h
    exact h
  | error fault =>
    rw [hm] at h
    exact h

end Report

namespace Program

variable {constants : List Constant} {ds : List Definition}

theorem exists_readStatementsOf_of_declarationsOf {lines : List Declaration}
    (h : declarationsOf constants ds = .ok lines) :
    ∃ reads, readStatementsOf ds = .ok reads := by
  obtain ⟨groups, hgroups, -⟩ := bind_eq_ok_iff.1 h
  refine exists_mapM_eq_ok_iff.2 fun d hd => ?_
  obtain ⟨lines, hlines⟩ := exists_ok_of_mapM_eq_ok hgroups hd
  cases hr : d.readStatement with
  | ok r => exact ⟨r, rfl⟩
  | error fault =>
    -- The definition that fails here would have failed in its declaration.
    rw [Definition.declarations_eq_error_of_readStatement hr] at hlines
    exact absurd hlines (by simp)

/-- The program stops exactly where its declarations stop. -/
theorem ofDefinitions_eq_error_iff {fault : Fault} :
    ofDefinitions constants ds = .error fault ↔ declarationsOf constants ds = .error fault := by
  rw [ofDefinitions, bind_eq_error_iff]
  constructor
  · rintro (h | ⟨lines, hlines, h⟩)
    · exact h
    · obtain ⟨reads, hreads⟩ := exists_readStatementsOf_of_declarationsOf hlines
      rw [hreads] at h
      exact absurd h pure_ne_error
  · exact .inl

theorem generate_eq_error_iff {extractor : Extractor} {description : String} {fault : Fault} :
    generate extractor ds description = .error fault ↔
      (Report.check extractor ds description).firstFault? = some fault := by
  rw [generate, Report.check]
  cases extractor description with
  | error e =>
    rw [bind_eq_error_iff]
    simp [Report.firstFault?, Report.errors]
  | ok constants =>
    simp only [Report.firstFault?_ofDefinitions, bind_eq_error_iff]
    simp only [ofDefinitions_eq_error_iff, reduceCtorEq, false_or, Except.ok.injEq, exists_eq_left',
      pure_ne_error, and_false, exists_false, or_false]
    cases declarationsOf constants ds with
    | error e => simp
    | ok lines => simp

end Program

theorem Report.isValid_check_iff {extractor : Extractor} {ds : List Definition}
    {description : String} : (check extractor ds description).isValid = true ↔
      ∃ text, Program.generate extractor ds description = .ok text := by
  rw [isValid_iff_firstFault?]
  cases hg : Program.generate extractor ds description with
  | error fault => simp [Program.generate_eq_error_iff.1 hg]
  | ok text =>
    have hnone : ∀ fault, (check extractor ds description).firstFault? ≠ some fault := by
      intro fault h
      exact absurd (hg.symm.trans (Program.generate_eq_error_iff.2 h)) (by simp)
    simpa using Option.eq_none_iff_forall_ne_some.2 hnone

/-- A check has no error exactly when the program can be written, and else its first error is the
program's fault. The one finding about a description without constants is that fault, and a
program whose declarations are written is not stopped any more. -/
theorem Report.check_decides_generate (extractor : Extractor) (ds : List Definition)
    (description : String) :
    ((check extractor ds description).isValid = true ↔
      ∃ text, Program.generate extractor ds description = .ok text) ∧
    (∀ fault, Program.generate extractor ds description = .error fault ↔
      (check extractor ds description).errors.head?.map (·.fault) = some fault) ∧
    (∀ fault, extractor description = .error fault →
      Program.generate extractor ds description = .error fault ∧
        check extractor ds description = [⟨.error, none, fault⟩]) ∧
    ∀ constants lines, Program.declarationsOf constants ds = .ok lines →
      ∃ reads, Program.readStatementsOf ds = .ok reads := by
  refine ⟨isValid_check_iff, fun fault => Program.generate_eq_error_iff, ?_, ?_⟩
  · intro fault h
    constructor
    · rw [Program.generate, h]
      rfl
    · rw [check, h]
  · intro constants lines
    exact Program.exists_readStatementsOf_of_declarationsOf

end ContestInput

import ContestInput.Proofs.CommandLine
import ContestInput.Proofs.Json.Indented
import ContestInput.Proofs.Wire.RoundTrip
/-!
# What the commands tell as JSON

Constants are written so that they are read back, and a report is written as an object that tells
every finding, how many there are of either kind and the verdict. Neither depends on the characters
of names and messages.
-/

namespace ContestInput

open Json

namespace Json

inductive IsBool : Document → Bool → Prop where
  | intro (b : Bool) : IsBool (.bool b) b

/-- A number that is written with the decimal digits of `n`. -/
inductive IsCount : Document → Nat → Prop where
  | intro (n : Nat) : IsCount (.number (Numeral.decimal n)) n

/-- A value that may be missing, with a null in its place. -/
inductive IsOptional {α : Type} (value : Document → α → Prop) : Document → Option α → Prop where
  | none : IsOptional value .null none
  | some {d : Document} {a : α} : value d a → IsOptional value d (some a)

end Json

/-! ## Constants -/

namespace Constant

theorem read_toJson (c : Constant) : record.read c.toJson.document.tree = .ok c := by
  have hvalue : (Value.number c.value.toNat).document = .number (.natural c.value) := by
    rw [Value.document, Numeral.decimal_toNat]
  have hread := record.read_in_order [.string (some c.name),
    (Value.number c.value.toNat).document.tree] rfl (by simp [record, Field.of])
  refine hread.trans ?_
  rw [hvalue]
  rfl

theorem readList_indentedText (constants : List Constant) :
    readList ((listToJson constants).indentedText ++ "\n") = .ok constants := by
  have hspells : Spells ((listToJson constants).indentedText ++ "\n").toList
      (listToJson constants).document.tokens := by
    apply Spells.line
    rw [Value.indentedText, String.toList_ofList]
    exact Value.spells_indented 0 _
  have hread := Reader.list_document record.read toJson constants
  rw [Fallible.mapM_eq_ok_self_iff.2 fun c _ => read_toJson c] at hread
  rw [readList, Reader.text_of_spells _ hspells, listToJson, hread]
  rfl

end Constant

/-! ## Reports -/

structure Finding where
  severity : Severity
  index : Option Nat
  message : String

structure Summary where
  id : String
  findings : List Finding
  errors : Nat
  warnings : Nat
  valid : Bool

def Diagnostic.finding (d : Diagnostic) : Finding :=
  ⟨d.severity, d.index, d.fault.message⟩

def Report.summary (id : String) (r : Report) : Summary :=
  ⟨id, r.map Diagnostic.finding, r.errors.length, r.warnings.length, r.isValid⟩

def Finding.parts : List (Component Finding) :=
  [⟨Option Nat, "index", index, IsOptional IsCount, none⟩,
   ⟨String, "message", message, IsString, none⟩,
   ⟨Severity, "severity", severity, IsChoice [("error", .error), ("warning", .warning)], none⟩]

def Summary.parts : List (Component Summary) :=
  [⟨List Finding, "diagnostics", findings, IsList (IsRecord Finding.parts), none⟩,
   ⟨Nat, "errors", errors, IsCount, none⟩,
   ⟨String, "q", id, IsString, none⟩,
   ⟨Bool, "valid", valid, IsBool, none⟩,
   ⟨Nat, "warnings", warnings, IsCount, none⟩]

theorem Diagnostic.isRecord_toJson (d : Diagnostic) :
    IsRecord Finding.parts d.toJson.document d.finding := by
  have hindex : IsOptional IsCount (d.index.elim Value.null .number).document d.index := by
    cases d.index with
    | none => exact .none
    | some index => exact .some (.intro index)
  have hseverity : IsChoice [("error", Severity.error), ("warning", .warning)]
      (.string (some d.severity.text)) d.severity := by
    cases d.severity with
    | error => exact .string (by simp [Severity.text])
    | warning => exact .string (by simp [Severity.text])
  exact IsRecord.of_forall₂ (by decide)
    (.cons hindex (.cons (IsString.intro d.fault.message) (.cons hseverity .nil)))

theorem Report.isRecord_toJson (id : String) (r : Report) :
    IsRecord Summary.parts (r.toJson id).document (r.summary id) := by
  have hfindings : IsList (IsRecord Finding.parts)
      (Value.array (r.map Diagnostic.toJson)).document (r.map Diagnostic.finding) := by
    rw [Value.document, Value.documents_eq_map]
    refine .intro ?_
    rw [List.forall₂_map_right_iff, List.forall₂_map_left_iff, List.forall₂_map_left_iff,
      List.forall₂_same]
    exact fun d _ => d.isRecord_toJson
  exact IsRecord.of_forall₂ (by decide) (.cons hfindings (.cons (IsCount.intro r.errors.length)
    (.cons (IsString.intro id) (.cons (IsBool.intro r.isValid)
      (.cons (IsCount.intro r.warnings.length) .nil)))))

namespace Report

variable {r : Report}

theorem length_errors : r.errors.length = r.countP (·.severity = .error) :=
  List.countP_eq_length_filter.symm

theorem length_warnings : r.warnings.length = r.countP (·.severity = .warning) :=
  List.countP_eq_length_filter.symm

theorem length_errors_add_length_warnings : r.errors.length + r.warnings.length = r.length := by
  have hwarning (d : Diagnostic) :
      decide (d.severity = .warning) = !decide (d.severity = .error) := by
    cases d.severity <;> rfl
  simp only [errors, warnings, hwarning]
  exact (List.length_eq_length_filter_add _).symm

theorem isValid_iff_length_errors : r.isValid = true ↔ r.errors.length = 0 := by
  simp [isValid, errors]

end Report

/-! ## The outputs -/

namespace CommandLine

variable {σ : Type} {files : Files (StateM σ)} {file : String} {s s' : σ}
variable {content : Except FileError String} {p : Problem}

theorem output_listConstants (h : (listConstants true p).code = 0) :
    ∃ constants, Bound.extract p.description = .ok constants ∧
      (listConstants true p).output = (Constant.listToJson constants).indentedText ++ "\n" := by
  rw [code_listConstants] at h
  cases hextract : Bound.extract p.description with
  | error fault =>
    rw [hextract] at h
    exact absurd h (by simp)
  | ok constants =>
    rw [listConstants, hextract]
    exact ⟨constants, rfl, rfl⟩

theorem output_report (quiet : Bool) (p : Problem) :
    (report quiet true p).output = ((p.check Bound.extract).toJson p.id).text ++ "\n" :=
  rfl

theorem code_report_eq_zero_iff {quiet json : Bool} :
    (report quiet json p).code = 0 ↔ (p.check Bound.extract).errors.length = 0 := by
  rw [code_report, ← Report.isValid_iff_length_errors]
  cases (p.check Bound.extract).isValid <;> simp

/-- Whatever the characters of a problem are, the constants that a command lists as JSON are read
back as those of the description, and a report as JSON is one object that tells the identifier,
all findings in their order, how many there are of either kind, and whether there is no error,
which is the case exactly where the command succeeds. -/
theorem json_outputs_lossless (hread : readAt files file s = (content, s'))
    (hp : decoded? content = some p) :
    (∀ quiet, (exec files ⟨quiet, .constants file true⟩ s).1.code = 0 →
      ∃ constants, Bound.extract p.description = .ok constants ∧
        Constant.readList (exec files ⟨quiet, .constants file true⟩ s).1.output = .ok constants) ∧
    ∀ quiet, ∃ members errors warnings valid,
      Spells (exec files ⟨quiet, .check file true⟩ s).1.output.toList
        (Document.object members).tokens ∧
      IsRecord Summary.parts (.object members)
        ⟨p.id, (p.check Bound.extract).map Diagnostic.finding, errors, warnings, valid⟩ ∧
      errors = (p.check Bound.extract).countP (·.severity = .error) ∧
      warnings = (p.check Bound.extract).countP (·.severity = .warning) ∧
      errors + warnings = (p.check Bound.extract).length ∧
      (valid = true ↔ errors = 0) ∧
      (errors = 0 ↔ (exec files ⟨quiet, .check file true⟩ s).1.code = 0) := by
  refine ⟨fun quiet hcode => ?_, fun quiet => ?_⟩
  · rw [exec_constants hread hp] at hcode ⊢
    obtain ⟨constants, hextract, houtput⟩ := output_listConstants hcode
    refine ⟨constants, hextract, ?_⟩
    rw [houtput]
    exact Constant.readList_indentedText constants
  · rw [exec_check hread hp, output_report]
    generalize hr : p.check Bound.extract = r
    obtain ⟨members, hmembers⟩ : ∃ members, (r.toJson p.id).document = .object members := ⟨_, rfl⟩
    have hspells : Spells ((r.toJson p.id).text ++ "\n").toList
        (Document.object members).tokens := by
      apply Spells.line
      rw [Value.text, String.toList_ofList, ← hmembers]
      exact (r.toJson p.id).spells_compact
    refine ⟨members, r.errors.length, r.warnings.length, r.isValid, hspells,
      hmembers ▸ r.isRecord_toJson p.id, Report.length_errors, Report.length_warnings,
      Report.length_errors_add_length_warnings, Report.isValid_iff_length_errors, ?_⟩
    rw [code_report_eq_zero_iff, hr]

/-- The largest word is read back, and a line break and a quote in the identifier are told. -/
theorem json_outputs_lossless_limits :
    let content := "[\"a\\n\\\"\", \"1 ≤ N ≤ 18446744073709551615\", [[\"single\", \"char\", []]]]"
    let f := Folder.ofList [("max.json", content)]
    Constant.readList (exec Folder.place ⟨false, .constants "max.json" true⟩ f).1.output =
      .ok [⟨"N_MAX", 18446744073709551615⟩] ∧
    ∃ members, Spells (exec Folder.place ⟨true, .check "max.json" true⟩ f).1.output.toList
        (Document.object members).tokens ∧
      IsRecord Summary.parts (.object members)
        ⟨"a\n\"", [⟨.error, some 0, "Empty names in single definition"⟩], 1, 0, false⟩ := by
  intro content f
  let p : Problem :=
    ⟨"a\n\"", "1 ≤ N ≤ 18446744073709551615", [⟨.single, .char, [], []⟩], []⟩
  have hp : decoded? (f.contentAt "max.json") = some p := by decide +kernel
  have hextract : Bound.extract p.description = .ok [⟨"N_MAX", 18446744073709551615⟩] := by
    decide +kernel
  have hcheck : p.check Bound.extract = [⟨.error, some 0, .emptyNames .single⟩] := by
    decide +kernel
  obtain ⟨hconstants, hreport⟩ := json_outputs_lossless (readAt_place f "max.json") hp
  constructor
  · obtain ⟨constants, hconstants, hlist⟩ := hconstants false (by decide +kernel)
    obtain rfl := Except.ok.inj (hconstants.symm.trans hextract)
    exact hlist
  · obtain ⟨members, errors, warnings, valid, hspells, hrecord, rfl, rfl, -, hvalid, -⟩ :=
      hreport true
    rw [hcheck] at hrecord hvalid
    obtain rfl : valid = false := by simpa using hvalid
    exact ⟨members, hspells, hrecord⟩

end CommandLine

end ContestInput

import ContestInput.Proofs.Json.Compact
import ContestInput.Proofs.Size
import ContestInput.Proofs.Wire.Presented
/-!
# Problems written and read again

A symbol is written as a string, and a string is read by its characters, which may be those of a
number; so a written problem is read as the one whose symbols have been read as sizes again. It is
the same problem exactly if every symbol is a trimmed name with a character that is no digit.
-/

namespace ContestInput

open Json

namespace Size

/-- The size that is read where this one was written. -/
def reread : Size → Except Defect Size
  | .literal n => .ok (.literal n)
  | .symbol name => read name

def symbols : Size → List String
  | .literal _ => []
  | .symbol name => [name]

def Defect.misfit (cause : Defect) : Misfit :=
  .rejected (Fault.badSize cause).message

theorem ofJson_toJson (depth : Nat) (size : Size) :
    ofJson depth size.toJson.document.tree = size.reread.mapError Defect.misfit := by
  cases size with
  | literal n =>
    rw [toJson, Value.document, Numeral.decimal_toNat]
    rfl
  | symbol name =>
    cases hread : read name with
    | error cause =>
      simp [ofJson, toJson, Value.document, Document.tree, Tree.isSound, reread, hread,
        Except.mapError, Defect.misfit]
    | ok size =>
      simp [ofJson, toJson, Value.document, Document.tree, Tree.isSound, reread, hread,
        Except.mapError]

theorem reread_eq_error_iff (size : Size) (cause : Defect) :
    size.reread = .error cause ↔ size.symbols.mapM read = .error cause := by
  cases size with
  | literal n =>
    constructor
    · intro h
      exact absurd h (by simp [reread])
    · intro h
      exact absurd h Fallible.pure_ne_error
  | symbol name =>
    rw [reread, symbols, List.mapM_cons, List.mapM_nil]
    exact Fallible.bind_pure_eq_error_iff.symm

theorem reread_eq_self_iff (size : Size) :
    size.reread = .ok size ↔ ∀ name ∈ size.symbols, read name = .ok (.symbol name) := by
  cases size with
  | literal n => simp [reread, symbols]
  | symbol name => simp [reread, symbols]

end Size

namespace Definition

def reread (d : Definition) : Except Size.Defect Definition := do
  return { d with sizes := ← d.sizes.mapM Size.reread }

def symbols (d : Definition) : List String :=
  d.sizes.flatMap Size.symbols

end Definition

namespace Problem

/-- The problem that is read where this one was written: every symbol has become the size that
its name is read as. -/
def reread (p : Problem) : Except Size.Defect Problem := do
  return { p with definitions := ← p.definitions.mapM Definition.reread }

def symbols (p : Problem) : List String :=
  p.definitions.flatMap Definition.symbols

end Problem

/-! ## Reading the written parts -/

namespace Json.Reader

theorem list_document {α β : Type} (item : Reader β) (f : α → Value) (xs : List α) :
    list item (Value.array (xs.map f)).document.tree =
      xs.mapM fun x => item (f x).document.tree := by
  rw [Value.document, Value.documents_eq_map, Document.tree_array, list, List.mapM_map,
    List.mapM_map, List.mapM_map]
  change (List.mapM (fun x => item (f x).document.tree) xs >>= fun values => _) = _
  cases xs.mapM fun x => item (f x).document.tree with
  | error e => rfl
  | ok ys => rfl

private theorem list_string_document (xs : List String) :
    list string (Value.array (xs.map .string)).document.tree = .ok xs := by
  rw [list_document, Fallible.mapM_eq_ok_self_iff]
  intro x _
  rfl

end Json.Reader

theorem Layout.tag_text (layout : Layout) :
    Reader.tag names (.string (some layout.text)) = .ok layout := by
  cases layout <;> rfl

theorem Item.tag_text (item : Item) : Reader.tag names (.string (some item.text)) = .ok item := by
  cases item <;> rfl

theorem Source.read_toJson (s : Source) : record.read s.toJson.document.tree = .ok s :=
  record.read_in_order [.string (some s.extension), .string (some s.text)] rfl
    (by simp [record, Field.of])

theorem Definition.read_toJson (depth : Nat) (d : Definition) :
    (record depth).read d.toJson.document.tree = d.reread.mapError Size.Defect.misfit := by
  have hnames := Json.Reader.list_string_document d.names
  have hsizes := Json.Reader.list_document (Size.ofJson (depth + 2)) Size.toJson d.sizes
  simp only [Size.ofJson_toJson, Fallible.mapM_mapError] at hsizes
  have hread := (record depth).read_in_order [.string (some d.layout.text),
    .string (some d.item.text), (Value.array (d.names.map .string)).document.tree,
    (Value.array (d.sizes.map Size.toJson)).document.tree] rfl (by simp [record, Field.of])
  refine hread.trans ?_
  simp only [record, List.zip_cons_cons, List.zip_nil_left, List.foldlM_cons, List.foldlM_nil,
    Field.of, Layout.tag_text, Item.tag_text, hnames, hsizes, reread]
  cases d.sizes.mapM Size.reread with
  | error cause => rfl
  | ok sizes => rfl

theorem Problem.read_toJson (p : Problem) :
    record.read p.toJson.document.tree = p.reread.mapError Size.Defect.misfit := by
  have hdefinitions :=
    Json.Reader.list_document (Definition.record 2).read Definition.toJson p.definitions
  have hsources := Json.Reader.list_document Source.record.read Source.toJson p.sources
  simp only [Definition.read_toJson, Fallible.mapM_mapError] at hdefinitions
  rw [Fallible.mapM_eq_ok_self_iff.2 fun s _ => Source.read_toJson s] at hsources
  have hread := record.read_in_order [.string (some p.id), .string (some p.description),
    (Value.array (p.definitions.map Definition.toJson)).document.tree,
    (Value.array (p.sources.map Source.toJson)).document.tree] rfl (by simp [record, Field.of])
  refine hread.trans ?_
  simp only [record, List.zip_cons_cons, List.zip_nil_left, List.foldlM_cons, List.foldlM_nil,
    Field.of, hdefinitions, hsources, reread]
  cases p.definitions.mapM Definition.reread with
  | error cause => rfl
  | ok definitions => rfl

/-- A written problem is read as the problem with its symbols read as sizes again. -/
theorem Problem.read_write_eq_reread (p : Problem) :
    read p.write = p.reread.mapError fun cause => .badJson cause.misfit := by
  have hspells : Spells p.write.toList p.toJson.document.tokens := by
    rw [write, Value.text, String.toList_ofList]
    exact p.toJson.spells_compact
  rw [read, Reader.text_of_spells _ hspells, read_toJson]
  cases p.reread with
  | error cause => rfl
  | ok p' => rfl

theorem Definition.reread_eq_error_iff (d : Definition) (cause : Size.Defect) :
    d.reread = .error cause ↔ d.symbols.mapM Size.read = .error cause :=
  Fallible.bind_pure_eq_error_iff.trans
    (Fallible.mapM_flatMap_eq_error_iff Size.reread_eq_error_iff)

theorem Problem.reread_eq_error_iff (p : Problem) (cause : Size.Defect) :
    p.reread = .error cause ↔ p.symbols.mapM Size.read = .error cause :=
  Fallible.bind_pure_eq_error_iff.trans
    (Fallible.mapM_flatMap_eq_error_iff Definition.reread_eq_error_iff)

theorem Definition.reread_eq_self_iff (d : Definition) :
    d.reread = .ok d ↔ ∀ name ∈ d.symbols, Size.read name = .ok (.symbol name) := by
  have hsizes : d.reread = .ok d ↔ d.sizes.mapM Size.reread = .ok d.sizes := by
    obtain ⟨layout, item, names, sizes⟩ := d
    rw [reread, Fallible.bind_eq_ok_iff]
    simp [Fallible.pure_eq_ok_iff]
  rw [hsizes, Fallible.mapM_eq_ok_self_iff, symbols, List.forall_mem_flatMap]
  simp only [Size.reread_eq_self_iff]

theorem Problem.reread_eq_self_iff (p : Problem) :
    p.reread = .ok p ↔ ∀ name ∈ p.symbols, Size.read name = .ok (.symbol name) := by
  have hdefinitions : p.reread = .ok p ↔
      p.definitions.mapM Definition.reread = .ok p.definitions := by
    obtain ⟨id, description, definitions, sources⟩ := p
    rw [reread, Fallible.bind_eq_ok_iff]
    simp [Fallible.pure_eq_ok_iff]
  rw [hdefinitions, Fallible.mapM_eq_ok_self_iff, symbols, List.forall_mem_flatMap]
  simp only [Definition.reread_eq_self_iff]

/-- A written problem is read as the problem with every symbol read as a size again, if all of
them are read; otherwise the fault of the first that is not read is told. What is read is the same
problem exactly if the symbols are trimmed names with a character that is no digit. -/
theorem Problem.read_write (p : Problem) :
    ((∀ name ∈ p.symbols, ∃ size, Size.read name = .ok size) →
      ∃ p', p.reread = .ok p' ∧ read p.write = .ok p') ∧
    (∀ before name after cause, p.symbols = before ++ name :: after →
      (∀ s ∈ before, ∃ size, Size.read s = .ok size) → Size.read name = .error cause →
      read p.write = .error (.badJson (.rejected (Fault.badSize cause).message))) ∧
    (read p.write = .ok p ↔ ∀ name ∈ p.symbols, Text.trim name.toList ≠ [] ∧
      ((∀ c ∈ name.toList.head?, Text.isBlank c = false) ∧
        ∀ c ∈ name.toList.getLast?, Text.isBlank c = false) ∧
      ¬ ∀ c ∈ name.toList, c.isDigit = true) := by
  rw [read_write_eq_reread]
  refine ⟨fun hread => ?_, fun before name after cause hsymbols hbefore hname => ?_, ?_⟩
  · cases h : p.reread with
    | ok p' => exact ⟨p', rfl, rfl⟩
    | error cause =>
      obtain ⟨before, name, after, hsymbols, -, hname⟩ :=
        Fallible.mapM_eq_error_iff.1 ((reread_eq_error_iff p cause).1 h)
      obtain ⟨size, hsize⟩ := hread name (by simp [hsymbols])
      rw [hname] at hsize
      exact absurd hsize (by simp)
  · have herror := Fallible.mapM_eq_error_iff.2 ⟨before, name, after, hsymbols, hbefore, hname⟩
    rw [(reread_eq_error_iff p cause).2 herror]
    rfl
  · have hself : (p.reread.mapError fun cause => Fault.badJson cause.misfit) = .ok p ↔
        p.reread = .ok p := by
      cases p.reread with
      | error cause => simp [Except.mapError]
      | ok p' => simp [Except.mapError]
    rw [hself, reread_eq_self_iff]
    simp only [Size.read_eq_symbol_self_iff]

end ContestInput

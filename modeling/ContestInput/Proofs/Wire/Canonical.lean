import ContestInput.Proofs.Wire.RoundTrip
/-!
# Problems that have been read

Reading leaves only canonical sizes, whatever way they were written, and a problem with canonical
sizes is read back from its own text. So what has been read once is a fixed point: writing and
reading it again changes neither the problem nor its text.
-/

namespace ContestInput

open Json

namespace Size

theorem reread_eq_self_iff_isCanonical (size : Size) :
    size.reread = .ok size ↔ size.IsCanonical := by
  cases size with
  | literal count => exact ⟨fun _ => .literal count, fun _ => rfl⟩
  | symbol name => exact isCanonical_symbol_iff.symm

theorem isCanonical_of_isPresented {d : Document} {size : Size} (h : IsPresented d size) :
    size.IsCanonical := by
  cases h with
  | count w => exact .literal w
  | text hread => exact isCanonical_of_read hread

end Size

namespace Definition

def IsCanonical (d : Definition) : Prop :=
  ∀ size ∈ d.sizes, size.IsCanonical

theorem reread_eq_self_of_isCanonical {d : Definition} (h : d.IsCanonical) :
    d.reread = .ok d := by
  have hsizes : d.sizes.mapM Size.reread = .ok d.sizes :=
    Fallible.mapM_eq_ok_self_iff.2 fun size hsize =>
      (Size.reread_eq_self_iff_isCanonical size).2 (h size hsize)
  rw [reread, hsizes]
  rfl

/-- The sizes of a definition stand in one part of it, and a part that is missing has none. -/
theorem isCanonical_of_isRecord {doc : Document} {d : Definition} (h : IsRecord parts doc d) :
    d.IsCanonical := by
  have hpart : ⟨List Size, "size", sizes, IsList Size.IsPresented, some []⟩ ∈ parts := by
    simp [parts]
  intro size hsize
  rcases h.presents_or_default hpart with ⟨doc', hlist⟩ | hdefault
  · obtain ⟨item, hitem⟩ := hlist.exists_item size hsize
    exact Size.isCanonical_of_isPresented hitem
  · have hnil : d.sizes = [] := (Option.some.inj hdefault).symm
    rw [hnil] at hsize
    exact absurd hsize List.not_mem_nil

end Definition

namespace Problem

def IsCanonical (p : Problem) : Prop :=
  ∀ d ∈ p.definitions, d.IsCanonical

theorem reread_eq_self_of_isCanonical {p : Problem} (h : p.IsCanonical) : p.reread = .ok p := by
  have hdefinitions : p.definitions.mapM Definition.reread = .ok p.definitions :=
    Fallible.mapM_eq_ok_self_iff.2 fun d hd => Definition.reread_eq_self_of_isCanonical (h d hd)
  rw [reread, hdefinitions]
  rfl

theorem read_write_of_isCanonical {p : Problem} (h : p.IsCanonical) : read p.write = .ok p := by
  rw [read_write_eq_reread, reread_eq_self_of_isCanonical h]
  rfl

theorem isCanonical_of_isRecord {doc : Document} {p : Problem} (h : IsRecord parts doc p) :
    p.IsCanonical := by
  have hpart : ⟨List Definition, "defs", definitions, IsList (IsRecord Definition.parts),
      some []⟩ ∈ parts := by
    simp [parts]
  intro d hd
  rcases h.presents_or_default hpart with ⟨doc', hlist⟩ | hdefault
  · obtain ⟨item, hitem⟩ := hlist.exists_item d hd
    exact Definition.isCanonical_of_isRecord hitem
  · have hnil : p.definitions = [] := (Option.some.inj hdefault).symm
    rw [hnil] at hd
    exact absurd hd List.not_mem_nil

theorem isCanonical_of_read {text : String} {p : Problem} (h : read text = .ok p) :
    p.IsCanonical := by
  have hread : record.read.text text = .ok p := Fallible.mapError_eq_ok_iff.1 h
  obtain ⟨doc, -, hrecord⟩ :=
    (Reader.text_eq_ok_iff Problem.record_madeOf.reads fun _ _ => Record.isComplete_of_read).1 hread
  exact isCanonical_of_isRecord hrecord

/-- A problem that was read, from whatever text, has canonical sizes, is read back from its own
text, and what is read back has the same text once more. -/
theorem read_write_of_read {text : String} {p : Problem} (h : read text = .ok p) :
    (∀ d ∈ p.definitions, ∀ size ∈ d.sizes, size.IsCanonical) ∧
    read p.write = .ok p ∧
    (read p.write).map write = .ok p.write := by
  have hcanonical := isCanonical_of_read h
  have hback := read_write_of_isCanonical hcanonical
  refine ⟨hcanonical, hback, ?_⟩
  rw [hback]
  rfl

/-- A text with its keys out of order, fields in an array, second names for the layout and the
item, an escape, and sizes that are padded strings. -/
theorem read_write_of_read_array :
    let text := "\x7b\"defs\": [[\"matrix\", \x7b\"character\": null\x7d, [\"A\"], " ++
      "[\" 007\\t\", \"\\u004e \"]], \x7b\"size\": [7], \"names\": [\"B\"], " ++
      "\"container\": \"h-array\", \"item\": \"number\"\x7d], \"q\": \"A\"\x7d"
    let p : Problem :=
      ⟨"A", "", [⟨.matrix, .char, ["A"], [.literal 7, .symbol "N"]⟩,
        ⟨.harray, .number, ["B"], [.literal 7]⟩], []⟩
    read text = .ok p ∧
    (∀ d ∈ p.definitions, ∀ size ∈ d.sizes, size.IsCanonical) ∧
    read p.write = .ok p ∧
    (read p.write).map write = .ok p.write := by
  intro text p
  have hread : read text = .ok p := by decide +kernel
  exact ⟨hread, read_write_of_read hread⟩

end Problem

end ContestInput

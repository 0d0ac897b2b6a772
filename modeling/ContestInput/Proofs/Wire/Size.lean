import ContestInput.Proofs.Bound.Value
import ContestInput.Proofs.Wire.Canonical
/-!
# All ways to write a size

A size is told by a text, by a JSON string or by a JSON number. A text is a count if what is left
of it without the white space around it is made of digits, and a name otherwise; a string is read
as the text that it stands for; and a number is read as any of its decimal spellings is.
-/

namespace ContestInput

open Json

/-- The text is a run of decimal digits, and its places give the number. -/
structure Text.Denotes (digits : List Char) (n : Nat) : Prop where
  ne_nil : digits ≠ []
  isDigit : ∀ c ∈ digits, c.isDigit = true
  places : n = Nat.ofDigits 10 (digits.map fun c => c.toNat - '0'.toNat).reverse

theorem Text.denotes_iff {digits : List Char} {n : Nat} : Denotes digits n ↔
    digits ≠ [] ∧ (∀ c ∈ digits, c.isDigit = true) ∧ ofDigits digits = n := by
  rw [Bound.ofDigits_eq_places]
  constructor
  · rintro ⟨hne, hdigits, rfl⟩
    exact ⟨hne, hdigits, rfl⟩
  · rintro ⟨hne, hdigits, rfl⟩
    exact ⟨hne, hdigits, rfl⟩

namespace Size

variable {s text : String} {u : List Char}

/-! ## Texts -/

theorem read_eq_literal_iff_denotes (hu : Text.Trims s.toList u) {n : UInt64} :
    read s = .ok (.literal n) ↔ Text.Denotes u n.toNat := by
  rw [read_eq_literal_iff, Text.trims_iff.1 hu, Text.denotes_iff]

theorem read_eq_symbol_iff_exists (hu : Text.Trims s.toList u) {name : String} :
    read s = .ok (.symbol name) ↔ name = String.ofList u ∧ ∃ c ∈ u, c.isDigit = false := by
  have hdigits : (∃ c ∈ u, c.isDigit = false) ↔ ¬ ∀ c ∈ u, c.isDigit = true := by simp
  rw [read_eq_symbol_iff, Text.trims_iff.1 hu, hdigits]
  constructor
  · rintro ⟨-, hother, rfl⟩
    exact ⟨rfl, hother⟩
  · rintro ⟨rfl, hother⟩
    refine ⟨?_, hother, rfl⟩
    rintro rfl
    exact hother fun c hc => absurd hc List.not_mem_nil

theorem read_eq_error_iff_denotes (hu : Text.Trims s.toList u) {cause : Defect} :
    read s = .error cause ↔ (u = [] ∧ cause = .empty) ∨
      (∃ n, Text.Denotes u n ∧ 2 ^ 64 ≤ n) ∧ cause = .tooLarge (String.ofList u) := by
  have hlarge : (u ≠ [] ∧ (∀ c ∈ u, c.isDigit = true) ∧ UInt64.size ≤ Text.ofDigits u) ↔
      ∃ n, Text.Denotes u n ∧ 2 ^ 64 ≤ n := by
    simp only [Text.denotes_iff]
    constructor
    · rintro ⟨hne, hdigits, hsize⟩
      exact ⟨_, ⟨hne, hdigits, rfl⟩, hsize⟩
    · rintro ⟨n, ⟨hne, hdigits, rfl⟩, hsize⟩
      exact ⟨hne, hdigits, hsize⟩
  rw [read_eq_error_iff, Text.trims_iff.1 hu, hlarge]

theorem message_of_read_eq_error (hu : Text.Trims s.toList u) {cause : Defect}
    (h : read s = .error cause) : (Fault.badSize cause).message = "Invalid definition: " ++
      if u = [] then "empty size expression"
      else "size '" ++ String.ofList u ++ "': number too large to fit in target type" := by
  rcases (read_eq_error_iff_denotes hu).1 h with ⟨rfl, rfl⟩ | ⟨⟨n, hn, -⟩, rfl⟩
  · rfl
  · rw [if_neg hn.ne_nil]
    rfl

/-! ## JSON -/

/-- A string is read as the text that it stands for, whatever surrounds it. -/
theorem ofJson_string (depth : Nat) (s : String) :
    ofJson depth (Document.string (some s)).tree = (read s).mapError Defect.misfit :=
  ofJson_toJson depth (.symbol s)

theorem readJson_of_spells {d : Document} (h : Spells text.toList d.tokens) :
    readJson text = (ofJson 0 d.tree).mapError .badJson := by
  rw [readJson, Reader.text_of_spells _ h]

theorem readJson_string (h : Spells text.toList (Document.string (some s)).tokens) :
    readJson text = (read s).mapError fun cause => .badJson cause.misfit := by
  rw [readJson_of_spells h, ofJson_string]
  cases read s with
  | error cause => rfl
  | ok size => rfl

theorem readJson_natural {n : UInt64}
    (h : Spells text.toList (Document.number (.natural n)).tokens) :
    readJson text = .ok (.literal n) := by
  rw [readJson_of_spells h]
  rfl

/-- A text is read by what is left of it without the white space around it: digits that denote a
number below 2^64 are a count, a text with another character is a name, and nothing else is a size.
What is read is read again from its own text. A JSON string is read as its text is, wherever it
stands, and so is a JSON number as each of its decimal spellings. -/
theorem read_by_all_ways (s : String) :
    ∃ u, Text.Trims s.toList u ∧
      (∀ n, read s = .ok (.literal n) ↔ Text.Denotes u n.toNat) ∧
      (∀ name, read s = .ok (.symbol name) ↔
        name = String.ofList u ∧ ∃ c ∈ u, c.isDigit = false) ∧
      (∀ cause, read s = .error cause ↔ (u = [] ∧ cause = .empty) ∨
        (∃ n, Text.Denotes u n ∧ 2 ^ 64 ≤ n) ∧ cause = .tooLarge (String.ofList u)) ∧
      (∀ cause, read s = .error cause →
        (Fault.badSize cause).message = "Invalid definition: " ++
          if u = [] then "empty size expression"
          else "size '" ++ String.ofList u ++ "': number too large to fit in target type") ∧
      (∀ size, read s = .ok size → read size.text = .ok size) ∧
      (∀ depth, ofJson depth (Document.string (some s)).tree = (read s).mapError Defect.misfit) ∧
      (∀ text, Spells text.toList (Document.string (some s)).tokens →
        readJson text = (read s).mapError fun cause => .badJson cause.misfit) ∧
      ∀ (n : UInt64) (string number : String), Text.Denotes u n.toNat →
        Spells string.toList (Document.string (some s)).tokens →
        Spells number.toList (Document.number (.natural n)).tokens →
          readJson string = .ok (.literal n) ∧ readJson number = .ok (.literal n) := by
  have hu := Text.trims_trim s.toList
  refine ⟨_, hu, fun n => read_eq_literal_iff_denotes hu, fun name => read_eq_symbol_iff_exists hu,
    fun cause => read_eq_error_iff_denotes hu, fun cause => message_of_read_eq_error hu, ?_,
    fun depth => ofJson_string depth s, fun text => readJson_string, ?_⟩
  · intro size hread
    exact read_text_of_isCanonical (isCanonical_of_read hread)
  · intro n string number hn hstring hnumber
    refine ⟨?_, readJson_natural hnumber⟩
    rw [readJson_string hstring, (read_eq_literal_iff_denotes hu).2 hn]
    rfl

/-- A string of escapes and a number that are the same size, between white space of JSON, which is
not all white space of a text. -/
theorem read_by_all_ways_padded :
    let s := "\u3000 007\t"
    let string := " \"\\u3000 \\u0030\\u0030\\u0037\\t\"\n"
    let number := "\t7 "
    Spells string.toList (Document.string (some s)).tokens ∧
    Spells number.toList (Document.number (.natural 7)).tokens ∧
    read s = .ok (.literal 7) ∧ read (Size.literal 7).text = .ok (.literal 7) ∧
    readJson string = .ok (.literal 7) ∧ readJson number = .ok (.literal 7) := by
  intro s string number
  obtain ⟨u, hu, hliteral, -, -, -, hagain, -, -, hways⟩ := read_by_all_ways s
  have htrim : Text.trim s.toList = ['0', '0', '7'] := by decide +kernel
  obtain rfl := htrim.symm.trans (Text.trims_iff.1 hu)
  have hseven : Text.Denotes ['0', '0', '7'] (7 : UInt64).toNat :=
    ⟨by decide, List.all_eq_true.1 rfl, by decide⟩
  have hstring : Spells string.toList (Document.string (some s)).tokens :=
    Document.spells_tokens_iff.2 (by decide +kernel)
  have hnumber : Spells number.toList (Document.number (.natural 7)).tokens :=
    Document.spells_tokens_iff.2 (by decide +kernel)
  have hread := (hliteral 7).2 hseven
  exact ⟨hstring, hnumber, hread, hagain _ hread, hways 7 string number hseven hstring hnumber⟩

end Size

end ContestInput

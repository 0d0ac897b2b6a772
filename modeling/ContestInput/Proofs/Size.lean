import ContestInput.Proofs.Text.Classes
import ContestInput.Size
/-!
# Sizes and their text

Which texts are read as counts, which as symbols and which not at all, and which names are read as
themselves.
-/

namespace ContestInput.Size

/-- What is left of a text without the white space around it is empty, a count, too large for one,
or a name. -/
theorem read_cases (s : String) :
    (Text.trim s.toList = [] ∧ read s = .error .empty) ∨
    (Text.trim s.toList ≠ [] ∧ (∀ c ∈ Text.trim s.toList, c.isDigit = true) ∧
      ((∃ count, Text.ofDigits (Text.trim s.toList) = UInt64.toNat count ∧
          read s = .ok (.literal count)) ∨
        (UInt64.size ≤ Text.ofDigits (Text.trim s.toList) ∧
          read s = .error (.tooLarge (String.ofList (Text.trim s.toList)))))) ∨
    (Text.trim s.toList ≠ [] ∧ (¬ ∀ c ∈ Text.trim s.toList, c.isDigit = true) ∧
      read s = .ok (.symbol (String.ofList (Text.trim s.toList)))) := by
  rw [read]
  simp only [List.isEmpty_iff, List.all_eq_true]
  by_cases hempty : Text.trim s.toList = []
  · rw [if_pos hempty]
    exact .inl ⟨hempty, rfl⟩
  · by_cases hdigits : ∀ c ∈ Text.trim s.toList, c.isDigit = true
    · rw [if_neg hempty, if_pos hdigits]
      refine .inr (.inl ⟨hempty, hdigits, ?_⟩)
      cases hword : Text.word? (Text.trim s.toList) with
      | some count => exact .inl ⟨count, Text.word?_eq_some_iff.1 hword, rfl⟩
      | none => exact .inr ⟨Text.word?_eq_none_iff.1 hword, rfl⟩
    · rw [if_neg hempty, if_neg hdigits]
      exact .inr (.inr ⟨hempty, hdigits, rfl⟩)

theorem read_eq_literal_iff {s : String} {count : UInt64} : read s = .ok (.literal count) ↔
    Text.trim s.toList ≠ [] ∧ (∀ c ∈ Text.trim s.toList, c.isDigit = true) ∧
      Text.ofDigits (Text.trim s.toList) = count.toNat := by
  rcases read_cases s with ⟨hempty, hread⟩ |
    ⟨hne, hdigits, ⟨n, hn, hread⟩ | ⟨hlarge, hread⟩⟩ | ⟨-, hother, hread⟩
  all_goals rw [hread]
  · exact ⟨nofun, fun h => absurd hempty h.1⟩
  · rw [hn, UInt64.toNat_inj, Except.ok.injEq, literal.injEq]
    exact ⟨fun h => ⟨hne, hdigits, h⟩, fun h => h.2.2⟩
  · have hcount := count.toNat_lt_size
    exact ⟨nofun, fun h => absurd h.2.2 (by omega)⟩
  · exact ⟨nofun, fun h => absurd h.2.1 hother⟩

theorem read_eq_error_iff {s : String} {cause : Defect} : read s = .error cause ↔
    (Text.trim s.toList = [] ∧ cause = .empty) ∨
      (Text.trim s.toList ≠ [] ∧ (∀ c ∈ Text.trim s.toList, c.isDigit = true) ∧
        UInt64.size ≤ Text.ofDigits (Text.trim s.toList)) ∧
      cause = .tooLarge (String.ofList (Text.trim s.toList)) := by
  rcases read_cases s with ⟨hempty, hread⟩ |
    ⟨hne, hdigits, ⟨n, hn, hread⟩ | ⟨hlarge, hread⟩⟩ | ⟨hne, hother, hread⟩
  all_goals rw [hread]
  · rw [Except.error.injEq, eq_comm]
    exact ⟨fun h => .inl ⟨hempty, h⟩, fun h => (h.resolve_right (·.1.1 hempty)).2⟩
  · have hsize := n.toNat_lt_size
    exact ⟨nofun, fun h => absurd (h.resolve_left (hne ·.1)).1.2.2 (by omega)⟩
  · rw [Except.error.injEq, eq_comm]
    exact ⟨fun h => .inr ⟨⟨hne, hdigits, hlarge⟩, h⟩, fun h => (h.resolve_left (hne ·.1)).2⟩
  · exact ⟨nofun, fun h => absurd (h.resolve_left (hne ·.1)).1.2.1 hother⟩

theorem read_eq_symbol_iff {s name : String} : read s = .ok (.symbol name) ↔
    Text.trim s.toList ≠ [] ∧ (¬ ∀ c ∈ Text.trim s.toList, c.isDigit = true) ∧
      String.ofList (Text.trim s.toList) = name := by
  rcases read_cases s with ⟨hempty, hread⟩ |
    ⟨-, hdigits, ⟨_, -, hread⟩ | ⟨-, hread⟩⟩ | ⟨hne, hother, hread⟩
  all_goals rw [hread]
  · exact ⟨nofun, fun h => absurd hempty h.1⟩
  · exact ⟨nofun, fun h => absurd hdigits h.2.1⟩
  · exact ⟨nofun, fun h => absurd hdigits h.2.1⟩
  · rw [Except.ok.injEq, symbol.injEq]
    exact ⟨fun h => ⟨hne, hother, h⟩, fun h => h.2.2⟩

theorem read_eq_symbol_self_iff {name : String} : read name = .ok (.symbol name) ↔
    Text.trim name.toList ≠ [] ∧ ((∀ c ∈ name.toList.head?, Text.isBlank c = false) ∧
      ∀ c ∈ name.toList.getLast?, Text.isBlank c = false) ∧
      ¬ ∀ c ∈ name.toList, c.isDigit = true := by
  have htrim : String.ofList (Text.trim name.toList) = name ↔
      Text.trim name.toList = name.toList := by
    rw [← String.toList_inj, String.toList_ofList]
  rw [read_eq_symbol_iff, htrim, ← Text.trim_eq_self_iff]
  constructor
  · rintro ⟨hempty, hdigits, h⟩
    rw [h] at hdigits
    exact ⟨hempty, h, hdigits⟩
  · rintro ⟨hempty, h, hdigits⟩
    rw [← h] at hdigits
    exact ⟨hempty, hdigits, h⟩

/-- A size as reading leaves it: a count, or a name that is not empty, has no white space at its
ends and is no run of digits. -/
inductive IsCanonical : Size → Prop where
  | literal (count : UInt64) : IsCanonical (.literal count)
  | symbol {name : String} : name ≠ "" →
      (∀ c ∈ name.toList.head?, Text.isBlank c = false) →
      (∀ c ∈ name.toList.getLast?, Text.isBlank c = false) →
      ¬ (∀ c ∈ name.toList, c.isDigit = true) → IsCanonical (.symbol name)

theorem isCanonical_symbol_iff {name : String} :
    (symbol name).IsCanonical ↔ read name = .ok (.symbol name) := by
  have hempty (h : Text.trim name.toList = name.toList) :
      Text.trim name.toList ≠ [] ↔ name ≠ "" := by
    rw [h, ne_eq, ne_eq, String.toList_eq_nil_iff]
  rw [read_eq_symbol_self_iff]
  constructor
  · rintro ⟨⟩
    rename_i hname hhead hlast hdigits
    have htrim := Text.trim_eq_self_iff.2 ⟨hhead, hlast⟩
    exact ⟨(hempty htrim).2 hname, ⟨hhead, hlast⟩, hdigits⟩
  · rintro ⟨hname, hends, hdigits⟩
    have htrim := Text.trim_eq_self_iff.2 hends
    exact .symbol ((hempty htrim).1 hname) hends.1 hends.2 hdigits

theorem isCanonical_of_read {s : String} {size : Size} (h : read s = .ok size) :
    size.IsCanonical := by
  cases size with
  | literal count => exact .literal count
  | symbol name =>
    obtain ⟨hempty, hdigits, rfl⟩ := read_eq_symbol_iff.1 h
    refine .symbol ?_ ?_ ?_ ?_
    · rwa [ne_eq, String.ofList_eq_empty_iff]
    all_goals rw [String.toList_ofList]
    · exact Text.head?_trim _
    · exact Text.getLast?_trim _
    · exact hdigits

theorem read_text_of_isCanonical {size : Size} (h : size.IsCanonical) :
    read size.text = .ok size := by
  cases size with
  | literal count =>
    have hlist : (toString count.toNat).toList = Nat.toDigits 10 count.toNat := by simp
    have hdigits : ∀ c ∈ Nat.toDigits 10 count.toNat, c.isDigit = true := fun c hc =>
      Nat.isDigit_of_mem_toDigits (by omega) (by omega) hc
    have htrim : Text.trim (Nat.toDigits 10 count.toNat) = Nat.toDigits 10 count.toNat := by
      refine Text.trim_eq_self_iff.2 ⟨fun c hc => ?_, fun c hc => ?_⟩
      · exact Text.isBlank_eq_false_of_isDigit (hdigits c (List.mem_of_mem_head? hc))
      · exact Text.isBlank_eq_false_of_isDigit (hdigits c (List.mem_of_mem_getLast? hc))
    rw [text, read_eq_literal_iff, hlist, htrim]
    exact ⟨Nat.toDigits_ne_nil, hdigits, Text.ofDigits_toDigits _⟩
  | symbol name => exact isCanonical_symbol_iff.1 h

end ContestInput.Size

import ContestInput.Proofs.Bound.Extract
import ContestInput.Proofs.Constant
/-!
# The names of extracted constants

The constants of a description are named after the identifiers that it bounds. In upper case these
have ASCII letters, digits and underscores, and of all other characters at most the Kelvin sign,
which is a capital itself.
-/

namespace ContestInput

theorem Text.isIdentifierChar_iff_isWordChar {c : Char} : Bound.isIdentifierChar c = true ↔
    Program.isWordChar c = true ∨ c = '\u017F' ∨ c = '\u212A' := by
  simp [Bound.isIdentifierChar, Program.isWordChar, or_assoc]

/-- The capital of a character of identifiers. The one of the long s is in ASCII. -/
theorem Text.mem_upperChar {c x : Char} (hc : Bound.isIdentifierChar c = true)
    (hx : x ∈ upperChar c) :
    Program.isWordChar x = true ∨ x = '\u212A' := by
  have hlong : upperChar '\u017F' = ['S'] := by decide +kernel
  have hkelvin : upperChar '\u212A' = ['\u212A'] := by decide +kernel
  rcases isIdentifierChar_iff_isWordChar.1 hc with hword | rfl | rfl
  · have hupper : upperChar c = [c.toUpper] := if_pos (Program.toNat_lt_of_isWordChar hword)
    rw [hupper, List.mem_singleton] at hx
    subst hx
    exact .inl (Program.isWordChar_toUpper hword).1
  · rw [hlong, List.mem_singleton] at hx
    subst hx
    exact .inl (by decide)
  · rw [hkelvin, List.mem_singleton] at hx
    exact .inr hx

private theorem mem_constantName {identifier : List Char} {x : Char}
    (h : ∀ c ∈ identifier, Bound.isIdentifierChar c = true)
    (hx : x ∈ (String.ofList (Text.upper identifier) ++ "_MAX").toList) :
    Program.isWordChar x = true ∨ x = '\u212A' := by
  rw [String.toList_append, String.toList_ofList, List.mem_append, Text.upper,
    List.mem_flatMap] at hx
  rcases hx with ⟨c, hc, hx⟩ | hx
  · exact Text.mem_upperChar (h c hc) hx
  · have hsuffix : "_MAX".toList.all Program.isWordChar = true := by decide
    exact .inl (List.all_eq_true.1 hsuffix x hx)

namespace Bound

theorem identifier_of_mem_clauses {t : List Char} {c : Clause} (h : c ∈ clauses t) :
    c.identifier ≠ [] ∧ ∀ x ∈ c.identifier, isIdentifierChar x = true := by
  obtain ⟨spans, hr, hspans⟩ := clauses_eq_iff.1 (rfl : clauses t = clauses t)
  rw [← hspans] at h
  obtain ⟨s, hs, rfl⟩ := List.mem_map.1 h
  have hvalid := (hr.greedy s hs).1.1
  exact ⟨hvalid.identifier_ne_nil, hvalid.identifier⟩

theorem exists_clause_of_mem_extract {description : String} {constants : List Constant}
    (h : extract description = .ok constants) {k : Constant} (hk : k ∈ constants) :
    ∃ c ∈ clauses (normalize description), c.Declares k := by
  obtain ⟨c, hc, hk⟩ := Fallible.exists_of_mem_of_mapM_eq_ok h hk
  exact ⟨c, hc, Clause.constant_eq_ok_iff.1 hk⟩

theorem mem_name_of_mem_extract {description : String} {constants : List Constant}
    (h : extract description = .ok constants) {k : Constant} (hk : k ∈ constants) {x : Char}
    (hx : x ∈ k.name.toList) : Program.isWordChar x = true ∨ x = '\u212A' := by
  obtain ⟨c, hc, hdeclares⟩ := exists_clause_of_mem_extract h hk
  rw [hdeclares.name] at hx
  exact mem_constantName (identifier_of_mem_clauses hc).2 hx

end Bound

end ContestInput

import ContestInput.Constant
import ContestInput.Proofs.Program.Token
/-!
# Names of constants

The constant that bounds an identifier has an identifier for a name itself.
-/

namespace ContestInput

namespace Program

theorem toNat_lt_of_isWordChar {c : Char} (h : isWordChar c = true) : c.toNat < 128 := by
  have hcases : c.isAlpha = true ∨ c.isDigit = true ∨ c = '_' := by
    simpa [isWordChar, Char.isAlphanum, or_assoc] using h
  rcases hcases with h | h | rfl
  · have := Text.isAlpha_iff.1 h
    omega
  · have := Text.isDigit_iff.1 h
    omega
  · decide

/-- The capital of a character of words is one too, and no digit unless the character was. -/
theorem isWordChar_toUpper {c : Char} (h : isWordChar c = true) :
    isWordChar c.toUpper = true ∧ c.toUpper.isDigit = c.isDigit := by
  have hall : ∀ n : Fin 128, isWordChar (Char.ofNat n) = true →
      isWordChar (Char.ofNat n).toUpper = true ∧
        (Char.ofNat n).toUpper.isDigit = (Char.ofNat n).isDigit := by decide +kernel
  have hc := hall ⟨c.toNat, toNat_lt_of_isWordChar h⟩
  rw [Char.ofNat_toNat] at hc
  exact hc h

end Program

open Program

theorem Text.upper_of_isWordChar {s : List Char} (h : ∀ c ∈ s, isWordChar c = true) :
    upper s = s.map Char.toUpper := by
  induction s with
  | nil => rfl
  | cons c s ih =>
    obtain ⟨hc, hs⟩ := List.forall_mem_cons.1 h
    have hupper : upperChar c = [c.toUpper] := if_pos (toNat_lt_of_isWordChar hc)
    rw [upper, List.flatMap_cons, hupper, List.map_cons, ← ih hs]
    rfl

theorem isIdentifier_constantName {s : String} (h : isIdentifier s = true) :
    isIdentifier (constantName s) = true := by
  obtain ⟨c, cs, hs, hdigit, hchars⟩ := isIdentifier_iff.1 h
  have hname : (constantName s).toList = c.toUpper :: (cs.map Char.toUpper ++ "_MAX".toList) := by
    rw [constantName, String.toList_append, String.toList_ofList, hs,
      Text.upper_of_isWordChar hchars]
    rfl
  refine isIdentifier_iff.2 ⟨_, _, hname, ?_, ?_⟩
  · rw [(isWordChar_toUpper (hchars c List.mem_cons_self)).2, hdigit]
  · have hupper : ∀ x ∈ (c :: cs).map Char.toUpper, isWordChar x = true := by
      intro x hx
      obtain ⟨y, hy, rfl⟩ := List.mem_map.1 hx
      exact (isWordChar_toUpper (hchars y hy)).1
    have hsuffix : "_MAX".toList.all isWordChar = true := by decide
    rw [← List.cons_append, ← List.map_cons, List.forall_mem_append]
    exact ⟨hupper, List.all_eq_true.1 hsuffix⟩

end ContestInput

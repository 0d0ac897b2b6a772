import ContestInput.Bound.Extract
import ContestInput.Proofs.Bound.Scan
import ContestInput.Proofs.Bound.Signs
/-!
# Separators

A character that no clause can contain parts a description: what stands in front of it and what
stands behind it are read as two descriptions, one after the other. No clause reaches over the
character, and none is lost beside it.
-/

namespace ContestInput

namespace Bound

open Text

/-- A character that is in no identifier or number, is neither white space nor a sign, and is not
taken out of a description. -/
structure IsSeparator (c : Char) : Prop where
  isAlphanum : c.isAlphanum = false
  isBlank : isBlank c = false
  notMem : c ∉ ['_', '\u017F', '\u212A', '≤', '≦', '^']
  notMem_punctuation : c ∉ punctuation

namespace IsSeparator

variable {c : Char}

theorem isIdentifierChar (hc : IsSeparator c) : Bound.isIdentifierChar c = false := by
  have hmem := hc.notMem
  simp only [List.mem_cons, List.not_mem_nil, or_false, not_or] at hmem
  simp [Bound.isIdentifierChar, hc.isAlphanum, hmem]

theorem isDigit (hc : IsSeparator c) : c.isDigit = false := by
  rw [← Bool.not_eq_true]
  intro hdigit
  exact absurd (isIdentifierChar_of_isDigit hdigit) (by simp [hc.isIdentifierChar])

variable (hc : IsSeparator c) (s t : List Char)
include hc

/-- No spelling of a sign reaches over a separator. -/
theorem prepare_append : prepare (s ++ c :: t) = prepare s ++ c :: prepare t := by
  have hbare : bare (c :: t) = c :: bare t := by
    refine List.filter_cons_of_pos ?_
    rw [Bool.not_eq_true', ← Bool.not_eq_true, isPunctuation_iff]
    exact hc.notMem_punctuation
  have hletters : ∀ x ∈ ['l', 'L', 'e', 'E', 'q', 'Q'], c ≠ x := by
    rintro x hx rfl
    have hall : ['l', 'L', 'e', 'E', 'q', 'Q'].all Char.isAlphanum = true := by decide
    exact absurd (List.all_eq_true.1 hall c hx) (by simp [hc.isAlphanum])
  have hglyph : c ≠ '≤' := fun h => hc.notMem (by simp [h])
  have hhead : ∀ x ∈ (c :: bare t).head?, x ∉ ['e', 'E', 'q', 'Q'] := by
    rintro x ⟨⟩
    simp [hletters]
  have hplain : ∀ x ∈ [c], x ∉ ['l', 'L', '≤'] := by
    simp [hletters, hglyph]
  calc prepare (s ++ c :: t) = unifySigns (bare s ++ c :: bare t) := by
        rw [prepare, bare_append, hbare]
    _ = unifySigns (bare s) ++ unifySigns ([c] ++ bare t) := unifySigns_append hhead
    _ = prepare s ++ c :: prepare t := by
        rw [unifySigns_append_plain hplain]
        rfl

/-- The exponent at the end of a text is not longer with a separator behind it. -/
theorem exponent?_append :
    exponent? (s ++ c :: t) = ((exponent? s).1, (exponent? s).2 ++ c :: t) := by
  have hcaret : c ≠ '^' := fun h => hc.notMem (by simp [h])
  by_cases h : ∃ d rest, s = '^' :: d :: rest ∧ d.isDigit = true
  · obtain ⟨d, rest, rfl, hd⟩ := h
    rw [List.cons_append, List.cons_append, exponent?_caret hd, exponent?_caret hd,
      takeWhile_append_cons hc.isDigit, dropWhile_append_cons hc.isDigit]
  · rw [exponent?_eq_none, exponent?_eq_none]
    · intro d rest hs
      by_contra hd
      exact h ⟨d, rest, hs, by simpa using hd⟩
    · intro d rest hs
      match s with
      | [] => exact absurd (List.cons.inj hs).1 hcaret
      | [_] =>
        obtain rfl := (List.cons.inj (List.cons.inj hs).2).1
        exact hc.isDigit
      | a :: b :: s =>
        obtain ⟨rfl, htail⟩ := List.cons.inj hs
        obtain ⟨rfl, -⟩ := List.cons.inj htail
        by_contra hd
        exact h ⟨b, s, rfl, by simpa using hd⟩

theorem limit?_append : limit? (s ++ c :: t) =
    (limit? s).map fun found => (found.1, found.2.1, found.2.2 ++ c :: t) := by
  have hsign : c ≠ '≦' := fun h => hc.notMem (by simp [h])
  rw [limit?, limit?, dropWhile_append_cons hc.isBlank]
  cases s.dropWhile Text.isBlank with
  | nil => simp [hsign]
  | cons a u =>
    by_cases ha : a = '≦'
    · subst ha
      simp only [List.cons_append, dropWhile_append_cons hc.isBlank]
      cases u.dropWhile Text.isBlank with
      | nil => simp [hc.isDigit]
      | cons d v =>
        by_cases hd : d.isDigit = true
        · simp [hd, takeWhile_append_cons hc.isDigit, dropWhile_append_cons hc.isDigit,
            hc.exponent?_append]
        · simp [hd]
    · simp [ha]

theorem clauses_append : clauses (s ++ c :: t) = clauses s ++ clauses t := by
  induction s using clauses.induct with
  | case1 => rw [List.nil_append, clauses_cons_other hc.isIdentifierChar, clauses, List.nil_append]
  | case2 a s ha base k rest h ih =>
    have h' : limit? ((s ++ c :: t).dropWhile Bound.isIdentifierChar) =
        some (base, k, rest ++ c :: t) := by
      rw [dropWhile_append_cons hc.isIdentifierChar, hc.limit?_append, h]
      rfl
    rw [List.cons_append, clauses_cons_some ha h', clauses_cons_some ha h, ih,
      takeWhile_append_cons hc.isIdentifierChar, List.cons_append]
  | case3 a s ha h ih =>
    have h' : limit? ((s ++ c :: t).dropWhile Bound.isIdentifierChar) = none := by
      rw [dropWhile_append_cons hc.isIdentifierChar, hc.limit?_append, h]
      rfl
    rw [List.cons_append, clauses_cons_none ha h', clauses_cons_none ha h,
      dropWhile_append_cons hc.isIdentifierChar, ih]
  | case4 a s ha ih =>
    have ha : Bound.isIdentifierChar a = false := by simpa using ha
    rw [List.cons_append, clauses_cons_other ha, clauses_cons_other ha, ih]

end IsSeparator

/-- Around a separator a description declares what its two parts declare: the constants of the
first and then those of the second, or the fault of the first that has one. -/
theorem extract_append_separator {c : Char} (hc : IsSeparator c) (d d' : String) :
    extract (d ++ String.singleton c ++ d') = do
      let first ← extract d
      let second ← extract d'
      return first ++ second := by
  have htext : (d ++ String.singleton c ++ d').toList = d.toList ++ c :: d'.toList := by simp
  rw [extract, normalize_eq, htext, hc.prepare_append, hc.clauses_append, List.mapM_append]
  rfl

/-- Neither the caret in front of the separator nor the digits behind it are read with the other
half. -/
theorem extract_append_separator_semicolon :
    IsSeparator ';' ∧ extract ("1 ≤ N ≤ 10^" ++ String.singleton ';' ++ "5 ≤ M ≤ 3") = do
      let first ← extract "1 ≤ N ≤ 10^"
      let second ← extract "5 ≤ M ≤ 3"
      return first ++ second :=
  have hc : IsSeparator ';' := ⟨by decide, by decide, by decide, by decide⟩
  ⟨hc, extract_append_separator hc _ _⟩

end Bound

end ContestInput

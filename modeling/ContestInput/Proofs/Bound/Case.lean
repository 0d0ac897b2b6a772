import ContestInput.Bound.Extract
import ContestInput.Proofs.Bound.Scan
import ContestInput.Proofs.Bound.Signs
import ContestInput.Proofs.Constant
/-!
# The case of letters

Every step from a description to its constants goes the same way for a text and for the text in
upper case. The step maps are about ASCII letters only: the two capitals of identifiers that are
not in ASCII stay themselves, and so does every other character.
-/

namespace ContestInput

namespace Text

theorem upper_map_toUpper (s : List Char) : upper (s.map Char.toUpper) = upper s := by
  rw [upper, upper, List.flatMap_map]
  congr 1
  funext c
  by_cases h : c.toNat < 128
  · have h' : c.toUpper.toNat < 128 := by
      rw [toNat_toUpper]
      split <;> omega
    rw [upperChar, upperChar, if_pos h, if_pos h', toUpper_toUpper]
  · rw [toUpper_eq_self (by omega)]

variable {p : Char → Bool}

private theorem takeWhile_map_toUpper (hp : ∀ c, p c.toUpper = p c) (s : List Char) :
    (s.map Char.toUpper).takeWhile p = (s.takeWhile p).map Char.toUpper := by
  rw [List.takeWhile_map, show p ∘ Char.toUpper = p from funext hp]

private theorem dropWhile_map_toUpper (hp : ∀ c, p c.toUpper = p c) (s : List Char) :
    (s.map Char.toUpper).dropWhile p = (s.dropWhile p).map Char.toUpper := by
  rw [List.dropWhile_map, show p ∘ Char.toUpper = p from funext hp]

theorem toUpper_of_isDigit {c : Char} (h : c.isDigit = true) : c.toUpper = c := by
  apply toUpper_eq_self
  have := isDigit_iff.1 h
  omega

private theorem takeWhile_isDigit_map_toUpper (s : List Char) :
    (s.map Char.toUpper).takeWhile Char.isDigit = s.takeWhile Char.isDigit := by
  rw [takeWhile_map_toUpper isDigit_toUpper,
    List.map_congr_left fun _ hc => toUpper_of_isDigit (List.mem_takeWhile_imp hc), List.map_id']

end Text

namespace Bound

open Text

/-! ## Preparing the text -/

theorem isPunctuation_toUpper (c : Char) : isPunctuation c.toUpper = isPunctuation c := by
  rw [Bool.eq_iff_iff, isPunctuation, isPunctuation]
  simp only [decide_eq_true_eq, List.mem_cons, List.not_mem_nil, or_false]
  rw [toUpper_eq_iff_eq (by decide), toUpper_eq_iff_eq (by decide), toUpper_eq_iff_eq (by decide),
    toUpper_eq_iff_eq (by decide), toUpper_eq_iff_eq (by decide), toUpper_eq_iff_eq (by decide),
    toUpper_eq_iff_eq (by decide)]

theorem bare_map_toUpper (s : List Char) :
    bare (s.map Char.toUpper) = (bare s).map Char.toUpper := by
  rw [bare, bare, List.filter_map]
  congr 2
  funext c
  exact congrArg (!·) (isPunctuation_toUpper c)

theorem isSpelling_word_toUpper {l e q : Char} :
    IsSpelling [l.toUpper, e.toUpper, q.toUpper] ↔ IsSpelling [l, e, q] := by
  rw [isSpelling_word_iff, isSpelling_word_iff, toLower_toUpper, toLower_toUpper, toLower_toUpper]

theorem IsSpelling.map_toUpper {w : List Char} (h : IsSpelling w) :
    IsSpelling (w.map Char.toUpper) := by
  cases h with
  | glyph => exact .glyph
  | word hl he hq => exact isSpelling_word_toUpper.2 (.word hl he hq)

theorem IsSign.map_toUpper {w : List Char} (h : IsSign w) : IsSign (w.map Char.toUpper) := by
  cases h with
  | spelling h => exact .spelling h.map_toUpper
  | command h => exact .command h.map_toUpper
  | unified => exact .unified

theorem Unified.map_toUpper {s t : List Char} (h : Unified s t) :
    Unified (s.map Char.toUpper) (t.map Char.toUpper) := by
  induction h with
  | nil => exact .nil
  | spelling hw _ ih =>
    rw [List.map_append]
    exact .spelling hw.map_toUpper ih
  | @other c s _ hnone _ ih =>
    refine .other (fun hspelling => hnone ?_) ih
    rw [isSpelling_prefix_iff] at hspelling ⊢
    rcases hspelling with hc | ⟨e, q, r, hs, hw⟩
    · exact .inl ((toUpper_eq_iff_eq (by decide)).1 hc)
    · obtain ⟨e, s', rfl, rfl, htail⟩ := List.map_eq_cons_iff.1 hs
      obtain ⟨q, s'', rfl, rfl, -⟩ := List.map_eq_cons_iff.1 htail
      exact .inr ⟨e, q, s'', rfl, isSpelling_word_toUpper.1 hw⟩

theorem unifySigns_map_toUpper (s : List Char) :
    unifySigns (s.map Char.toUpper) = (unifySigns s).map Char.toUpper :=
  (unified_iff.1 (unified_unifySigns s).map_toUpper).symm

/-! ## Reading the clauses -/

theorem exponent?_map_toUpper (s : List Char) :
    exponent? (s.map Char.toUpper) = ((exponent? s).1, (exponent? s).2.map Char.toUpper) := by
  by_cases h : ∃ d rest, s = '^' :: d :: rest ∧ d.isDigit = true
  · obtain ⟨d, rest, rfl, hd⟩ := h
    have hd' : d.toUpper.isDigit = true := by rw [isDigit_toUpper, hd]
    change exponent? ('^' :: d.toUpper :: rest.map Char.toUpper) = _
    rw [exponent?_caret hd', exponent?_caret hd, takeWhile_isDigit_map_toUpper,
      dropWhile_map_toUpper isDigit_toUpper, toUpper_of_isDigit hd]
  · rw [exponent?_eq_none, exponent?_eq_none]
    · intro d rest hs
      by_contra hd
      exact h ⟨d, rest, hs, by simpa using hd⟩
    · intro d rest hs
      obtain ⟨c, s', rfl, hc, htail⟩ := List.map_eq_cons_iff.1 hs
      obtain ⟨d, s'', rfl, rfl, -⟩ := List.map_eq_cons_iff.1 htail
      obtain rfl := (toUpper_eq_iff_eq (by decide)).1 hc
      rw [isDigit_toUpper]
      by_contra hd
      exact h ⟨d, s'', rfl, by simpa using hd⟩

theorem limit?_map_toUpper (s : List Char) : limit? (s.map Char.toUpper) =
    (limit? s).map fun found => (found.1, found.2.1, found.2.2.map Char.toUpper) := by
  rw [limit?, limit?, dropWhile_map_toUpper isBlank_toUpper]
  cases s.dropWhile isBlank with
  | nil => rfl
  | cons c t =>
    by_cases hc : c = '≦'
    · subst hc
      have hsign : ('≦' :: t).map Char.toUpper = '≦' :: t.map Char.toUpper := rfl
      simp only [hsign, dropWhile_map_toUpper isBlank_toUpper]
      cases t.dropWhile isBlank with
      | nil => rfl
      | cons d u =>
        by_cases hd : d.isDigit = true
        · simp [hd, takeWhile_isDigit_map_toUpper, exponent?_map_toUpper,
            dropWhile_map_toUpper isDigit_toUpper, toUpper_of_isDigit hd]
        · simp [isDigit_toUpper, hd]
    · have hc' : c.toUpper ≠ '≦' := fun h => hc ((toUpper_eq_iff_eq (by decide)).1 h)
      simp [hc, hc']

def Clause.toUpper (c : Clause) : Clause :=
  { c with identifier := c.identifier.map Char.toUpper }

theorem clauses_map_toUpper (s : List Char) :
    clauses (s.map Char.toUpper) = (clauses s).map Clause.toUpper := by
  induction s using clauses.induct with
  | case1 => simp [clauses]
  | case2 c s hc base k rest h ih =>
    have hc' : isIdentifierChar c.toUpper = true := by rw [isIdentifierChar_toUpper, hc]
    have h' : limit? ((s.map Char.toUpper).dropWhile isIdentifierChar) =
        some (base, k, rest.map Char.toUpper) := by
      rw [dropWhile_map_toUpper isIdentifierChar_toUpper, limit?_map_toUpper, h]
      rfl
    rw [List.map_cons, clauses_cons_some hc' h', clauses_cons_some hc h, ih,
      takeWhile_map_toUpper isIdentifierChar_toUpper]
    rfl
  | case3 c s hc h ih =>
    have hc' : isIdentifierChar c.toUpper = true := by rw [isIdentifierChar_toUpper, hc]
    have h' : limit? ((s.map Char.toUpper).dropWhile isIdentifierChar) = none := by
      rw [dropWhile_map_toUpper isIdentifierChar_toUpper, limit?_map_toUpper, h]
      rfl
    rw [List.map_cons, clauses_cons_none hc' h', clauses_cons_none hc h,
      dropWhile_map_toUpper isIdentifierChar_toUpper, ih]
  | case4 c s hc ih =>
    have hc : isIdentifierChar c = false := by simpa using hc
    have hc' : isIdentifierChar c.toUpper = false := by rw [isIdentifierChar_toUpper, hc]
    rw [List.map_cons, clauses_cons_other hc', clauses_cons_other hc, ih]

theorem Clause.constant_toUpper (c : Clause) : c.toUpper.constant = c.constant := by
  have hname : constantName (String.ofList c.toUpper.identifier) =
      constantName (String.ofList c.identifier) := by
    rw [constantName_ofList, constantName_ofList, Clause.toUpper, upper_map_toUpper]
  rw [Clause.constant, Clause.constant, hname]
  rfl

end Bound

end ContestInput

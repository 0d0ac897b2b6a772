import ContestInput.Proofs.Bound.Match
/-!
# Steps of the scan

What the scan does with a run of identifier characters and what stands behind it: a run that no
limit follows is passed over as a whole, and a run with a limit is a clause.
-/

namespace ContestInput.Bound

open Text

theorem exponent?_caret {d : Char} (hd : d.isDigit = true) (rest : List Char) :
    exponent? ('^' :: d :: rest) =
      (some (d :: rest.takeWhile Char.isDigit), rest.dropWhile Char.isDigit) :=
  if_pos hd

theorem exponent?_eq_none {s : List Char} (h : ∀ d rest, s = '^' :: d :: rest → d.isDigit = false) :
    exponent? s = (none, s) := by
  unfold exponent?
  split
  · rw [if_neg (by simp [h _ _ rfl])]
  · rfl

/-- No number goes on at the start of the text. -/
def EndsNumber (t : List Char) : Prop :=
  ∀ c ∈ t.head?, c.isDigit = false ∧ c ≠ '^'

theorem endsNumber_of_blank {t : List Char} (h : ∀ c ∈ t.head?, isBlank c = true) :
    EndsNumber t := by
  intro c hc
  refine ⟨isDigit_eq_false_of_isBlank (h c hc), ?_⟩
  rintro rfl
  exact absurd (h '^' hc) (by decide)

theorem exponent?_exponentText {k : Option (List Char)} {t : List Char}
    (hk : ∀ digits ∈ k, digits ≠ [] ∧ ∀ c ∈ digits, c.isDigit = true) (ht : EndsNumber t) :
    exponent? (exponentText k ++ t) = (k, t) := by
  cases k with
  | none =>
    apply exponent?_eq_none
    rintro d rest rfl
    exact absurd rfl (ht '^' rfl).2
  | some digits =>
    obtain ⟨hne, hdigits⟩ := hk digits rfl
    obtain ⟨d, ds, rfl⟩ := List.exists_cons_of_ne_nil hne
    obtain ⟨hd, hds⟩ := List.forall_mem_cons.1 hdigits
    have hend : ∀ c ∈ t.head?, c.isDigit = false := fun c hc => (ht c hc).1
    change exponent? ('^' :: d :: (ds ++ t)) = _
    rw [exponent?_caret hd, takeWhile_append hds hend, dropWhile_append hds hend]

variable {c : Char} {ident s base rest : List Char} {k : Option (List Char)}

theorem clauses_cons_other (hc : isIdentifierChar c = false) : clauses (c :: s) = clauses s := by
  rw [clauses, if_neg (by simp [hc])]

theorem clauses_append_other (h : ∀ c ∈ ident, isIdentifierChar c = false) :
    clauses (ident ++ s) = clauses s := by
  induction ident with
  | nil => rfl
  | cons c ident ih =>
    obtain ⟨hc, hident⟩ := List.forall_mem_cons.1 h
    rw [List.cons_append, clauses_cons_other hc, ih hident]

theorem clauses_cons_none (hc : isIdentifierChar c = true)
    (h : limit? (s.dropWhile isIdentifierChar) = none) :
    clauses (c :: s) = clauses (s.dropWhile isIdentifierChar) := by
  rw [clauses, if_pos hc]
  split
  · rename_i hsome
    rw [h] at hsome
    exact absurd hsome (by simp)
  · rfl

theorem clauses_cons_some (hc : isIdentifierChar c = true)
    (h : limit? (s.dropWhile isIdentifierChar) = some (base, k, rest)) :
    clauses (c :: s) = ⟨c :: s.takeWhile isIdentifierChar, base, k⟩ :: clauses rest := by
  rw [clauses, if_pos hc]
  split
  · rename_i hsome
    rw [h] at hsome
    obtain ⟨rfl, rfl, rfl⟩ := by simpa using hsome
    rfl
  · rename_i hnone
    rw [h] at hnone
    exact absurd hnone (by simp)

theorem clauses_append_none (hident : ∀ c ∈ ident, isIdentifierChar c = true)
    (hs : ∀ c ∈ s.head?, isIdentifierChar c = false) (h : limit? s = none) :
    clauses (ident ++ s) = clauses s := by
  cases ident with
  | nil => rfl
  | cons c ident =>
    obtain ⟨hc, hident⟩ := List.forall_mem_cons.1 hident
    have hdrop : (ident ++ s).dropWhile isIdentifierChar = s := dropWhile_append hident hs
    rw [List.cons_append, clauses_cons_none hc (by rw [hdrop, h]), hdrop]

theorem clauses_append_some (hne : ident ≠ []) (hident : ∀ c ∈ ident, isIdentifierChar c = true)
    (hs : ∀ c ∈ s.head?, isIdentifierChar c = false) (h : limit? s = some (base, k, rest)) :
    clauses (ident ++ s) = ⟨ident, base, k⟩ :: clauses rest := by
  obtain ⟨c, ident, rfl⟩ := List.exists_cons_of_ne_nil hne
  obtain ⟨hc, hident⟩ := List.forall_mem_cons.1 hident
  rw [List.cons_append, clauses_cons_some hc (by rw [dropWhile_append hident hs, h]),
    takeWhile_append hident hs]

end ContestInput.Bound

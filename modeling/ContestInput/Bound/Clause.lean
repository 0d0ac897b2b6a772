import ContestInput.Text.Blank
/-!
# Bounding clauses

A description states its limits in clauses such as `N ≤ 10^5`: an identifier, a comparison sign
and a number, or a power of two numbers. Grouping, thousands separators and escapes are taken out
of the text first and every spelling of the sign becomes the same one; then the clauses are the
leftmost, longest ones that do not overlap.
-/

namespace ContestInput.Bound

/-- Characters that group, separate or escape and carry no meaning for a bound. -/
def isPunctuation (c : Char) : Bool :=
  c ∈ [',', '\\', '(', ')', '{', '}', '|']

/-- Writes every spelling of "at most" with the one sign that clauses are read with. -/
def unifySigns : List Char → List Char
  | '≤' :: rest => '≦' :: unifySigns rest
  | a :: b :: c :: rest =>
    if a.toLower = 'l' && b.toLower = 'e' && c.toLower = 'q' then '≦' :: unifySigns rest
    else a :: unifySigns (b :: c :: rest)
  | c :: rest => c :: unifySigns rest
  | [] => []

def normalize (description : String) : List Char :=
  unifySigns (description.toList.filter (!isPunctuation ·))

/-- Letters, digits and the underscore, of ASCII, and the two characters whose other case is an
ASCII letter: the long s and the Kelvin sign. -/
def isIdentifierChar (c : Char) : Bool :=
  c.isAlphanum || c = '_' || c = '\u017F' || c = '\u212A'

structure Clause where
  identifier : List Char
  base : List Char
  exponent : Option (List Char)
  deriving DecidableEq, Repr

/-- The exponent at the start of the text, and the text behind it. A caret counts only before a
digit. -/
def exponent? : List Char → Option (List Char) × List Char
  | '^' :: d :: rest =>
    if d.isDigit then
      (some (d :: rest.takeWhile Char.isDigit), rest.dropWhile Char.isDigit)
    else (none, '^' :: d :: rest)
  | rest => (none, rest)

/-- What follows an identifier in a clause: the sign, the base and an exponent, white space
allowed before and after the sign; and the text behind it. -/
def limit? (s : List Char) : Option (List Char × Option (List Char) × List Char) :=
  match s.dropWhile Text.isBlank with
  | '≦' :: rest =>
    match rest.dropWhile Text.isBlank with
    | d :: rest =>
      if d.isDigit then
        some (d :: rest.takeWhile Char.isDigit, exponent? (rest.dropWhile Char.isDigit))
      else none
    | [] => none
  | _ => none

theorem length_dropWhile_le (p : Char → Bool) (s : List Char) :
    (s.dropWhile p).length ≤ s.length :=
  (List.dropWhile_suffix p).length_le

theorem length_exponent?_le (s : List Char) : (exponent? s).2.length ≤ s.length := by
  unfold exponent?
  split
  · split
    · have := length_dropWhile_le Char.isDigit ‹_›
      simp
      omega
    · simp
  · simp

private theorem length_limit?_lt {s base rest : List Char} {k : Option (List Char)}
    (h : limit? s = some (base, k, rest)) : rest.length < s.length := by
  unfold limit? at h
  split at h
  · rename_i t ht
    have hs := length_dropWhile_le Text.isBlank s
    split at h
    · rename_i d u hu
      have ht' := length_dropWhile_le Text.isBlank t
      split at h
      · have he := length_exponent?_le (u.dropWhile Char.isDigit)
        have hd := length_dropWhile_le Char.isDigit u
        simp only [Option.some.injEq, Prod.mk.injEq] at h
        rw [h.2] at he
        simp only [ht, hu, List.length_cons] at hs ht'
        simp only at he
        omega
      · simp at h
    · simp at h
  · simp at h

/-- The clauses of a text, from left to right. After a clause the reading goes on right behind
its number, so the rest of a word may be the next identifier. -/
def clauses : List Char → List Clause
  | [] => []
  | c :: s =>
    if isIdentifierChar c then
      match _ : limit? (s.dropWhile isIdentifierChar) with
      | some (base, exponent, rest) =>
        ⟨c :: s.takeWhile isIdentifierChar, base, exponent⟩ :: clauses rest
      | none => clauses (s.dropWhile isIdentifierChar)
    else clauses s
termination_by s => s.length
decreasing_by
  · have := length_limit?_lt ‹limit? _ = some _›
    have := length_dropWhile_le isIdentifierChar s
    simp only [List.length_cons]
    omega
  · have := length_dropWhile_le isIdentifierChar s
    simp only [List.length_cons]
    omega
  · simp

example : clauses (normalize "1 \\leq N ≤ 10^5M≦7^") =
    [⟨['N'], ['1', '0'], some ['5']⟩, ⟨['M'], ['7'], none⟩] := by
  decide +kernel

end ContestInput.Bound

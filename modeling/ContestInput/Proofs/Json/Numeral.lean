import ContestInput.Json.Number
import ContestInput.Proofs.Text.Classes
import Mathlib.Data.List.TakeWhile
/-!
# The written form of numbers

The grammar of JSON numbers and its agreement with the scanner: whatever the scanner takes for a
number is written by the rules, and every number written by the rules is taken as a whole where
nothing follows that could go on with it.
-/

namespace ContestInput.Json

def IsDigits (s : List Char) : Prop :=
  s ≠ [] ∧ ∀ c ∈ s, c.isDigit = true

/-- Digits with no zero in front of others. -/
def IsWhole (s : List Char) : Prop :=
  IsDigits s ∧ (s.head? = some '0' → s = ['0'])

inductive IsFraction : List Char → List Char → Prop where
  | none : IsFraction [] []
  | some {digits : List Char} : IsDigits digits → IsFraction digits ('.' :: digits)

inductive IsExponent : Option (Bool × List Char) → List Char → Prop where
  | none : IsExponent none []
  | unsigned {e : Char} {digits : List Char} : e = 'e' ∨ e = 'E' → IsDigits digits →
      IsExponent (some (false, digits)) (e :: digits)
  | plus {e : Char} {digits : List Char} : e = 'e' ∨ e = 'E' → IsDigits digits →
      IsExponent (some (false, digits)) (e :: '+' :: digits)
  | minus {e : Char} {digits : List Char} : e = 'e' ∨ e = 'E' → IsDigits digits →
      IsExponent (some (true, digits)) (e :: '-' :: digits)

inductive Numeral.Written : Numeral → List Char → Prop where
  | positive {whole fraction f e : List Char} {exponent : Option (Bool × List Char)} :
      IsWhole whole → IsFraction fraction f → IsExponent exponent e →
      Written ⟨false, whole, fraction, exponent⟩ (whole ++ (f ++ e))
  | negative {whole fraction f e : List Char} {exponent : Option (Bool × List Char)} :
      IsWhole whole → IsFraction fraction f → IsExponent exponent e →
      Written ⟨true, whole, fraction, exponent⟩ ('-' :: (whole ++ (f ++ e)))

def EndsNumber (rest : List Char) : Prop :=
  ∀ c ∈ rest.head?, c.isDigit = false ∧ c ≠ '.' ∧ c ≠ 'e' ∧ c ≠ 'E'

theorem IsDigits.exists_cons {s : List Char} (h : IsDigits s) :
    ∃ d ds, s = d :: ds ∧ d.isDigit = true := by
  obtain ⟨d, ds, rfl⟩ := List.exists_cons_of_ne_nil h.1
  exact ⟨d, ds, rfl, h.2 d List.mem_cons_self⟩

namespace Numeral

variable {s digits rest f e : List Char} {exponent : Option (Bool × List Char)}

theorem digits?_append (h : IsDigits digits) (hrest : ∀ c ∈ rest.head?, c.isDigit = false) :
    digits? (digits ++ rest) = some (digits, rest) := by
  rw [digits?, Text.takeWhile_append h.2 hrest, Text.dropWhile_append h.2 hrest]
  obtain ⟨d, ds, rfl, -⟩ := h.exists_cons
  rfl

theorem digits?_sound (h : digits? s = some (digits, rest)) :
    IsDigits digits ∧ s = digits ++ rest := by
  unfold digits? at h
  split at h
  · exact absurd h (by simp)
  · rename_i hne
    obtain ⟨rfl, rfl⟩ := Prod.mk.inj (Option.some.inj h)
    refine ⟨⟨hne, fun c hc => List.mem_takeWhile_imp hc⟩, ?_⟩
    exact (List.takeWhile_append_dropWhile).symm

theorem whole?_append (h : IsWhole digits) (hrest : ∀ c ∈ rest.head?, c.isDigit = false) :
    whole? (digits ++ rest) = some (digits, rest) := by
  unfold whole?
  rw [digits?_append h.1 hrest]
  split
  · rename_i heq
    obtain ⟨rfl, -⟩ := Prod.mk.inj (Option.some.inj heq)
    have := h.2 rfl
    simp at this
  · rfl

theorem whole?_sound (h : whole? s = some (digits, rest)) :
    IsWhole digits ∧ s = digits ++ rest := by
  unfold whole? at h
  split at h
  · exact absurd h (by simp)
  · rename_i hzero
    obtain ⟨hdigits, hs⟩ := digits?_sound h
    refine ⟨⟨hdigits, ?_⟩, hs⟩
    intro hhead
    obtain ⟨d, ds, rfl, -⟩ := hdigits.exists_cons
    obtain rfl : d = '0' := by simpa using hhead
    cases ds with
    | nil => rfl
    | cons d ds => exact absurd h (hzero _ _ _)

theorem fraction?_append (h : IsFraction digits f)
    (hrest : ∀ c ∈ rest.head?, c.isDigit = false ∧ c ≠ '.') :
    fraction? (f ++ rest) = some (digits, rest) := by
  cases h with
  | none =>
    cases rest with
    | nil => rfl
    | cons c rest =>
      have hc : c ≠ '.' := (hrest c rfl).2
      simp [fraction?, hc]
  | some hdigits => exact digits?_append hdigits fun c hc => (hrest c hc).1

theorem fraction?_sound (h : fraction? s = some (digits, rest)) :
    ∃ f, IsFraction digits f ∧ s = f ++ rest := by
  unfold fraction? at h
  split at h
  · obtain ⟨hdigits, rfl⟩ := digits?_sound h
    exact ⟨_, .some hdigits, rfl⟩
  · obtain ⟨rfl, rfl⟩ := Prod.mk.inj (Option.some.inj h)
    exact ⟨[], .none, rfl⟩

theorem exponent?_append (h : IsExponent exponent e) (hrest : EndsNumber rest) :
    exponent? (e ++ rest) = some (exponent, rest) := by
  have hdigit : ∀ c ∈ rest.head?, c.isDigit = false := fun c hc => (hrest c hc).1
  cases h with
  | none =>
    cases rest with
    | nil => rfl
    | cons c rest =>
      obtain ⟨-, -, he, hE⟩ := hrest c rfl
      simp [exponent?, he, hE]
  | unsigned he hdigits =>
    have hread := digits?_append hdigits hdigit
    obtain ⟨d, ds, rfl, hd⟩ := hdigits.exists_cons
    have hminus : d ≠ '-' := by rintro rfl; exact absurd hd (by decide)
    have hplus : d ≠ '+' := by rintro rfl; exact absurd hd (by decide)
    rw [List.cons_append] at hread
    simp [exponent?, he, hread, hminus, hplus]
  | plus he hdigits => simp [exponent?, he, digits?_append hdigits hdigit]
  | minus he hdigits => simp [exponent?, he, digits?_append hdigits hdigit]

private theorem digits?_map_sound {negative : Bool}
    (h : (digits? s).map (fun (k, rest) => (some (negative, k), rest)) = some (exponent, rest)) :
    ∃ digits, exponent = some (negative, digits) ∧ IsDigits digits ∧ s = digits ++ rest := by
  obtain ⟨⟨digits, rest'⟩, hread, h⟩ := Option.map_eq_some_iff.1 h
  obtain ⟨rfl, rfl⟩ := Prod.mk.inj h
  exact ⟨digits, rfl, digits?_sound hread⟩

theorem exponent?_sound (h : exponent? s = some (exponent, rest)) :
    ∃ e, IsExponent exponent e ∧ s = e ++ rest := by
  unfold exponent? at h
  split at h
  · rename_i c s
    split at h
    · rename_i hc
      have he : c = 'e' ∨ c = 'E' := by simpa using hc
      split at h
      · obtain ⟨digits, rfl, hdigits, rfl⟩ := digits?_map_sound h
        exact ⟨_, .minus he hdigits, rfl⟩
      · obtain ⟨digits, rfl, hdigits, rfl⟩ := digits?_map_sound h
        exact ⟨_, .plus he hdigits, rfl⟩
      · obtain ⟨digits, rfl, hdigits, rfl⟩ := digits?_map_sound h
        exact ⟨_, .unsigned he hdigits, rfl⟩
    · obtain ⟨rfl, rfl⟩ := Prod.mk.inj (Option.some.inj h)
      exact ⟨[], .none, rfl⟩
  · obtain ⟨rfl, rfl⟩ := Prod.mk.inj (Option.some.inj h)
    exact ⟨[], .none, rfl⟩

/-- An exponent starts with nothing that could belong to the digits before it. -/
private theorem head?_exponent (h : IsExponent exponent e) (hrest : EndsNumber rest) :
    ∀ c ∈ (e ++ rest).head?, c.isDigit = false ∧ c ≠ '.' := by
  have hletter {c d : Char} (hd : d = 'e' ∨ d = 'E') (hc : c = d) :
      c.isDigit = false ∧ c ≠ '.' := by
    rcases hd with rfl | rfl
    · exact hc ▸ by decide
    · exact hc ▸ by decide
  intro c hc
  cases h with
  | none => exact ⟨(hrest c hc).1, (hrest c hc).2.1⟩
  | unsigned he _ => exact hletter he (by simpa [eq_comm] using hc)
  | plus he _ => exact hletter he (by simpa [eq_comm] using hc)
  | minus he _ => exact hletter he (by simpa [eq_comm] using hc)

private theorem head?_fraction (h : IsFraction digits f)
    (hrest : ∀ c ∈ rest.head?, c.isDigit = false ∧ c ≠ '.') :
    ∀ c ∈ (f ++ rest).head?, c.isDigit = false := by
  intro c hc
  cases h with
  | none => exact (hrest c hc).1
  | some _ =>
    obtain rfl : '.' = c := by simpa using hc
    decide

theorem unsigned?_append {whole fraction : List Char} (negative : Bool) (hw : IsWhole whole)
    (hf : IsFraction fraction f) (he : IsExponent exponent e) (hrest : EndsNumber rest) :
    unsigned? negative (whole ++ (f ++ (e ++ rest))) =
      some (⟨negative, whole, fraction, exponent⟩, rest) := by
  have hexp := head?_exponent he hrest
  simp only [unsigned?, Option.bind_eq_bind]
  rw [whole?_append hw (head?_fraction hf hexp), Option.bind_some, fraction?_append hf hexp,
    Option.bind_some, exponent?_append he hrest, Option.bind_some]

theorem unsigned?_sound {negative : Bool} {n : Numeral}
    (h : unsigned? negative s = some (n, rest)) :
    ∃ whole fraction exponent f e, n = ⟨negative, whole, fraction, exponent⟩ ∧ IsWhole whole ∧
      IsFraction fraction f ∧ IsExponent exponent e ∧ s = whole ++ (f ++ (e ++ rest)) := by
  simp only [unsigned?, Option.bind_eq_bind, Option.bind_eq_some_iff, Prod.exists,
    Option.some.injEq, Prod.mk.injEq] at h
  obtain ⟨whole, s₁, hw, fraction, s₂, hf, exponent, s₃, he, rfl, rfl⟩ := h
  obtain ⟨hwhole, rfl⟩ := whole?_sound hw
  obtain ⟨f, hfraction, rfl⟩ := fraction?_sound hf
  obtain ⟨e, hexponent, rfl⟩ := exponent?_sound he
  exact ⟨whole, fraction, exponent, f, e, rfl, hwhole, hfraction, hexponent, rfl⟩

variable {n : Numeral} {w : List Char}

theorem Written.exists_cons (h : n.Written w) :
    ∃ c s, w = c :: s ∧ (c.isDigit = true ∨ c = '-') := by
  cases h with
  | positive hw _ _ =>
    obtain ⟨d, ds, rfl, hd⟩ := hw.1.exists_cons
    exact ⟨d, _, rfl, .inl hd⟩
  | negative _ _ _ => exact ⟨'-', _, rfl, .inr rfl⟩

theorem scan?_append (h : n.Written w) (hrest : EndsNumber rest) :
    scan? (w ++ rest) = some (n, rest) := by
  cases h with
  | positive hw hf he =>
    have hread := unsigned?_append false hw hf he hrest
    obtain ⟨d, ds, rfl, hd⟩ := hw.1.exists_cons
    have hminus : d ≠ '-' := by rintro rfl; exact absurd hd (by decide)
    simp only [List.append_assoc, List.cons_append] at hread ⊢
    rw [scan?.eq_2 _ (fun _ heq => hminus (List.cons.inj heq).1), hread]
  | negative hw hf he =>
    simp only [List.append_assoc, List.cons_append]
    exact unsigned?_append true hw hf he hrest

theorem scan?_sound (h : scan? s = some (n, rest)) : ∃ w, n.Written w ∧ s = w ++ rest := by
  unfold scan? at h
  split at h
  · obtain ⟨whole, fraction, exponent, f, e, rfl, hw, hf, he, rfl⟩ := unsigned?_sound h
    exact ⟨_, .negative hw hf he, by simp⟩
  · obtain ⟨whole, fraction, exponent, f, e, rfl, hw, hf, he, rfl⟩ := unsigned?_sound h
    exact ⟨_, .positive hw hf he, by simp⟩

theorem real_ne_natural (n : Numeral) (w : UInt64) : n.real ≠ .natural w := by
  unfold real
  simp only
  split
  · simp
  · simp

/-- The numbers that stand for an unsigned integer are those without any sign, fraction or
exponent, below 2^64. -/
theorem value_eq_natural_iff {w : UInt64} : n.value = .natural w ↔
    n.negative = false ∧ n.fraction = [] ∧ n.exponent = none ∧
      Text.ofDigits n.whole = w.toNat := by
  obtain ⟨negative, whole, fraction, exponent⟩ := n
  rw [← Text.word?_eq_some_iff]
  unfold value
  simp only [Bool.and_eq_true, List.isEmpty_iff, Option.isNone_iff_eq_none]
  split
  · rename_i h
    obtain ⟨rfl, rfl⟩ := h
    cases negative with
    | false =>
      cases hw : Text.word? whole with
      | none => simp [real_ne_natural]
      | some v => simp
    | true =>
      cases hw : Text.word? whole with
      | none => simp [real_ne_natural]
      | some v =>
        simp only
        split
        · simp
        · simp [real_ne_natural]
  · rename_i h
    constructor
    · intro hreal
      exact absurd hreal (real_ne_natural _ w)
    · intro hplain
      exact absurd ⟨hplain.2.1, hplain.2.2.1⟩ h

end Numeral

end ContestInput.Json

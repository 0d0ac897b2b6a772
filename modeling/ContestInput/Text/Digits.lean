/-!
# Decimal digits

A run of ASCII digits and the machine word it stands for. Leading zeros carry no weight, so a
run of any length may fit.
-/

namespace ContestInput.Text

def ofDigits (digits : List Char) : Nat :=
  Nat.ofDigitChars 10 digits 0

/-- The 64-bit word that a run of digits denotes, if it fits. -/
def word? (digits : List Char) : Option UInt64 :=
  if ofDigits digits < UInt64.size then some (UInt64.ofNat (ofDigits digits)) else none

theorem word?_eq_some_iff {digits : List Char} {w : UInt64} :
    word? digits = some w ↔ ofDigits digits = w.toNat := by
  unfold word?
  split
  · rename_i hlt
    rw [Option.some.injEq, ← UInt64.toNat_inj, UInt64.toNat_ofNat_of_lt' hlt]
  · rename_i hlt
    have := w.toNat_lt_size
    constructor
    · intro h
      exact absurd h (by simp)
    · intro h
      omega

theorem word?_eq_none_iff {digits : List Char} :
    word? digits = none ↔ UInt64.size ≤ ofDigits digits := by
  unfold word?
  by_cases h : ofDigits digits < UInt64.size
  · rw [if_pos h]
    simpa using h
  · rw [if_neg h]
    simpa using h

theorem ofDigits_toDigits (n : Nat) : ofDigits (Nat.toDigits 10 n) = n :=
  Nat.ofDigitChars_ten_toDigits

theorem word?_toDigits (w : UInt64) : word? (Nat.toDigits 10 w.toNat) = some w := by
  simp [word?, ofDigits_toDigits, UInt64.toNat_lt_size]

theorem head?_toDigits {n : Nat} (h : (Nat.toDigits 10 n).head? = some '0') : n = 0 := by
  induction n using Nat.strongRecOn with
  | ind n ih =>
    by_cases hn : n < 10
    · rw [Nat.toDigits_of_lt_base hn] at h
      simpa using h
    · rw [Nat.toDigits_of_base_le (by omega) (by omega), List.head?_append] at h
      cases hhead : (Nat.toDigits 10 (n / 10)).head? with
      | none => exact absurd (List.head?_eq_none_iff.1 hhead) Nat.toDigits_ne_nil
      | some c =>
        rw [hhead, Option.some_or] at h
        have := ih (n / 10) (by omega) (hhead.trans h)
        omega

end ContestInput.Text

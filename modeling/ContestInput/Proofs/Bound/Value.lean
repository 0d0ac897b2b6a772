import ContestInput.Bound.Extract
import Mathlib.Algebra.Group.Nat.Even
import Mathlib.Data.Nat.Digits.Defs
import Mathlib.Tactic.Ring
/-!
# The exact value of a bound

A bound has a value exactly when its parts and the exact power fit their words, and the value is
that power. The repeated squaring neither wraps nor gives up on a power that fits: every square
that it takes divides the rest of the result.
-/

namespace ContestInput.Bound

def fit? (n : Nat) : Option UInt64 :=
  if n < UInt64.size then some (UInt64.ofNat n) else none

theorem fit?_eq_some_iff {n : Nat} {w : UInt64} : fit? n = some w ↔ w.toNat = n := by
  unfold fit?
  split
  · rename_i h
    rw [Option.some.injEq]
    constructor
    · rintro rfl
      exact UInt64.toNat_ofNat_of_lt' h
    · rintro rfl
      exact UInt64.ofNat_toNat
  · rename_i h
    constructor
    · intro hw
      exact absurd hw (by simp)
    · rintro rfl
      exact absurd w.toNat_lt_size h

theorem fit?_eq_none_iff {n : Nat} : fit? n = none ↔ UInt64.size ≤ n := by
  unfold fit?
  split <;> simp <;> omega

private theorem fit?_toNat (w : UInt64) : fit? w.toNat = some w :=
  fit?_eq_some_iff.2 rfl

theorem mul?_eq_fit? (a b : UInt64) : mul? a b = fit? (a.toNat * b.toNat) := by
  unfold mul? fit?
  split
  · rw [UInt64.ofNat_mul, UInt64.ofNat_toNat, UInt64.ofNat_toNat]
  · rfl

theorem word?_eq_fit? (digits : List Char) : Text.word? digits = fit? (Text.ofDigits digits) :=
  rfl

/-- A computation that starts with a product, where a product that does not fit is part of a
result that does not fit either. -/
private theorem mul?_bind_eq_fit? {a b : UInt64} {f : UInt64 → Option UInt64} {n : Nat}
    (hfits : ∀ w : UInt64, w.toNat = a.toNat * b.toNat → f w = fit? n)
    (hlarge : UInt64.size ≤ a.toNat * b.toNat → UInt64.size ≤ n) :
    (mul? a b >>= f) = fit? n := by
  cases hm : mul? a b with
  | some w =>
    rw [mul?_eq_fit?, fit?_eq_some_iff] at hm
    exact hfits w hm
  | none =>
    rw [mul?_eq_fit?, fit?_eq_none_iff] at hm
    exact (fit?_eq_none_iff.2 (hlarge hm)).symm

private theorem pow_eq_pow_square (b e : Nat) : b ^ e = b ^ (e % 2) * (b * b) ^ (e / 2) := by
  conv_lhs => rw [← Nat.mod_add_div e 2]
  rw [pow_add, pow_mul, sq]

/-- The loop computes the exact product with a power. Its invariant is that the product so far is
zero only where the base is, so that no square is taken in vain. -/
theorem powTimes?_eq_fit? (acc base : UInt64) (exponent : Nat)
    (h : base.toNat = 0 ∨ 0 < acc.toNat) :
    powTimes? acc base exponent = fit? (acc.toNat * base.toNat ^ exponent) := by
  induction exponent using Nat.strongRecOn generalizing acc base with
  | ind exponent ih =>
    rw [powTimes?]
    split
    case isTrue h0 => rw [h0, pow_zero, Nat.mul_one, fit?_toNat]
    case isFalse h0 =>
      split
      case isTrue h1 => rw [h1, pow_one, mul?_eq_fit?]
      case isFalse h1 =>
        have hhalf : 1 ≤ exponent / 2 := by omega
        have hsquare (acc' : UInt64) (h' : base.toNat = 0 ∨ 0 < acc'.toNat) :
            (mul? base base >>= fun square => powTimes? acc' square (exponent / 2)) =
              fit? (acc'.toNat * (base.toNat * base.toNat) ^ (exponent / 2)) := by
          apply mul?_bind_eq_fit?
          · intro square hs
            rw [ih _ (by omega) acc' square (h'.imp_left fun hb => by rw [hs, hb]), hs]
          · intro hs
            have hb : 0 < base.toNat * base.toNat := lt_of_lt_of_le (by decide) hs
            have hacc : 0 < acc'.toNat := h'.resolve_left (Nat.pos_of_mul_pos_right hb).ne'
            calc UInt64.size ≤ (base.toNat * base.toNat) ^ 1 := by rwa [pow_one]
              _ ≤ (base.toNat * base.toNat) ^ (exponent / 2) := Nat.pow_le_pow_right hb hhalf
              _ ≤ acc'.toNat * (base.toNat * base.toNat) ^ (exponent / 2) :=
                  Nat.le_mul_of_pos_left _ hacc
        rw [pow_eq_pow_square base.toNat exponent, ← Nat.mul_assoc]
        split
        case isTrue hodd =>
          rw [hodd, pow_one]
          apply mul?_bind_eq_fit?
          · intro acc' hm
            rw [← hm]
            apply hsquare
            rcases Nat.eq_zero_or_pos base.toNat with hb | hb
            · exact .inl hb
            · exact .inr (hm ▸ Nat.mul_pos (h.resolve_left hb.ne') hb)
          · intro hm
            have hb : 0 < base.toNat := Nat.pos_of_mul_pos_left (lt_of_lt_of_le (by decide) hm)
            exact hm.trans (Nat.le_mul_of_pos_right _ (Nat.pow_pos (Nat.mul_pos hb hb)))
        case isFalse heven =>
          rw [show exponent % 2 = 0 by omega, pow_zero, Nat.mul_one]
          exact hsquare acc h

theorem pow?_eq_fit? (base : UInt64) (exponent : Nat) :
    pow? base exponent = fit? (base.toNat ^ exponent) := by
  rw [pow?, powTimes?_eq_fit? _ _ _ (.inr (by decide))]
  simp

def amount (base : List Char) : Option (List Char) → Nat
  | none => Text.ofDigits base
  | some digits => Text.ofDigits base ^ Text.ofDigits digits

/-- A bound with a value: the base fits 64 bits, the exponent 32 and the number itself 64. -/
structure Representable (base : List Char) (exponent : Option (List Char)) : Prop where
  base_lt : Text.ofDigits base < UInt64.size
  exponent_lt : ∀ digits ∈ exponent, Text.ofDigits digits < UInt32.size
  amount_lt : amount base exponent < UInt64.size

theorem value?_eq_some_iff {base : List Char} {exponent : Option (List Char)} {v : UInt64} :
    value? base exponent = some v ↔
      Representable base exponent ∧ v.toNat = amount base exponent := by
  rw [value?, Option.bind_eq_bind, Option.bind_eq_some_iff]
  simp only [word?_eq_fit?, fit?_eq_some_iff]
  constructor
  · rintro ⟨b, hb, h⟩
    have hlt : Text.ofDigits base < UInt64.size := hb ▸ b.toNat_lt_size
    cases exponent with
    | none =>
      obtain rfl := Option.some.inj h
      exact ⟨⟨hlt, by simp, hlt⟩, hb⟩
    | some digits =>
      simp only at h
      split at h
      · rename_i hk
        rw [pow?_eq_fit?, fit?_eq_some_iff, hb] at h
        exact ⟨⟨hlt, by simpa using hk, by rw [amount, ← h]; exact v.toNat_lt_size⟩, h⟩
      · exact absurd h (by simp)
  · rintro ⟨hfits, hv⟩
    refine ⟨UInt64.ofNat (Text.ofDigits base), UInt64.toNat_ofNat_of_lt' hfits.base_lt, ?_⟩
    cases exponent with
    | none =>
      rw [Option.some.injEq, ← UInt64.toNat_inj, UInt64.toNat_ofNat_of_lt' hfits.base_lt]
      exact hv.symm
    | some digits =>
      simp only
      rw [if_pos (hfits.exponent_lt digits rfl), pow?_eq_fit?, fit?_eq_some_iff,
        UInt64.toNat_ofNat_of_lt' hfits.base_lt]
      exact hv

theorem value?_eq_none_iff {base : List Char} {exponent : Option (List Char)} :
    value? base exponent = none ↔ ¬ Representable base exponent := by
  constructor
  · intro h hfits
    have hw : (UInt64.ofNat (amount base exponent)).toNat = amount base exponent :=
      UInt64.toNat_ofNat_of_lt' hfits.amount_lt
    rw [value?_eq_some_iff.2 ⟨hfits, hw⟩] at h
    exact absurd h (by simp)
  · intro h
    cases hv : value? base exponent with
    | none => rfl
    | some v => exact absurd (value?_eq_some_iff.1 hv).1 h

theorem value_eq_ok_iff {base : List Char} {exponent : Option (List Char)} {v : UInt64} :
    value base exponent = .ok v ↔ Representable base exponent ∧ v.toNat = amount base exponent := by
  rw [value, ← value?_eq_some_iff]
  cases value? base exponent with
  | none => simp
  | some w => simp

theorem value_eq_error_iff {base : List Char} {exponent : Option (List Char)} {fault : Fault} :
    value base exponent = .error fault ↔
      ¬ Representable base exponent ∧ fault = .constantOverflow (written base exponent) := by
  rw [value, ← value?_eq_none_iff]
  cases value? base exponent with
  | none => simp [eq_comm]
  | some w => simp

/-! ## Bounds as they are written -/

theorem ofDigits_eq_places (digits : List Char) : Text.ofDigits digits =
    Nat.ofDigits 10 (digits.map fun c => c.toNat - '0'.toNat).reverse := by
  have hplaces (n : Nat) : Nat.ofDigitChars 10 digits n = n * 10 ^ digits.length +
      Nat.ofDigits 10 (digits.map fun c => c.toNat - '0'.toNat).reverse := by
    induction digits generalizing n with
    | nil => simp
    | cons c digits ih =>
      rw [Nat.ofDigitChars_cons, ih, List.map_cons, List.reverse_cons, Nat.ofDigits_append,
        Nat.ofDigits_singleton, List.length_reverse, List.length_map, List.length_cons, pow_succ]
      ring
  rw [Text.ofDigits, hplaces, Nat.zero_mul, Nat.zero_add]

theorem written_eq (base : List Char) (exponent : Option (List Char)) :
    written base exponent = String.ofList (base ++ exponent.elim [] ('^' :: ·)) := by
  cases exponent with
  | none => rw [written, Option.elim_none, List.append_nil]
  | some digits => rfl

theorem pow?_eq_some_iff {base : UInt64} {exponent : Nat} {w : UInt64} :
    pow? base exponent = some w ↔ w.toNat = base.toNat ^ exponent := by
  rw [pow?_eq_fit?, fit?_eq_some_iff]

theorem pow?_eq_none_iff {base : UInt64} {exponent : Nat} :
    pow? base exponent = none ↔ UInt64.size ≤ base.toNat ^ exponent := by
  rw [pow?_eq_fit?, fit?_eq_none_iff]

/-- A bound has the exact number that its digits denote for its value, or it is an overflow that is
told as it was written. It has a value exactly if each part fits its own word and the number fits
64 bits: no square on the way to a power overflows in vain, and none wraps. -/
theorem value_eq_amount_or_overflow (base : List Char) (exponent : Option (List Char)) :
    (∀ v, value base exponent = .ok v ↔
      Representable base exponent ∧ v.toNat = amount base exponent) ∧
    (¬ Representable base exponent → value base exponent =
      .error (.constantOverflow (String.ofList (base ++ exponent.elim [] ('^' :: ·))))) ∧
    (∀ digits, Text.ofDigits digits =
      Nat.ofDigits 10 (digits.map fun c => c.toNat - '0'.toNat).reverse) ∧
    ∀ (b : UInt64) (k : Nat), (∀ w, pow? b k = some w ↔ w.toNat = b.toNat ^ k) ∧
      (pow? b k = none ↔ 2 ^ 64 ≤ b.toNat ^ k) := by
  refine ⟨fun v => value_eq_ok_iff, fun hfits => ?_, ofDigits_eq_places, fun b k => ?_⟩
  · rw [value_eq_error_iff, written_eq]
    exact ⟨hfits, rfl⟩
  · exact ⟨fun w => pow?_eq_some_iff, pow?_eq_none_iff⟩

/-- The base is squared up to `2 ^ 32`, and not once more. -/
example : value ['0', '2'] (some ['6', '3']) = .ok 9223372036854775808 := by decide +kernel

end ContestInput.Bound

import ContestInput.Decimal.Text
import ContestInput.Text.Digits
/-!
# JSON numbers

The written form of a number and the value it is taken for: an unsigned or a signed 64-bit
integer where it is one, a double otherwise. The digits of a long number are gathered into a
64-bit significand as far as they fit; what does not fit in the whole part still counts for the
magnitude, and what does not fit in the fraction is dropped.
-/

namespace ContestInput.Json

open Decimal (Binary64)

/-- A number as written. The exponent holds whether it is negative. -/
structure Numeral where
  negative : Bool
  whole : List Char
  fraction : List Char
  exponent : Option (Bool × List Char)
  deriving DecidableEq, Repr

inductive Number where
  | natural (value : UInt64)
  /-- A negative integer, by its magnitude. -/
  | negative (magnitude : Nat)
  | real (negative : Bool) (magnitude : Binary64)
  /-- The magnitude is beyond the largest double. -/
  | outOfRange
  deriving DecidableEq, Repr

namespace Numeral

def digits? (s : List Char) : Option (List Char × List Char) :=
  match s.takeWhile Char.isDigit with
  | [] => none
  | digits => some (digits, s.dropWhile Char.isDigit)

/-- The whole part: a zero alone, or digits that do not start with one. -/
def whole? (s : List Char) : Option (List Char × List Char) :=
  match digits? s with
  | some ('0' :: _ :: _, _) => none
  | answer => answer

def fraction? : List Char → Option (List Char × List Char)
  | '.' :: s => digits? s
  | s => some ([], s)

def exponent? : List Char → Option (Option (Bool × List Char) × List Char)
  | c :: s =>
    if c = 'e' || c = 'E' then
      match s with
      | '-' :: s => (digits? s).map fun (k, rest) => (some (true, k), rest)
      | '+' :: s => (digits? s).map fun (k, rest) => (some (false, k), rest)
      | s => (digits? s).map fun (k, rest) => (some (false, k), rest)
    else some (none, c :: s)
  | [] => some (none, [])

def unsigned? (negative : Bool) (s : List Char) : Option (Numeral × List Char) := do
  let (whole, s) ← whole? s
  let (fraction, s) ← fraction? s
  let (exponent, s) ← exponent? s
  some (⟨negative, whole, fraction, exponent⟩, s)

def scan? : List Char → Option (Numeral × List Char)
  | '-' :: s => unsigned? true s
  | s => unsigned? false s

private theorem length_digits?_lt {s digits rest : List Char}
    (h : digits? s = some (digits, rest)) : rest.length < s.length := by
  unfold digits? at h
  split at h
  · simp at h
  · rename_i hne
    simp only [Option.some.injEq, Prod.mk.injEq] at h
    have hlen := congrArg List.length (List.takeWhile_append_dropWhile (p := Char.isDigit) (l := s))
    rw [List.length_append, h.2] at hlen
    have := List.length_pos_iff.2 hne
    omega

private theorem length_whole?_lt {s digits rest : List Char} (h : whole? s = some (digits, rest)) :
    rest.length < s.length := by
  unfold whole? at h
  split at h
  · simp at h
  · exact length_digits?_lt h

private theorem length_fraction?_le {s digits rest : List Char}
    (h : fraction? s = some (digits, rest)) : rest.length ≤ s.length := by
  unfold fraction? at h
  split at h
  · have := length_digits?_lt h
    simp only [List.length_cons]
    omega
  · simp_all

theorem length_exponent?_le {s rest : List Char} {e : Option (Bool × List Char)}
    (h : exponent? s = some (e, rest)) : rest.length ≤ s.length := by
  unfold exponent? at h
  repeat' split at h
  all_goals
    simp only [Option.map_eq_some_iff, Option.some.injEq, Prod.mk.injEq, Prod.exists] at h
  · obtain ⟨k, r, hk, -, rfl⟩ := h
    have := length_digits?_lt hk
    simp only [List.length_cons]
    omega
  · obtain ⟨k, r, hk, -, rfl⟩ := h
    have := length_digits?_lt hk
    simp only [List.length_cons]
    omega
  · obtain ⟨k, r, hk, -, rfl⟩ := h
    have := length_digits?_lt hk
    simp only [List.length_cons]
    omega
  · simp [← h.2]
  · simp [← h.2]

private theorem length_unsigned?_lt {negative : Bool} {s rest : List Char} {n : Numeral}
    (h : unsigned? negative s = some (n, rest)) : rest.length < s.length := by
  simp only [unsigned?, Option.bind_eq_bind, Option.bind_eq_some_iff, Option.some.injEq,
    Prod.mk.injEq, Prod.exists] at h
  obtain ⟨_, _, hw, _, _, hf, _, _, he, -, rfl⟩ := h
  have := length_whole?_lt hw
  have := length_fraction?_le hf
  have := length_exponent?_le he
  omega

theorem length_scan?_lt {s rest : List Char} {n : Numeral} (h : scan? s = some (n, rest)) :
    rest.length < s.length := by
  unfold scan? at h
  split at h
  · have := length_unsigned?_lt h
    simp only [List.length_cons]
    omega
  · exact length_unsigned?_lt h

/-- Appends digits to a significand until one does not fit into 64 bits: the significand and the
digits that are left. -/
def gather (significand : Nat) : List Char → Nat × List Char
  | [] => (significand, [])
  | d :: digits =>
    let next := Nat.ofDigitChars 10 [d] significand
    if next < UInt64.size then gather next digits else (significand, d :: digits)

def power : Option (Bool × List Char) → Int
  | none => 0
  | some (true, digits) => -(Text.ofDigits digits : Int)
  | some (false, digits) => Text.ofDigits digits

def real (n : Numeral) : Number :=
  let (w, wholeLeft) := gather 0 n.whole
  let (s, fractionLeft) := gather w n.fraction
  let power := power n.exponent + wholeLeft.length - (n.fraction.length - fractionLeft.length : Nat)
  match Binary64.ofRatio? s 1 >>= (·.scaleTen? power) with
  | some magnitude => .real n.negative magnitude
  | none => .outOfRange

def value (n : Numeral) : Number :=
  if n.fraction.isEmpty && n.exponent.isNone then
    match n.negative, Text.word? n.whole with
    | false, some w => .natural w
    | true, some w => if 0 < w.toNat && 2 * w.toNat ≤ UInt64.size then .negative w.toNat else n.real
    | _, none => n.real
  else n.real

end Numeral

end ContestInput.Json

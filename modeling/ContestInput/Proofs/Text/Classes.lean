import ContestInput.Bound.Clause
import Mathlib.Data.List.Basic
/-!
# Classes of characters

How the classes that a text is read by lie to each other: white space, digits and the characters
of identifiers; and what is left of a text behind its longest run of one class.
-/

namespace ContestInput.Text

private theorem val_toUpper {l : Char} (h : 'a'.val ≤ l.val ∧ l.val ≤ 'z'.val) :
    l.toUpper.val = l.val - 32 := by
  have hstep : 'A'.val - 'a'.val = -(32 : UInt32) := by decide
  delta Char.toUpper
  rw [dif_pos h]
  change l.val + ('A'.val - 'a'.val) = l.val - 32
  rw [hstep, UInt32.sub_eq_add_neg l.val 32]

theorem toLower_eq_iff {c l : Char} (h : 'a'.val ≤ l.val ∧ l.val ≤ 'z'.val) :
    c.toLower = l ↔ c = l ∨ c = l.toUpper := by
  rw [Char.ext_iff, Char.ext_iff, Char.ext_iff, val_toUpper h]
  delta Char.toLower
  simp only [UInt32.le_iff_toNat_le, Char.reduceVal, UInt32.reduceToNat] at h
  split
  · rename_i hc
    simp only [ge_iff_le, UInt32.le_iff_toNat_le, UInt32.reduceToNat, Char.reduceVal] at hc
    simp only [← UInt32.toNat_inj, UInt32.toNat_add, UInt32.toNat_sub, Char.reduceVal,
      UInt32.reduceSub, UInt32.reduceToNat]
    omega
  · rename_i hc
    simp only [ge_iff_le, UInt32.le_iff_toNat_le, UInt32.reduceToNat, Char.reduceVal] at hc
    simp only [← UInt32.toNat_inj, UInt32.toNat_sub, UInt32.reduceToNat]
    omega

theorem isDigit_iff {c : Char} : c.isDigit = true ↔ 48 ≤ c.toNat ∧ c.toNat ≤ 57 := by
  simp only [Char.isDigit, Bool.and_eq_true, decide_eq_true_eq, ge_iff_le,
    UInt32.le_iff_toNat_le, Char.reduceVal, UInt32.reduceToNat, Char.toNat]

theorem isBlank_iff {c : Char} : isBlank c = true ↔
    c.toNat = 32 ∨ (9 ≤ c.toNat ∧ c.toNat ≤ 13) ∨ c.toNat = 0x85 ∨ c.toNat = 0xA0 ∨
      c.toNat = 0x1680 ∨ (0x2000 ≤ c.toNat ∧ c.toNat ≤ 0x200A) ∨ c.toNat = 0x2028 ∨
      c.toNat = 0x2029 ∨ c.toNat = 0x202F ∨ c.toNat = 0x205F ∨ c.toNat = 0x3000 := by
  simp only [isBlank, Bool.or_eq_true, Bool.and_eq_true, decide_eq_true_eq, Char.ext_iff,
    Char.le_def, UInt32.le_iff_toNat_le, ← UInt32.toNat_inj, Char.reduceVal, UInt32.reduceToNat,
    Char.toNat, or_assoc]

theorem isIdentifierChar_iff {c : Char} : Bound.isIdentifierChar c = true ↔
    (65 ≤ c.toNat ∧ c.toNat ≤ 90) ∨ (97 ≤ c.toNat ∧ c.toNat ≤ 122) ∨ c.isDigit = true ∨
      c.toNat = 95 ∨ c.toNat = 0x17F ∨ c.toNat = 0x212A := by
  delta Bound.isIdentifierChar Char.isAlphanum Char.isAlpha Char.isUpper Char.isLower
  simp only [Bool.or_eq_true, Bool.and_eq_true, decide_eq_true_eq, Char.ext_iff,
    UInt32.le_iff_toNat_le, ← UInt32.toNat_inj, Char.reduceVal, UInt32.reduceToNat, Char.toNat,
    ge_iff_le, or_assoc]

theorem isIdentifierChar_of_isDigit {c : Char} (h : c.isDigit = true) :
    Bound.isIdentifierChar c = true :=
  isIdentifierChar_iff.2 (.inr (.inr (.inl h)))

theorem isIdentifierChar_eq_false_of_isBlank {c : Char} (h : isBlank c = true) :
    Bound.isIdentifierChar c = false := by
  rw [← Bool.not_eq_true, isIdentifierChar_iff, isDigit_iff]
  rw [isBlank_iff] at h
  omega

theorem isBlank_eq_false_of_isIdentifierChar {c : Char} (h : Bound.isIdentifierChar c = true) :
    isBlank c = false := by
  rw [← Bool.not_eq_true]
  intro hb
  rw [isIdentifierChar_eq_false_of_isBlank hb] at h
  exact absurd h (by simp)

theorem isBlank_eq_false_of_isDigit {c : Char} (h : c.isDigit = true) : isBlank c = false :=
  isBlank_eq_false_of_isIdentifierChar (isIdentifierChar_of_isDigit h)

theorem isDigit_eq_false_of_isBlank {c : Char} (h : isBlank c = true) : c.isDigit = false := by
  rw [← Bool.not_eq_true]
  intro hd
  rw [isBlank_eq_false_of_isDigit hd] at h
  exact absurd h (by simp)

/-! ## The case of letters -/

theorem toNat_toUpper (c : Char) :
    c.toUpper.toNat = if 97 ≤ c.toNat ∧ c.toNat ≤ 122 then c.toNat - 32 else c.toNat := by
  have hiff : ('a'.val ≤ c.val ∧ c.val ≤ 'z'.val) ↔ 97 ≤ c.toNat ∧ c.toNat ≤ 122 := by
    simp only [UInt32.le_iff_toNat_le, Char.reduceVal, UInt32.reduceToNat, Char.toNat]
  by_cases h : 'a'.val ≤ c.val ∧ c.val ≤ 'z'.val
  · rw [if_pos (hiff.1 h), Char.toNat, val_toUpper h, UInt32.toNat_sub_of_le]
    · rfl
    · exact UInt32.le_trans (by decide) h.1
  · rw [if_neg (fun hc => h (hiff.2 hc))]
    delta Char.toUpper
    rw [dif_neg h]

theorem toUpper_eq_self {c : Char} (h : ¬ (97 ≤ c.toNat ∧ c.toNat ≤ 122)) : c.toUpper = c := by
  rw [← Char.toNat_inj, toNat_toUpper, if_neg h]

theorem toUpper_toUpper (c : Char) : c.toUpper.toUpper = c.toUpper := by
  apply toUpper_eq_self
  rw [toNat_toUpper]
  split <;> omega

theorem isAlpha_iff {c : Char} : c.isAlpha = true ↔
    (65 ≤ c.toNat ∧ c.toNat ≤ 90) ∨ (97 ≤ c.toNat ∧ c.toNat ≤ 122) := by
  delta Char.isAlpha Char.isUpper Char.isLower
  simp only [Bool.or_eq_true, Bool.and_eq_true, decide_eq_true_eq, UInt32.le_iff_toNat_le,
    Char.reduceVal, UInt32.reduceToNat, Char.toNat, ge_iff_le]

theorem toUpper_eq_iff_eq {c d : Char} (h : d.isAlpha = false) : c.toUpper = d ↔ c = d := by
  rw [← Bool.not_eq_true, isAlpha_iff] at h
  rw [← Char.toNat_inj, ← Char.toNat_inj, toNat_toUpper]
  split <;> omega

private theorem toNat_toLower (c : Char) :
    c.toLower.toNat = if 65 ≤ c.toNat ∧ c.toNat ≤ 90 then c.toNat + 32 else c.toNat := by
  have hval : c.toLower.toNat =
      if c.val ≥ 'A'.val ∧ c.val ≤ 'Z'.val then (c.val + 32).toNat else c.toNat := by
    delta Char.toLower
    split <;> rfl
  rw [hval]
  simp only [ge_iff_le, UInt32.le_iff_toNat_le, Char.reduceVal, UInt32.reduceToNat, Char.toNat]
  split
  · simp only [UInt32.toNat_add, UInt32.reduceToNat]
    omega
  · rfl

theorem toLower_toUpper (c : Char) : c.toUpper.toLower = c.toLower := by
  rw [← Char.toNat_inj, toNat_toLower, toNat_toLower, toNat_toUpper]
  split_ifs <;> omega

theorem toUpper_toLower (c : Char) : c.toLower.toUpper = c.toUpper := by
  rw [← Char.toNat_inj, toNat_toUpper, toNat_toUpper, toNat_toLower]
  split_ifs <;> omega

theorem isDigit_toUpper (c : Char) : c.toUpper.isDigit = c.isDigit := by
  rw [Bool.eq_iff_iff, isDigit_iff, isDigit_iff, toNat_toUpper]
  split <;> omega

theorem isBlank_toUpper (c : Char) : isBlank c.toUpper = isBlank c := by
  rw [Bool.eq_iff_iff, isBlank_iff, isBlank_iff, toNat_toUpper]
  split <;> omega

theorem isIdentifierChar_toUpper (c : Char) :
    Bound.isIdentifierChar c.toUpper = Bound.isIdentifierChar c := by
  rw [Bool.eq_iff_iff, isIdentifierChar_iff, isIdentifierChar_iff, isDigit_toUpper, isDigit_iff,
    toNat_toUpper]
  split <;> omega

/-! ## Runs -/

variable {p : Char → Bool} {s t : List Char}

theorem mem_of_mem_head?_append {c : Char} (hs : s ≠ []) (hc : c ∈ (s ++ t).head?) : c ∈ s := by
  rw [List.head?_append_of_ne_nil _ hs] at hc
  exact List.mem_of_mem_head? hc

theorem takeWhile_append (hs : ∀ c ∈ s, p c = true) (ht : ∀ c ∈ t.head?, p c = false) :
    (s ++ t).takeWhile p = s := by
  rw [List.takeWhile_append_of_pos hs]
  cases t with
  | nil => simp
  | cons c t => simp [ht c rfl]

theorem dropWhile_append (hs : ∀ c ∈ s, p c = true) (ht : ∀ c ∈ t.head?, p c = false) :
    (s ++ t).dropWhile p = t := by
  rw [List.dropWhile_append_of_pos hs]
  cases t with
  | nil => simp
  | cons c t => simp [ht c rfl]

theorem takeWhile_append_cons {c : Char} (hc : p c = false) (s t : List Char) :
    (s ++ c :: t).takeWhile p = s.takeWhile p := by
  induction s with
  | nil => simp [hc]
  | cons a s ih => rw [List.cons_append, List.takeWhile_cons, List.takeWhile_cons, ih]

theorem dropWhile_append_cons {c : Char} (hc : p c = false) (s t : List Char) :
    (s ++ c :: t).dropWhile p = s.dropWhile p ++ c :: t := by
  induction s with
  | nil => simp [hc]
  | cons a s ih =>
    rw [List.cons_append, List.dropWhile_cons, List.dropWhile_cons, ih]
    split <;> rfl

theorem head?_dropWhile (p : Char → Bool) (s : List Char) :
    ∀ c ∈ (s.dropWhile p).head?, p c = false := by
  intro c hc
  have h := List.head?_dropWhile_not p s
  rw [hc] at h
  simpa using h

theorem prefix_takeWhile (hs : ∀ c ∈ s, p c = true) (h : s <+: t) : s <+: t.takeWhile p := by
  obtain ⟨u, rfl⟩ := h
  rw [List.takeWhile_append_of_pos hs]
  exact List.prefix_append _ _

private theorem dropWhile_eq_self (hs : ∀ c ∈ s.head?, p c = false) : s.dropWhile p = s := by
  cases s with
  | nil => rfl
  | cons c s => rw [List.dropWhile_cons_of_neg (by simp [hs c rfl])]

theorem trim_eq_self_iff : trim s = s ↔
    (∀ c ∈ s.head?, isBlank c = false) ∧ ∀ c ∈ s.getLast?, isBlank c = false := by
  constructor
  · intro h
    have hlength := congrArg List.length h
    have hfront : (s.dropWhile isBlank).length ≤ s.length :=
      (List.dropWhile_suffix isBlank).length_le
    have hback : ((s.dropWhile isBlank).reverse.dropWhile isBlank).length ≤
        (s.dropWhile isBlank).reverse.length := (List.dropWhile_suffix isBlank).length_le
    rw [trim, List.length_reverse] at hlength
    rw [List.length_reverse] at hback
    have hdrop : s.dropWhile isBlank = s :=
      (List.dropWhile_suffix isBlank).eq_of_length (by omega)
    rw [trim, hdrop] at h
    refine ⟨?_, ?_⟩
    · rw [← hdrop]
      exact head?_dropWhile _ _
    · rw [← h, List.getLast?_reverse]
      exact head?_dropWhile _ _
  · rintro ⟨hhead, hlast⟩
    rw [← List.head?_reverse] at hlast
    rw [trim, dropWhile_eq_self hhead, dropWhile_eq_self hlast, List.reverse_reverse]

theorem head?_trim (s : List Char) : ∀ c ∈ (trim s).head?, isBlank c = false := by
  intro c hc
  obtain ⟨t, ht⟩ : ∃ t, trim s ++ t = s.dropWhile isBlank := by
    have hsuffix := List.dropWhile_suffix (l := (s.dropWhile isBlank).reverse) isBlank
    have hprefix := List.reverse_prefix.2 hsuffix
    rw [List.reverse_reverse] at hprefix
    exact hprefix
  apply head?_dropWhile isBlank s
  rw [← ht, List.head?_append, Option.mem_def.1 hc]
  rfl

theorem getLast?_trim (s : List Char) : ∀ c ∈ (trim s).getLast?, isBlank c = false := by
  rw [trim, List.getLast?_reverse]
  exact head?_dropWhile _ _

/-- The second text is the first one without the white space around it. -/
structure Trims (s t : List Char) : Prop where
  padded : ∃ before after, s = before ++ t ++ after ∧ (∀ c ∈ before, isBlank c = true) ∧
    ∀ c ∈ after, isBlank c = true
  head : ∀ c ∈ t.head?, isBlank c = false
  last : ∀ c ∈ t.getLast?, isBlank c = false

theorem trim_append {before after : List Char} (hbefore : ∀ c ∈ before, isBlank c = true)
    (hafter : ∀ c ∈ after, isBlank c = true) (hhead : ∀ c ∈ t.head?, isBlank c = false)
    (hlast : ∀ c ∈ t.getLast?, isBlank c = false) : trim (before ++ t ++ after) = t := by
  rw [trim, List.append_assoc, List.dropWhile_append_of_pos hbefore]
  cases t with
  | nil =>
    have hnone := dropWhile_append (t := []) hafter (by simp)
    rw [List.append_nil] at hnone
    rw [List.nil_append, hnone]
    rfl
  | cons c t =>
    have hkept : (c :: t ++ after).dropWhile isBlank = c :: t ++ after :=
      dropWhile_eq_self (by simpa using hhead)
    have hreverse : ∀ x ∈ after.reverse, isBlank x = true := by simpa using hafter
    rw [← List.head?_reverse] at hlast
    rw [hkept, List.reverse_append, dropWhile_append hreverse hlast, List.reverse_reverse]

theorem trims_trim (s : List Char) : Trims s (trim s) := by
  have hblank (u : List Char) : ∀ c ∈ u.takeWhile isBlank, isBlank c = true :=
    List.all_eq_true.1 List.all_takeWhile
  refine ⟨⟨s.takeWhile isBlank, ((s.dropWhile isBlank).reverse.takeWhile isBlank).reverse, ?_,
    hblank s, fun c hc => hblank _ c (List.mem_reverse.1 hc)⟩, head?_trim s, getLast?_trim s⟩
  rw [trim, List.append_assoc, ← List.reverse_append, List.takeWhile_append_dropWhile,
    List.reverse_reverse, List.takeWhile_append_dropWhile]

theorem trims_iff : Trims s t ↔ trim s = t := by
  constructor
  · rintro ⟨⟨before, after, rfl, hbefore, hafter⟩, hhead, hlast⟩
    exact trim_append hbefore hafter hhead hlast
  · rintro rfl
    exact trims_trim s

end ContestInput.Text

import ContestInput.Proofs.Text.Classes
import Mathlib.Data.List.Lex
import Mathlib.Data.List.TakeWhile
import Mathlib.Order.Basic
/-!
# Matches of the clause pattern

What a clause looks like wherever it stands: an identifier, the sign with white space around it,
and a number with an exponent or without. Of all matches at one place the greedy one has the
longest parts, an earlier part counting more than all later ones. The function that reads the
limit behind an identifier finds exactly the greedy match.
-/

namespace ContestInput.Bound

open Text

def exponentText : Option (List Char) → List Char
  | none => []
  | some digits => '^' :: digits

/-- A clause with the white space before and after its sign. -/
structure Match where
  clause : Clause
  before : List Char
  after : List Char
  deriving DecidableEq

namespace Match

def text (m : Match) : List Char :=
  m.clause.identifier ++ (m.before ++ '≦' ::
    (m.after ++ (m.clause.base ++ exponentText m.clause.exponent)))

structure Valid (m : Match) : Prop where
  identifier_ne_nil : m.clause.identifier ≠ []
  identifier : ∀ c ∈ m.clause.identifier, isIdentifierChar c = true
  before : ∀ c ∈ m.before, isBlank c = true
  after : ∀ c ∈ m.after, isBlank c = true
  base_ne_nil : m.clause.base ≠ []
  base : ∀ c ∈ m.clause.base, c.isDigit = true
  exponent : ∀ digits ∈ m.clause.exponent, digits ≠ [] ∧ ∀ c ∈ digits, c.isDigit = true

/-- The match stands at the start of a text. -/
def StartsAt (m : Match) (s : List Char) : Prop :=
  m.Valid ∧ m.text <+: s

/-- The lengths of the repeated parts, in the order of the pattern. -/
def lengths (m : Match) : List Nat :=
  [m.clause.identifier.length, m.before.length, m.after.length, m.clause.base.length,
    (m.clause.exponent.getD []).length]

/-- No other match at the start of the text has a longer part before a shorter one. -/
def Greedy (m : Match) (s : List Char) : Prop :=
  m.StartsAt s ∧ ∀ m' : Match, m'.StartsAt s → ¬ List.Lex (· < ·) m.lengths m'.lengths

variable {m m' : Match} {s : List Char}

theorem Valid.text_ne_nil (h : m.Valid) : m.text ≠ [] := by
  intro hm
  exact h.identifier_ne_nil (List.append_eq_nil_iff.1 hm).1

/-- All but the number is forced by the text, as no character belongs to two neighbouring parts. -/
theorem StartsAt.parts (h : m.StartsAt s) :
    s.takeWhile isIdentifierChar = m.clause.identifier ∧
      (s.dropWhile isIdentifierChar).takeWhile isBlank = m.before ∧
      ∃ t, (s.dropWhile isIdentifierChar).dropWhile isBlank = '≦' :: t ∧
        t.takeWhile isBlank = m.after ∧
        m.clause.base ++ exponentText m.clause.exponent <+: t.dropWhile isBlank := by
  obtain ⟨hv, r, rfl⟩ := h
  obtain ⟨d, base, hbase⟩ := List.exists_cons_of_ne_nil hv.base_ne_nil
  have hd : d.isDigit = true := hv.base d (by simp [hbase])
  have hafter : ∀ c ∈ (m.clause.base ++ (exponentText m.clause.exponent ++ r)).head?,
      isBlank c = false := by
    simpa [hbase] using isBlank_eq_false_of_isDigit hd
  have hsign : ∀ u : List Char, ∀ c ∈ ('≦' :: u).head?, isBlank c = false := by
    intro u
    simpa using (by decide : isBlank '≦' = false)
  have hbefore : ∀ u : List Char,
      ∀ c ∈ (m.before ++ '≦' :: u).head?, isIdentifierChar c = false := by
    intro u c hc
    cases hb : m.before with
    | nil =>
      obtain rfl : '≦' = c := by simpa [hb] using hc
      decide
    | cons b bs =>
      obtain rfl : b = c := by simpa [hb] using hc
      exact isIdentifierChar_eq_false_of_isBlank (hv.before b (by simp [hb]))
  simp only [text, List.append_assoc, List.cons_append]
  rw [takeWhile_append hv.identifier (hbefore _), dropWhile_append hv.identifier (hbefore _),
    takeWhile_append hv.before (hsign _), dropWhile_append hv.before (hsign _)]
  refine ⟨rfl, rfl, _, rfl, takeWhile_append hv.after hafter, ?_⟩
  rw [dropWhile_append hv.after hafter, ← List.append_assoc]
  exact List.prefix_append _ _

end Match

/-! ## The number of a clause -/

variable {base base' u : List Char} {k k' : Option (List Char)}

theorem exponent?_append (u : List Char) : exponentText (exponent? u).1 ++ (exponent? u).2 = u := by
  unfold exponent?
  split
  · split
    · simp [exponentText, List.takeWhile_append_dropWhile]
    · rfl
  · rfl

private theorem exponent?_digits (u : List Char) :
    ∀ digits ∈ (exponent? u).1, digits ≠ [] ∧ ∀ c ∈ digits, c.isDigit = true := by
  intro digits h
  unfold exponent? at h
  split at h
  · split at h
    · rename_i d rest hd
      obtain rfl := Option.some.inj h
      refine ⟨by simp, ?_⟩
      intro c hc
      rcases List.mem_cons.1 hc with rfl | hc
      · exact hd
      · exact List.mem_takeWhile_imp hc
    · exact absurd h (by simp)
  · exact absurd h (by simp)

private theorem exponent?_longest (hk : ∀ digits ∈ k, digits ≠ [] ∧ ∀ c ∈ digits, c.isDigit = true)
    (h : exponentText k <+: u) : (k.getD []).length ≤ ((exponent? u).1.getD []).length := by
  cases k with
  | none => simp
  | some digits =>
    obtain ⟨hne, hdigits⟩ := hk digits rfl
    obtain ⟨d, ds, rfl⟩ := List.exists_cons_of_ne_nil hne
    obtain ⟨r, rfl⟩ := h
    have hd : d.isDigit = true := hdigits d (by simp)
    have hlong : ds <+: (ds ++ r).takeWhile Char.isDigit :=
      prefix_takeWhile (fun c hc => hdigits c (by simp [hc])) (List.prefix_append _ _)
    simpa [exponentText, exponent?, hd] using hlong.length_le

theorem number_unique (hk : ∀ digits ∈ k, digits ≠ []) (hk' : ∀ digits ∈ k', digits ≠ [])
    (h : base ++ exponentText k <+: u) (h' : base' ++ exponentText k' <+: u)
    (hbase : base.length = base'.length)
    (hexp : (k.getD []).length = (k'.getD []).length) : base = base' ∧ k = k' := by
  obtain ⟨r, rfl⟩ := h
  obtain ⟨r', hr⟩ := h'
  rw [List.append_assoc, List.append_assoc] at hr
  obtain ⟨rfl, htail⟩ := List.append_inj hr hbase.symm
  refine ⟨rfl, ?_⟩
  cases k with
  | none =>
    cases k' with
    | none => rfl
    | some digits' => exact absurd (List.length_eq_zero_iff.1 hexp.symm) (hk' digits' rfl)
  | some digits =>
    cases k' with
    | none => exact absurd (List.length_eq_zero_iff.1 hexp) (hk digits rfl)
    | some digits' =>
      rw [(List.append_inj (List.cons.inj htail).2 hexp.symm).1]

private theorem number_longest (hbase : ∀ c ∈ base, c.isDigit = true)
    (hk : ∀ digits ∈ k, digits ≠ [] ∧ ∀ c ∈ digits, c.isDigit = true)
    (h : base ++ exponentText k <+: u) :
    ¬ List.Lex (· < ·) [(u.takeWhile Char.isDigit).length,
      ((exponent? (u.dropWhile Char.isDigit)).1.getD []).length]
      [base.length, (k.getD []).length] := by
  have hprefix : base <+: u.takeWhile Char.isDigit :=
    prefix_takeWhile hbase ((List.prefix_append _ _).trans h)
  rw [List.cons_lex_cons_iff, List.lex_singleton_iff, not_or, not_and]
  refine ⟨Nat.not_lt.2 hprefix.length_le, ?_⟩
  intro hlen
  -- A base of full length leaves the same text to both exponents.
  rw [← List.takeWhile_append_dropWhile (p := Char.isDigit) (l := u),
    ← hprefix.eq_of_length hlen.symm, List.prefix_append_right_inj] at h
  exact Nat.not_lt.2 (exponent?_longest hk h)

theorem limit?_eq_some_iff {s rest : List Char} :
    limit? s = some (base, k, rest) ↔ ∃ t, s.dropWhile isBlank = '≦' :: t ∧
      base ≠ [] ∧ base = (t.dropWhile isBlank).takeWhile Char.isDigit ∧
      exponent? ((t.dropWhile isBlank).dropWhile Char.isDigit) = (k, rest) := by
  unfold limit?
  constructor
  · intro h
    split at h
    · rename_i t ht
      split at h
      · rename_i d u hu
        split at h
        · rename_i hd
          obtain ⟨rfl, he⟩ := Prod.mk.inj (Option.some.inj h)
          refine ⟨t, ht, by simp, ?_, ?_⟩
          · rw [hu, List.takeWhile_cons_of_pos hd]
          · rw [hu, List.dropWhile_cons_of_pos hd, he]
        · exact absurd h (by simp)
      · exact absurd h (by simp)
    · exact absurd h (by simp)
  · rintro ⟨t, ht, hne, hbase, he⟩
    rw [ht]
    cases hu : t.dropWhile isBlank with
    | nil => simp [hu] at hbase; exact absurd hbase hne
    | cons d u =>
      by_cases hd : d.isDigit = true
      · rw [hu, List.takeWhile_cons_of_pos hd] at hbase
        rw [hu, List.dropWhile_cons_of_pos hd] at he
        simp [hu, hd, hbase, he]
      · rw [hu, List.takeWhile_cons_of_neg hd] at hbase
        exact absurd hbase hne

namespace Match

variable {m m' : Match} {s : List Char}

theorem StartsAt.eq_of_lengths (h : m.StartsAt s) (h' : m'.StartsAt s)
    (hlen : m.lengths = m'.lengths) : m = m' := by
  obtain ⟨hid, hbefore, t, ht, hafter, hnum⟩ := h.parts
  obtain ⟨hid', hbefore', t', ht', hafter', hnum'⟩ := h'.parts
  obtain rfl : t = t' := (List.cons.inj (ht.symm.trans ht')).2
  simp only [lengths, List.cons.injEq, and_true] at hlen
  obtain ⟨hb, hk⟩ := number_unique (fun d hd => (h.1.exponent d hd).1)
    (fun d hd => (h'.1.exponent d hd).1) hnum hnum' hlen.2.2.2.1 hlen.2.2.2.2
  obtain ⟨⟨id, base, k⟩, before, after⟩ := m
  obtain ⟨⟨id', base', k'⟩, before', after'⟩ := m'
  simp only at *
  rw [← hid, ← hid', ← hbefore, ← hbefore', ← hafter, ← hafter', hb, hk]

theorem Greedy.unique (h : m.Greedy s) (h' : m'.Greedy s) : m = m' :=
  h.1.eq_of_lengths h'.1 (Std.Trichotomous.trichotomous _ _ (h.2 m' h'.1) (h'.2 m h.1))

theorem StartsAt.limit? (h : m.StartsAt s) :
    ∃ found, Bound.limit? (s.dropWhile isIdentifierChar) = some found := by
  obtain ⟨-, -, t, ht, -, hnum⟩ := h.parts
  have hprefix : m.clause.base <+: (t.dropWhile isBlank).takeWhile Char.isDigit :=
    prefix_takeWhile h.1.base ((List.prefix_append _ _).trans hnum)
  have hne : (t.dropWhile isBlank).takeWhile Char.isDigit ≠ [] := by
    intro hnil
    exact h.1.base_ne_nil (List.prefix_nil.1 (hnil ▸ hprefix))
  exact ⟨_, limit?_eq_some_iff.2 ⟨t, ht, hne, rfl, rfl⟩⟩

theorem exists_greedy_of_limit? {base rest : List Char} {k : Option (List Char)}
    (hs : s.takeWhile isIdentifierChar ≠ [])
    (h : Bound.limit? (s.dropWhile isIdentifierChar) = some (base, k, rest)) :
    ∃ m : Match, m.clause = ⟨s.takeWhile isIdentifierChar, base, k⟩ ∧ m.Greedy s ∧
      m.text ++ rest = s := by
  obtain ⟨t, ht, hne, hbase, he⟩ := limit?_eq_some_iff.1 h
  set u := t.dropWhile isBlank with hu
  have hexp := exponent?_append (u.dropWhile Char.isDigit)
  have hk := exponent?_digits (u.dropWhile Char.isDigit)
  rw [he] at hexp hk
  let m : Match := ⟨⟨s.takeWhile isIdentifierChar, base, k⟩,
    (s.dropWhile isIdentifierChar).takeWhile isBlank, t.takeWhile isBlank⟩
  have htext : m.text ++ rest = s := by
    simp only [m, text, List.append_assoc, List.cons_append]
    rw [hexp, hbase, List.takeWhile_append_dropWhile, hu, List.takeWhile_append_dropWhile, ← ht,
      List.takeWhile_append_dropWhile, List.takeWhile_append_dropWhile]
  have hvalid : m.Valid :=
    { identifier_ne_nil := hs
      identifier := fun c hc => List.mem_takeWhile_imp hc
      before := fun c hc => List.mem_takeWhile_imp hc
      after := fun c hc => List.mem_takeWhile_imp hc
      base_ne_nil := hne
      base := by
        intro c hc
        change c ∈ base at hc
        rw [hbase] at hc
        exact List.mem_takeWhile_imp hc
      exponent := hk }
  refine ⟨m, rfl, ⟨⟨hvalid, rest, htext⟩, ?_⟩, htext⟩
  intro m' hm'
  obtain ⟨hid, hbefore, t', ht', hafter, hnum⟩ := hm'.parts
  obtain rfl : t = t' := (List.cons.inj (ht.symm.trans ht')).2
  have hlong := number_longest hm'.1.base hm'.1.exponent hnum
  rw [← hu, ← hbase, he] at hlong
  simpa only [m, lengths, ← hid, ← hbefore, ← hafter, List.lex_cons_iff] using hlong

end Match

end ContestInput.Bound

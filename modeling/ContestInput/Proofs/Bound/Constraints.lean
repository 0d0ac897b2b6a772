import ContestInput.Proofs.Bound.Edits
import ContestInput.Proofs.Bound.Names
import ContestInput.Proofs.Bound.Scan
/-!
# Constraints as they are written

A list of constraints such as `1 ≤ N ≤ 10^5`, with every choice that an author has: how a sign is
spelled, how much white space stands around it and between two constraints, and where the text is
punctuated. The scan gives back one constant for each constraint. The lower bound is never taken
for a name, and no name loses a part to a sign beside it.
-/

namespace ContestInput.Bound

open Relation Text

/-- A sign with the white space around it. -/
structure Comparison where
  before : List Char
  sign : List Char
  after : List Char
  before_blank : ∀ c ∈ before, isBlank c = true
  isSign : IsSign sign
  after_blank : ∀ c ∈ after, isBlank c = true

def Comparison.text (r : Comparison) : List Char :=
  r.before ++ (r.sign ++ r.after)

def Clause.number (c : Clause) : List Char :=
  c.base ++ exponentText c.exponent

/-- A lower bound, a name and an upper bound, compared on both sides of the name. The clause is
what the name and the upper bound make up. -/
structure Constraint where
  lower : List Char
  left : Comparison
  clause : Clause
  right : Comparison
  lower_digits : ∀ c ∈ lower, c.isDigit = true
  identifier_ne_nil : clause.identifier ≠ []
  identifier_word : ∀ c ∈ clause.identifier, Program.isWordChar c = true
  identifier_head : ∀ c ∈ clause.identifier.head?, c.isDigit = false
  /-- No part of the name spells a sign. -/
  identifier_sign : ¬ ['l', 'e', 'q'] <:+: clause.identifier.map Char.toLower
  base_ne_nil : clause.base ≠ []
  base_digits : ∀ c ∈ clause.base, c.isDigit = true
  exponent_digits : ∀ digits ∈ clause.exponent, digits ≠ [] ∧ ∀ c ∈ digits, c.isDigit = true

def Constraint.text (b : Constraint) : List Char :=
  b.lower ++ (b.left.text ++ (b.clause.identifier ++ (b.right.text ++ b.clause.number)))

/-- The text lists the constraints, with white space behind each that another one follows. -/
inductive Listed : List Constraint → List Char → Prop where
  | nil : Listed [] []
  | single (b : Constraint) : Listed [b] b.text
  | cons (b : Constraint) {bs : List Constraint} {gap s : List Char} : gap ≠ [] →
      (∀ c ∈ gap, isBlank c = true) → Listed bs s → Listed (b :: bs) (b.text ++ (gap ++ s))

/-! ## Preparing a constraint -/

/-- What preparing a text may take away, and where a sign may start. -/
def special : List Char :=
  punctuation ++ ['l', 'L', '≤']

theorem prepare_append_of_class {p : Char → Bool} (hp : special.any p = false) {s : List Char}
    (hs : ∀ c ∈ s, p c = true) (t : List Char) : prepare (s ++ t) = s ++ prepare t := by
  rw [special, List.any_append, Bool.or_eq_false_iff] at hp
  rw [prepare, bare_append, bare_of_class hp.1 hs, unifySigns_append_plain]
  · rfl
  · intro c hc h
    exact List.any_eq_false.1 hp.2 c h (hs c hc)

@[simp] theorem prepare_nil : prepare [] = [] := by
  rw [prepare, bare, List.filter_nil, unifySigns]

theorem prepare_append_blanks {s : List Char} (hs : ∀ c ∈ s, isBlank c = true) (t : List Char) :
    prepare (s ++ t) = s ++ prepare t :=
  prepare_append_of_class (by decide) hs t

theorem prepare_of_digits {s : List Char} (hs : ∀ c ∈ s, c.isDigit = true) : prepare s = s := by
  have h := prepare_append_of_class (by decide) hs []
  rwa [prepare_nil, List.append_nil] at h

/-- No sign can be written across the white space behind a text. -/
theorem prepare_append_of_blanks (s : List Char) {t : List Char}
    (ht : ∀ c ∈ t, isBlank c = true) : prepare (s ++ t) = prepare s ++ t := by
  have hself : prepare t = t := by
    have h := prepare_append_blanks ht []
    rwa [prepare_nil, List.append_nil] at h
  have hhead : ∀ c ∈ (bare t).head?, c ∉ ['e', 'E', 'q', 'Q'] := by
    intro c hc hmem
    have hnone : ['e', 'E', 'q', 'Q'].any isBlank = false := by decide
    exact List.any_eq_false.1 hnone c hmem
      (ht c (List.mem_of_mem_filter (List.mem_of_mem_head? hc)))
  rw [prepare, bare_append, unifySigns_append hhead]
  exact congrArg (prepare s ++ ·) hself

namespace Comparison

def prepared (r : Comparison) : List Char :=
  r.before ++ '≦' :: r.after

theorem prepare_append (r : Comparison) (s t : List Char) :
    prepare (s ++ (r.text ++ t)) = prepare s ++ (r.prepared ++ prepare t) := by
  have hassoc : s ++ (r.text ++ t) = s ++ r.before ++ (r.sign ++ (r.after ++ t)) := by
    simp only [text, List.append_assoc]
  rw [hassoc, r.isSign.prepare_append, prepare_append_of_blanks s r.before_blank,
    prepare_append_blanks r.after_blank]
  simp only [prepared, List.append_assoc, List.cons_append]

end Comparison

theorem prepare_number_append {base : List Char} {k : Option (List Char)}
    (hbase : ∀ c ∈ base, c.isDigit = true)
    (hk : ∀ digits ∈ k, digits ≠ [] ∧ ∀ c ∈ digits, c.isDigit = true) (t : List Char) :
    prepare (base ++ (exponentText k ++ t)) = base ++ (exponentText k ++ prepare t) := by
  rw [prepare_append_of_class (by decide) hbase]
  cases k with
  | none => rfl
  | some digits =>
    have hcaret : ∀ c ∈ ['^'], (c == '^') = true := by simp
    change base ++ prepare (['^'] ++ (digits ++ t)) = _
    rw [prepare_append_of_class (by decide) hcaret,
      prepare_append_of_class (by decide) (hk digits rfl).2]
    rfl

namespace Constraint

variable (b : Constraint)

theorem prepare_identifier : prepare b.clause.identifier = b.clause.identifier := by
  have hword := b.identifier_word
  have hbare : bare b.clause.identifier = b.clause.identifier := bare_of_class (by decide) hword
  rw [prepare, hbare]
  apply unifySigns_eq_self
  intro w hw hpart
  cases hw with
  | glyph => exact absurd (hword _ (hpart.mem List.mem_cons_self)) (by decide)
  | @word l e q hl he hq =>
    have hlower := isSpelling_word_iff.1 (.word hl he hq)
    apply b.identifier_sign
    have hmap := hpart.map Char.toLower
    rwa [List.map_cons, List.map_cons, List.map_cons, List.map_nil, hlower.1, hlower.2.1,
      hlower.2.2] at hmap

def prepared : List Char :=
  b.lower ++ (b.left.prepared ++ (b.clause.identifier ++ (b.right.prepared ++ b.clause.number)))

theorem prepare_text_append (t : List Char) : prepare (b.text ++ t) = b.prepared ++ prepare t := by
  simp only [text, prepared, Clause.number, List.append_assoc]
  rw [b.left.prepare_append, b.right.prepare_append, prepare_of_digits b.lower_digits,
    b.prepare_identifier, prepare_number_append b.base_digits b.exponent_digits]

end Constraint

/-! ## Reading a constraint -/

namespace Comparison

variable (r : Comparison) {t : List Char}

private theorem dropWhile_prepared_append :
    (r.prepared ++ t).dropWhile isBlank = '≦' :: (r.after ++ t) := by
  rw [prepared, List.append_assoc, List.cons_append, dropWhile_append r.before_blank]
  rintro c ⟨⟩
  decide

private theorem isIdentifierChar_of_mem_prepared {c : Char} (hc : c ∈ r.prepared) :
    isIdentifierChar c = false := by
  rw [prepared, List.mem_append, List.mem_cons] at hc
  rcases hc with hc | rfl | hc
  · exact isIdentifierChar_eq_false_of_isBlank (r.before_blank c hc)
  · decide
  · exact isIdentifierChar_eq_false_of_isBlank (r.after_blank c hc)

private theorem isIdentifierChar_head?_prepared :
    ∀ c ∈ (r.prepared ++ t).head?, isIdentifierChar c = false := by
  intro c hc
  have hne : r.prepared ≠ [] := by simp [prepared]
  exact r.isIdentifierChar_of_mem_prepared (mem_of_mem_head?_append hne hc)

theorem limit?_eq_none (ht : ∀ c ∈ t.head?, isBlank c = false ∧ c.isDigit = false) :
    limit? (r.prepared ++ t) = none := by
  rw [Option.eq_none_iff_forall_ne_some]
  rintro ⟨base, k, rest⟩ h
  obtain ⟨u, hu, hne, hbase, -⟩ := limit?_eq_some_iff.1 h
  rw [dropWhile_prepared_append] at hu
  obtain rfl := (List.cons.inj hu).2
  rw [dropWhile_append r.after_blank fun c hc => (ht c hc).1] at hbase
  have hnil : t.takeWhile Char.isDigit = [] :=
    takeWhile_append (s := []) (by simp) fun c hc => (ht c hc).2
  exact hne (hbase.trans hnil)

theorem limit?_eq_some {base rest : List Char} {k : Option (List Char)} (hne : base ≠ [])
    (hbase : ∀ c ∈ base, c.isDigit = true)
    (hk : ∀ digits ∈ k, digits ≠ [] ∧ ∀ c ∈ digits, c.isDigit = true) (hrest : EndsNumber rest) :
    limit? (r.prepared ++ (base ++ (exponentText k ++ rest))) = some (base, k, rest) := by
  have hblank : ∀ c ∈ (base ++ (exponentText k ++ rest)).head?, isBlank c = false :=
    fun c hc => isBlank_eq_false_of_isDigit (hbase c (mem_of_mem_head?_append hne hc))
  have hdigit : ∀ c ∈ (exponentText k ++ rest).head?, c.isDigit = false := by
    intro c hc
    cases k with
    | none => exact (hrest c hc).1
    | some digits =>
      obtain rfl := Option.some.inj hc
      decide
  refine limit?_eq_some_iff.2 ⟨_, r.dropWhile_prepared_append, hne, ?_, ?_⟩
  · rw [dropWhile_append r.after_blank hblank, takeWhile_append hbase hdigit]
  · rw [dropWhile_append r.after_blank hblank, dropWhile_append hbase hdigit,
      exponent?_exponentText hk hrest]

end Comparison

namespace Constraint

variable (b : Constraint)

private theorem isIdentifierChar_of_mem : ∀ c ∈ b.clause.identifier, isIdentifierChar c = true :=
  fun c hc => isIdentifierChar_iff_isWordChar.2 (.inl (b.identifier_word c hc))

theorem clauses_prepared_append {t : List Char} (ht : EndsNumber t) :
    clauses (b.prepared ++ t) = b.clause :: clauses t := by
  -- The name starts with no digit, so the lower bound is not followed by a limit.
  have hname : ∀ u : List Char, ∀ c ∈ (b.clause.identifier ++ u).head?,
      isBlank c = false ∧ c.isDigit = false := by
    intro u c hc
    have hident := b.isIdentifierChar_of_mem c (mem_of_mem_head?_append b.identifier_ne_nil hc)
    rw [List.head?_append_of_ne_nil _ b.identifier_ne_nil] at hc
    exact ⟨isBlank_eq_false_of_isIdentifierChar hident, b.identifier_head c hc⟩
  simp only [prepared, Clause.number, List.append_assoc]
  rw [clauses_append_none (fun c hc => isIdentifierChar_of_isDigit (b.lower_digits c hc))
      b.left.isIdentifierChar_head?_prepared (b.left.limit?_eq_none (hname _)),
    clauses_append_other (fun c hc => b.left.isIdentifierChar_of_mem_prepared hc),
    clauses_append_some b.identifier_ne_nil b.isIdentifierChar_of_mem
      b.right.isIdentifierChar_head?_prepared
      (b.right.limit?_eq_some b.base_ne_nil b.base_digits b.exponent_digits ht)]

end Constraint

private theorem exists_last_digit {base : List Char} {k : Option (List Char)} (hne : base ≠ [])
    (hbase : ∀ c ∈ base, c.isDigit = true)
    (hk : ∀ digits ∈ k, digits ≠ [] ∧ ∀ c ∈ digits, c.isDigit = true) :
    ∃ c ∈ (base ++ exponentText k).getLast?, c.isDigit = true := by
  cases k with
  | none =>
    rw [exponentText, List.append_nil]
    exact ⟨_, List.getLast?_eq_some_getLast hne, hbase _ (List.getLast_mem hne)⟩
  | some digits =>
    obtain ⟨hne, hdigits⟩ := hk digits rfl
    refine ⟨_, ?_, hdigits _ (List.getLast_mem hne)⟩
    rw [exponentText, ← List.singleton_append]
    exact List.mem_getLast?_append_of_mem_getLast?
      (List.mem_getLast?_append_of_mem_getLast? (List.getLast?_eq_some_getLast hne))

theorem Constraint.exists_last_digit (b : Constraint) :
    ∃ c ∈ b.text.getLast?, c.isDigit = true := by
  obtain ⟨c, hc, hdigit⟩ := Bound.exists_last_digit b.base_ne_nil b.base_digits b.exponent_digits
  refine ⟨c, ?_, hdigit⟩
  iterate 4 refine List.mem_getLast?_append_of_mem_getLast? ?_
  exact hc

/-- A list of constraints is read apart from what stands behind it, unless that goes on with the
last number of the list. -/
theorem clauses_prepare_append_of_listed {bs : List Constraint} {s : List Char} (h : Listed bs s)
    {t : List Char} (ht : (∃ c ∈ s.getLast?, c.isDigit = true) → EndsNumber (prepare t)) :
    clauses (prepare (s ++ t)) = bs.map (·.clause) ++ clauses (prepare t) := by
  induction h with
  | nil => rfl
  | single b =>
    rw [b.prepare_text_append, b.clauses_prepared_append (ht b.exists_last_digit)]
    rfl
  | @cons b bs gap s hne hgap _ ih =>
    have hhead : EndsNumber (gap ++ prepare (s ++ t)) :=
      endsNumber_of_blank fun c hc => hgap c (mem_of_mem_head?_append hne hc)
    have hlast : (∃ c ∈ s.getLast?, c.isDigit = true) → EndsNumber (prepare t) := by
      rintro ⟨c, hc, hdigit⟩
      refine ht ⟨c, ?_, hdigit⟩
      exact List.mem_getLast?_append_of_mem_getLast? (List.mem_getLast?_append_of_mem_getLast? hc)
    rw [List.append_assoc, List.append_assoc, b.prepare_text_append, prepare_append_blanks hgap,
      b.clauses_prepared_append hhead,
      clauses_append_other (fun c hc => isIdentifierChar_eq_false_of_isBlank (hgap c hc)), ih hlast]
    rfl

theorem clauses_prepare_of_listed {bs : List Constraint} {s : List Char} (h : Listed bs s) :
    clauses (prepare s) = bs.map (·.clause) := by
  have hnil : EndsNumber (prepare []) := endsNumber_of_blank (by simp)
  have happend := clauses_prepare_append_of_listed h fun _ => hnil
  rwa [List.append_nil, prepare_nil, clauses, List.append_nil] at happend

/-- A description that lists constraints, punctuated in any way, declares one constant for each of
them, up to the first bound that does not fit. -/
theorem extract_listed {bs : List Constraint} {s : List Char} {description : String}
    (hs : Listed bs s) (hd : ReflTransGen Inserted s description.toList) :
    Extraction (bs.map (·.clause)) (extract description) ∧
      ∀ b ∈ bs, String.ofList (upper b.clause.identifier) ++ "_MAX" =
        String.ofList (b.clause.identifier.map Char.toUpper) ++ "_MAX" := by
  refine ⟨?_, fun b _ => by rw [upper_of_isWordChar b.identifier_word]⟩
  rw [← mapM_constant_eq_iff, extract, normalize_eq, prepare, ← bare_eq_of_inserted hd,
    ← clauses_prepare_of_listed hs]
  rfl

/-- `0leqLen\LEQ 10^5`. -/
def lengthConstraint : Constraint where
  lower := ['0']
  left := ⟨[], ['l', 'e', 'q'], [], by simp, .spelling (isSpelling_word_iff.2 (by decide)),
    by simp⟩
  clause := ⟨['L', 'e', 'n'], ['1', '0'], some ['5']⟩
  right := ⟨[], ['\\', 'L', 'E', 'Q'], [' '], by simp,
    .command (isSpelling_word_iff.2 (by decide)), List.all_eq_true.1 (by decide)⟩
  lower_digits := List.all_eq_true.1 (by decide)
  identifier_ne_nil := by simp
  identifier_word := List.all_eq_true.1 (by decide)
  identifier_head := by simp
  identifier_sign := by decide
  base_ne_nil := by simp
  base_digits := List.all_eq_true.1 (by decide)
  exponent_digits := by simp

/-- `1≦ le ≤2000`. -/
def letterConstraint : Constraint where
  lower := ['1']
  left := ⟨[], ['≦'], [' '], by simp, .unified, List.all_eq_true.1 (by decide)⟩
  clause := ⟨['l', 'e'], ['2', '0', '0', '0'], none⟩
  right := ⟨[' '], ['≤'], [], List.all_eq_true.1 (by decide), .spelling .glyph, by simp⟩
  lower_digits := List.all_eq_true.1 (by decide)
  identifier_ne_nil := by simp
  identifier_word := List.all_eq_true.1 (by decide)
  identifier_head := by simp
  identifier_sign := by decide
  base_ne_nil := by simp
  base_digits := List.all_eq_true.1 (by decide)
  exponent_digits := by simp

theorem extract_listed_punctuated :
    Listed [lengthConstraint, letterConstraint] "0leqLen\\LEQ 10^5\n1≦ le ≤2000".toList ∧
      ReflTransGen Inserted "0leqLen\\LEQ 10^5\n1≦ le ≤2000".toList
        "0leqLen\\LEQ 10^5,\n1≦ le ≤2,000".toList ∧
      Extraction [lengthConstraint.clause, letterConstraint.clause]
        (extract "0leqLen\\LEQ 10^5,\n1≦ le ≤2,000") := by
  have hlisted : Listed [lengthConstraint, letterConstraint]
      "0leqLen\\LEQ 10^5\n1≦ le ≤2000".toList :=
    .cons lengthConstraint (by simp : ['\n'] ≠ []) (List.all_eq_true.1 (by decide))
      (.single letterConstraint)
  have hfirst : Inserted "0leqLen\\LEQ 10^5\n1≦ le ≤2000".toList
      "0leqLen\\LEQ 10^5,\n1≦ le ≤2000".toList :=
    .intro "0leqLen\\LEQ 10^5".toList "\n1≦ le ≤2000".toList (by decide)
  have hsecond : Inserted "0leqLen\\LEQ 10^5,\n1≦ le ≤2000".toList
      "0leqLen\\LEQ 10^5,\n1≦ le ≤2,000".toList :=
    .intro "0leqLen\\LEQ 10^5,\n1≦ le ≤2".toList "000".toList (by decide)
  have hinserted := (ReflTransGen.single hfirst).tail hsecond
  exact ⟨hlisted, hinserted, (extract_listed hlisted hinserted).1⟩

/-! ## Two plain constraints -/

def spacedSign : Comparison :=
  ⟨[' '], ['≤'], [' '], List.all_eq_true.1 (by decide), .spelling .glyph,
    List.all_eq_true.1 (by decide)⟩

/-- `1 ≤ N ≤ 10`. -/
def rowsConstraint : Constraint where
  lower := ['1']
  left := spacedSign
  clause := ⟨['N'], ['1', '0'], none⟩
  right := spacedSign
  lower_digits := List.all_eq_true.1 (by decide)
  identifier_ne_nil := by simp
  identifier_word := List.all_eq_true.1 (by decide)
  identifier_head := by simp
  identifier_sign := by decide
  base_ne_nil := by simp
  base_digits := List.all_eq_true.1 (by decide)
  exponent_digits := by simp

/-- `1 ≤ M ≤ 5`. -/
def columnsConstraint : Constraint where
  lower := ['1']
  left := spacedSign
  clause := ⟨['M'], ['5'], none⟩
  right := spacedSign
  lower_digits := List.all_eq_true.1 (by decide)
  identifier_ne_nil := by simp
  identifier_word := List.all_eq_true.1 (by decide)
  identifier_head := by simp
  identifier_sign := by decide
  base_ne_nil := by simp
  base_digits := List.all_eq_true.1 (by decide)
  exponent_digits := by simp

end ContestInput.Bound

import ContestInput.Proofs.Bound.Constraints
/-!
# Commas

A comma between two lists of constraints separates them, whatever white space stands beside it, as
long as it has not a digit on each side. Between two digits it groups the digits of one number: the
lower bound behind it goes on with the upper bound in front of it.
-/

namespace ContestInput.Bound

open Text

/-! ## Numbers that go on -/

/-- The clause with more digits behind its number. -/
def Clause.extend (c : Clause) (digits : List Char) : Clause where
  identifier := c.identifier
  base := if c.exponent.isNone then c.base ++ digits else c.base
  exponent := c.exponent.map (· ++ digits)

private theorem Clause.number_extend (c : Clause) (digits : List Char) :
    (c.extend digits).number = c.number ++ digits := by
  obtain ⟨identifier, base, exponent⟩ := c
  cases exponent with
  | none => simp [number, extend, exponentText]
  | some k => simp [number, extend, exponentText]

namespace Constraint

def extend (b : Constraint) (digits : List Char) (h : ∀ c ∈ digits, c.isDigit = true) :
    Constraint :=
  { b with
    clause := b.clause.extend digits
    base_ne_nil := by
      simp only [Clause.extend]
      split
      · exact List.append_ne_nil_of_left_ne_nil b.base_ne_nil digits
      · exact b.base_ne_nil
    base_digits := by
      simp only [Clause.extend]
      split
      · exact List.forall_mem_append.2 ⟨b.base_digits, h⟩
      · exact b.base_digits
    exponent_digits := by
      intro k hk
      obtain ⟨k, hexponent, rfl⟩ := Option.map_eq_some_iff.1 hk
      obtain ⟨hne, hdigits⟩ := b.exponent_digits k hexponent
      exact ⟨List.append_ne_nil_of_left_ne_nil hne digits,
        List.forall_mem_append.2 ⟨hdigits, h⟩⟩ }

private theorem text_extend (b : Constraint) {digits : List Char}
    (h : ∀ c ∈ digits, c.isDigit = true) : (b.extend digits h).text = b.text ++ digits := by
  simp only [text, extend, Clause.number_extend, List.append_assoc]
  rfl

def unbounded (b : Constraint) : Constraint :=
  { b with lower := [], lower_digits := by simp }

private theorem text_eq_lower_append (b : Constraint) : b.text = b.lower ++ b.unbounded.text :=
  rfl

theorem endsNumber_prepare_unbounded (b : Constraint) (t : List Char) :
    EndsNumber (prepare (b.unbounded.text ++ t)) := by
  have hprepared : prepare (b.unbounded.text ++ t) =
      b.left.before ++ '≦' :: (b.left.after ++ (b.clause.identifier ++
        (b.right.prepared ++ b.clause.number)) ++ prepare t) := by
    rw [prepare_text_append]
    simp only [prepared, unbounded, Comparison.prepared, List.nil_append, List.append_assoc,
      List.cons_append]
  rw [hprepared]
  cases hbefore : b.left.before with
  | nil =>
    rintro c ⟨⟩
    exact ⟨by decide, by decide⟩
  | cons x xs =>
    refine endsNumber_of_blank ?_
    rintro c ⟨⟩
    exact b.left.before_blank x (by simp [hbefore])

end Constraint

/-! ## Lists that go on -/

private theorem isBlank_of_mem_getLast? {s t : List Char} (hne : t ≠ [])
    (ht : ∀ c ∈ t, isBlank c = true) : ∀ c ∈ (s ++ t).getLast?, isBlank c = true := by
  intro c hc
  rw [List.getLast?_append_of_ne_nil s hne] at hc
  exact ht c (List.mem_of_mem_getLast? hc)

theorem Listed.extend {bs : List Constraint} {s digits : List Char} (h : Listed bs s)
    (hdigits : ∀ c ∈ digits, c.isDigit = true) (hlast : ∃ c ∈ s.getLast?, c.isDigit = true) :
    ∃ front b, bs = front ++ [b] ∧ Listed (front ++ [b.extend digits hdigits]) (s ++ digits) := by
  induction h with
  | nil => simp at hlast
  | single b => exact ⟨[], b, rfl, b.text_extend hdigits ▸ .single _⟩
  | @cons b bs gap s hne hgap hs ih =>
    obtain ⟨c, hc, hdigit⟩ := hlast
    have hs : s ≠ [] := by
      rintro rfl
      rw [List.append_nil] at hc
      exact absurd hdigit (by simp [isDigit_eq_false_of_isBlank
        (isBlank_of_mem_getLast? hne hgap c hc)])
    rw [List.getLast?_append_of_ne_nil _ (by simp [hs]), List.getLast?_append_of_ne_nil _ hs] at hc
    obtain ⟨front, b', rfl, hlisted⟩ := ih ⟨c, hc, hdigit⟩
    refine ⟨b :: front, b', rfl, ?_⟩
    rw [List.append_assoc, List.append_assoc]
    exact .cons b hne hgap hlisted

private theorem Listed.exists_eq_lower_append {b : Constraint} {bs : List Constraint}
    {s : List Char} (h : Listed (b :: bs) s) :
    ∃ t, s = b.lower ++ t ∧ Listed (b.unbounded :: bs) t ∧
      EndsNumber (prepare t) := by
  cases h with
  | single =>
    refine ⟨b.unbounded.text, b.text_eq_lower_append, .single _, ?_⟩
    have h := b.endsNumber_prepare_unbounded []
    rwa [List.append_nil] at h
  | @cons _ _ gap s hne hgap hs =>
    refine ⟨b.unbounded.text ++ (gap ++ s), ?_, .cons _ hne hgap hs,
      b.endsNumber_prepare_unbounded _⟩
    rw [b.text_eq_lower_append, List.append_assoc]

/-! ## What a comma does -/

/-- A text that ends with a digit, before one that starts with a digit. -/
def MeetInDigits (s t : List Char) : Prop :=
  (∃ c ∈ s.getLast?, c.isDigit = true) ∧ ∃ c ∈ t.head?, c.isDigit = true

section

variable {bs bs' : List Constraint} {s s' t before after : List Char} {d d' : String}

theorem clauses_prepare_blanks_append (h : ∀ c ∈ before, isBlank c = true) (t : List Char) :
    clauses (prepare (before ++ t)) = clauses (prepare t) := by
  rw [prepare_append_blanks h,
    clauses_append_other fun c hc => isIdentifierChar_eq_false_of_isBlank (h c hc)]

theorem endsNumber_prepare_blanks_append (hne : before ≠ []) (h : ∀ c ∈ before, isBlank c = true)
    (t : List Char) : EndsNumber (prepare (before ++ t)) := by
  rw [prepare_append_blanks h]
  exact endsNumber_of_blank fun c hc => h c (mem_of_mem_head?_append hne hc)

/-- White space behind a list of constraints belongs to none of them. -/
theorem clauses_prepare_append_of_padded (hs : Listed bs s)
    (hbefore : ∀ c ∈ before, isBlank c = true)
    (ht : (∃ c ∈ (s ++ before).getLast?, c.isDigit = true) → EndsNumber (prepare t)) :
    clauses (prepare (s ++ (before ++ t))) = bs.map (·.clause) ++ clauses (prepare t) := by
  by_cases hne : before = []
  · subst hne
    rw [List.append_nil] at ht
    exact clauses_prepare_append_of_listed hs ht
  · rw [clauses_prepare_append_of_listed hs
      fun _ => endsNumber_prepare_blanks_append hne hbefore t,
      clauses_prepare_blanks_append hbefore]

theorem endsNumber_prepare_padded (hs : Listed bs s) (hafter : ∀ c ∈ after, isBlank c = true)
    (hhead : ¬ ∃ c ∈ (after ++ s).head?, c.isDigit = true) :
    EndsNumber (prepare (after ++ s)) := by
  by_cases hne : after = []
  · subst hne
    rw [List.nil_append] at hhead ⊢
    cases bs with
    | nil =>
      cases hs
      exact endsNumber_of_blank (by simp)
    | cons b bs =>
      obtain ⟨t, rfl, -, ht⟩ := hs.exists_eq_lower_append
      cases hlower : b.lower with
      | nil => exact ht
      | cons c cs =>
        refine absurd ⟨c, by rw [hlower]; rfl, b.lower_digits c (by simp [hlower])⟩ hhead
  · exact endsNumber_prepare_blanks_append hne hafter s

theorem clauses_prepare_of_separate (hs : Listed bs s) (hs' : Listed bs' s')
    (hbefore : ∀ c ∈ before, isBlank c = true) (hafter : ∀ c ∈ after, isBlank c = true)
    (h : ¬ MeetInDigits (s ++ before) (after ++ s')) :
    clauses (prepare (s ++ (before ++ (after ++ s')))) =
      bs.map (·.clause) ++ bs'.map (·.clause) := by
  rw [clauses_prepare_append_of_padded hs hbefore, clauses_prepare_blanks_append hafter,
    clauses_prepare_of_listed hs']
  intro hlast
  exact endsNumber_prepare_padded hs' hafter fun hhead => h ⟨hlast, hhead⟩

theorem clauses_prepare_of_meet (hs : Listed bs s) (hs' : Listed bs' s') (h : MeetInDigits s s') :
    ∃ front b b' rest, bs = front ++ [b] ∧ bs' = b' :: rest ∧ clauses (prepare (s ++ s')) =
      front.map (·.clause) ++ b.clause.extend b'.lower :: bs'.map (·.clause) := by
  obtain ⟨hlast, x, hx, -⟩ := h
  cases bs' with
  | nil =>
    cases hs'
    exact absurd hx (by simp)
  | cons b' rest =>
    obtain ⟨t, rfl, ht, hend⟩ := hs'.exists_eq_lower_append
    obtain ⟨front, b, rfl, hextended⟩ := hs.extend b'.lower_digits hlast
    refine ⟨front, b, b', rest, rfl, rfl, ?_⟩
    rw [← List.append_assoc, clauses_prepare_append_of_listed hextended fun _ => hend,
      clauses_prepare_of_listed ht, List.map_append, List.append_assoc]
    rfl

theorem clauses_prepare_of_padded (hs : Listed bs s) (hbefore : ∀ c ∈ before, isBlank c = true) :
    clauses (prepare (s ++ before)) = bs.map (·.clause) := by
  have hnil : EndsNumber (prepare []) := endsNumber_of_blank (by simp)
  have happend := clauses_prepare_append_of_padded hs hbefore fun _ => hnil
  rwa [List.append_nil, prepare_nil, clauses, List.append_nil] at happend

/-- Digits meet only where no white space stands between them. -/
theorem MeetInDigits.blanks_eq_nil (h : MeetInDigits (s ++ before) (after ++ s'))
    (hbefore : ∀ c ∈ before, isBlank c = true) (hafter : ∀ c ∈ after, isBlank c = true) :
    before = [] ∧ after = [] := by
  obtain ⟨⟨c, hc, hcdigit⟩, x, hx, hxdigit⟩ := h
  constructor
  · by_contra hne
    have hblank := isBlank_of_mem_getLast? hne hbefore c hc
    exact absurd hcdigit (by simp [isDigit_eq_false_of_isBlank hblank])
  · by_contra hne
    have hblank := hafter x (mem_of_mem_head?_append hne hx)
    exact absurd hxdigit (by simp [isDigit_eq_false_of_isBlank hblank])

theorem prepare_append_comma (d d' : String) :
    prepare (d ++ "," ++ d').toList = prepare (d.toList ++ d'.toList) := by
  have hinserted : Inserted (d.toList ++ d'.toList) (d.toList ++ ',' :: d'.toList) :=
    .intro _ _ (by decide)
  have htext : (d ++ "," ++ d').toList = d.toList ++ ',' :: d'.toList := by simp
  rw [htext, prepare, ← hinserted.bare_eq]
  rfl

/-- A comma with a digit on each side lets the lower bound behind it go on with the upper bound in
front of it. Any other comma separates two lists of constraints: each declares what it declares
alone, up to the first bound that does not fit. -/
theorem extract_append_comma (hs : Listed bs s) (hs' : Listed bs' s')
    (hbefore : ∀ c ∈ before, isBlank c = true) (hafter : ∀ c ∈ after, isBlank c = true)
    (hd : d.toList = s ++ before) (hd' : d'.toList = after ++ s') :
    (¬ MeetInDigits d.toList d'.toList → extract (d ++ "," ++ d') = do
      let first ← extract d
      let second ← extract d'
      return first ++ second) ∧
    (MeetInDigits d.toList d'.toList → ∃ front b b' rest,
      bs = front ++ [b] ∧ bs' = b' :: rest ∧
      Extraction (front.map (·.clause) ++ b.clause.extend b'.lower :: bs'.map (·.clause))
        (extract (d ++ "," ++ d'))) := by
  rw [hd, hd']
  constructor
  · intro h
    have hfirst : clauses (prepare d.toList) = bs.map (·.clause) := by
      rw [hd, clauses_prepare_of_padded hs hbefore]
    have hsecond : clauses (prepare d'.toList) = bs'.map (·.clause) := by
      rw [hd', clauses_prepare_blanks_append hafter, clauses_prepare_of_listed hs']
    have hboth : clauses (prepare (d ++ "," ++ d').toList) =
        bs.map (·.clause) ++ bs'.map (·.clause) := by
      rw [prepare_append_comma, hd, hd', List.append_assoc,
        clauses_prepare_of_separate hs hs' hbefore hafter h]
    rw [extract, extract, extract, normalize_eq, normalize_eq, normalize_eq, hboth, hfirst,
      hsecond, List.mapM_append]
  · intro h
    obtain ⟨rfl, rfl⟩ := h.blanks_eq_nil hbefore hafter
    rw [List.append_nil] at h hd
    rw [List.nil_append] at h hd'
    obtain ⟨front, b, b', rest, hbs, hbs', hclauses⟩ := clauses_prepare_of_meet hs hs' h
    refine ⟨front, b, b', rest, hbs, hbs', ?_⟩
    rw [← mapM_constant_eq_iff, extract, normalize_eq, prepare_append_comma, hd, hd', hclauses]

end

/-- A comma with white space behind it. -/
theorem extract_append_comma_line :
    Listed [rowsConstraint] "1 ≤ N ≤ 10".toList ∧
      Listed [columnsConstraint] "1 ≤ M ≤ 5".toList ∧
      extract ("1 ≤ N ≤ 10" ++ "," ++ "\n1 ≤ M ≤ 5") = do
        let first ← extract "1 ≤ N ≤ 10"
        let second ← extract "\n1 ≤ M ≤ 5"
        return first ++ second := by
  have hs : Listed [rowsConstraint] "1 ≤ N ≤ 10".toList := .single rowsConstraint
  have hs' : Listed [columnsConstraint] "1 ≤ M ≤ 5".toList := .single columnsConstraint
  have hline : ∀ c ∈ ['\n'], isBlank c = true := List.all_eq_true.1 (by decide)
  have h := @extract_append_comma [rowsConstraint] [columnsConstraint] _ _ [] ['\n']
    "1 ≤ N ≤ 10" "\n1 ≤ M ≤ 5" hs hs' (by simp) hline rfl rfl
  have hseparate : ¬ MeetInDigits "1 ≤ N ≤ 10".toList "\n1 ≤ M ≤ 5".toList := by
    rintro ⟨-, c, hc, hdigit⟩
    obtain rfl : '\n' = c := Option.some.inj hc
    exact absurd hdigit (by decide)
  exact ⟨hs, hs', h.1 hseparate⟩

/-- With no white space beside the comma, the one behind it becomes a digit of the bound of `N`. -/
theorem extract_append_comma_ne :
    Listed [rowsConstraint] "1 ≤ N ≤ 10".toList ∧
      Listed [columnsConstraint] "1 ≤ M ≤ 5".toList ∧
      extract ("1 ≤ N ≤ 10" ++ "," ++ "1 ≤ M ≤ 5") = .ok [⟨"N_MAX", 101⟩, ⟨"M_MAX", 5⟩] ∧
      extract ("1 ≤ N ≤ 10" ++ "," ++ "1 ≤ M ≤ 5") ≠ do
        let first ← extract "1 ≤ N ≤ 10"
        let second ← extract "1 ≤ M ≤ 5"
        return first ++ second :=
  ⟨.single rowsConstraint, .single columnsConstraint, by decide +kernel, by decide +kernel⟩

end ContestInput.Bound

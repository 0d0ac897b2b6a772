import ContestInput.Proofs.Text.Classes
/-!
# Signs of comparison

What it means that every spelling of "at most" in a text has given way to the one sign. The
spellings are a glyph and a word of three letters in any case; no two of them can overlap, so the
rewritten text is determined.
-/

namespace ContestInput.Bound

/-- The spellings of "at most" that are replaced. -/
inductive IsSpelling : List Char → Prop where
  | glyph : IsSpelling ['≤']
  | word {l e q : Char} : l = 'l' ∨ l = 'L' → e = 'e' ∨ e = 'E' → q = 'q' ∨ q = 'Q' →
      IsSpelling [l, e, q]

/-- `t` is the text `s` with one sign in the place of every spelling. -/
inductive Unified : List Char → List Char → Prop where
  | nil : Unified [] []
  | spelling {w s t : List Char} : IsSpelling w → Unified s t → Unified (w ++ s) ('≦' :: t)
  | other {c : Char} {s t : List Char} : (¬ ∃ w, IsSpelling w ∧ w <+: c :: s) →
      Unified s t → Unified (c :: s) (c :: t)

theorem isSpelling_word_iff {l e q : Char} :
    IsSpelling [l, e, q] ↔ l.toLower = 'l' ∧ e.toLower = 'e' ∧ q.toLower = 'q' := by
  rw [Text.toLower_eq_iff (by decide), Text.toLower_eq_iff (by decide),
    Text.toLower_eq_iff (by decide)]
  constructor
  · rintro ⟨⟩
    exact ⟨‹_›, ‹_›, ‹_›⟩
  · rintro ⟨hl, he, hq⟩
    exact .word hl he hq

theorem isSpelling_prefix_iff {c : Char} {s : List Char} :
    (∃ w, IsSpelling w ∧ w <+: c :: s) ↔
      c = '≤' ∨ ∃ e q r, s = e :: q :: r ∧ IsSpelling [c, e, q] := by
  constructor
  · rintro ⟨w, hw, r, hr⟩
    cases hw with
    | glyph => exact .inl (List.cons.inj hr).1.symm
    | word hl he hq =>
      obtain ⟨rfl, rfl⟩ := List.cons.inj hr
      exact .inr ⟨_, _, r, rfl, .word hl he hq⟩
  · rintro (rfl | ⟨e, q, r, rfl, h⟩)
    · exact ⟨_, .glyph, s, rfl⟩
    · exact ⟨_, h, r, rfl⟩

private theorem unifySigns_word {l e q : Char} (s : List Char) (h : IsSpelling [l, e, q]) :
    unifySigns (l :: e :: q :: s) = '≦' :: unifySigns s := by
  have hl : l ≠ '≤' := by
    rintro rfl
    exact absurd (isSpelling_word_iff.1 h).1 (by decide)
  rw [unifySigns.eq_2 _ _ _ _ (fun h => hl h), if_pos]
  simpa [and_assoc] using isSpelling_word_iff.1 h

private theorem unifySigns_other {c : Char} {s : List Char}
    (h : ¬ ∃ w, IsSpelling w ∧ w <+: c :: s) : unifySigns (c :: s) = c :: unifySigns s := by
  rw [isSpelling_prefix_iff, not_or] at h
  obtain ⟨hc, hw⟩ := h
  match s with
  | [] => rw [unifySigns.eq_3 _ _ (fun h => hc h) (by simp)]
  | [b] => rw [unifySigns.eq_3 _ _ (fun h => hc h) (by simp)]
  | e :: q :: r =>
    rw [unifySigns.eq_2 _ _ _ _ (fun h => hc h), if_neg]
    intro h
    exact hw ⟨e, q, r, rfl, isSpelling_word_iff.2 (by simpa [and_assoc] using h)⟩

theorem eq_unifySigns_of_unified {s t : List Char} (h : Unified s t) : t = unifySigns s := by
  induction h with
  | nil => rfl
  | spelling hw _ ih =>
    cases hw with
    | glyph => rw [ih]; rfl
    | word hl he hq =>
      rw [ih]
      exact (unifySigns_word _ (.word hl he hq)).symm
  | other hc _ ih => rw [ih, unifySigns_other hc]

theorem unified_unifySigns (s : List Char) : Unified s (unifySigns s) := by
  induction s using unifySigns.induct with
  | case1 s ih => exact .spelling .glyph ih
  | case2 l e q s _ h ih =>
    have hw : IsSpelling [l, e, q] := isSpelling_word_iff.2 (by simpa [and_assoc] using h)
    rw [unifySigns_word s hw]
    exact .spelling hw ih
  | case3 l e q s hl h ih =>
    have hnone : ¬ ∃ w, IsSpelling w ∧ w <+: l :: e :: q :: s := by
      rw [isSpelling_prefix_iff]
      rintro (hl' | ⟨_, _, _, heq, hw⟩)
      · exact hl hl'
      · obtain ⟨rfl, rfl, rfl⟩ := by simpa using heq
        exact h (by simpa [and_assoc] using isSpelling_word_iff.1 hw)
    rw [unifySigns_other hnone]
    exact .other hnone ih
  | case4 c s hc hshort ih =>
    have hnone : ¬ ∃ w, IsSpelling w ∧ w <+: c :: s := by
      rw [isSpelling_prefix_iff]
      rintro (hc' | ⟨e, q, r, hs, -⟩)
      · exact hc hc'
      · exact hshort e q r hs
    rw [unifySigns_other hnone]
    exact .other hnone ih
  | case5 => exact .nil

theorem unified_iff {s t : List Char} : Unified s t ↔ t = unifySigns s := by
  constructor
  · exact eq_unifySigns_of_unified
  · rintro rfl
    exact unified_unifySigns s

/-! ## Parts of a text -/

theorem Unified.append {s s' t t' : List Char} (hs : Unified s s') (ht : Unified t t')
    (hhead : ∀ c ∈ t.head?, c ∉ ['e', 'E', 'q', 'Q']) : Unified (s ++ t) (s' ++ t') := by
  induction hs with
  | nil => exact ht
  | spelling hw _ ih =>
    rw [List.append_assoc, List.cons_append]
    exact .spelling hw ih
  | @other c s _ hnone _ ih =>
    refine .other (fun hspelling => hnone ?_) ih
    rw [isSpelling_prefix_iff]
    rcases isSpelling_prefix_iff.1 hspelling with hc | ⟨e, q, r, heq, hw⟩
    · exact .inl hc
    · have hparts : (e = 'e' ∨ e = 'E') ∧ (q = 'q' ∨ q = 'Q') := by
        cases hw with
        | word _ he hq => exact ⟨he, hq⟩
      change s ++ t = e :: q :: r at heq
      match s with
      | [] =>
        have heq : t = e :: q :: r := heq
        have he := hhead e (by rw [heq]; rfl)
        rcases hparts.1 with rfl | rfl <;> exact absurd he (by decide)
      | [_] =>
        have heq : t = q :: r := (List.cons.inj heq).2
        have hq := hhead q (by rw [heq]; rfl)
        rcases hparts.2 with rfl | rfl <;> exact absurd hq (by decide)
      | a :: b :: s =>
        obtain ⟨ha, heq⟩ := List.cons.inj heq
        obtain ⟨hb, -⟩ := List.cons.inj heq
        exact .inr ⟨a, b, s, rfl, by rwa [ha, hb]⟩

theorem unifySigns_append {s t : List Char}
    (hhead : ∀ c ∈ t.head?, c ∉ ['e', 'E', 'q', 'Q']) :
    unifySigns (s ++ t) = unifySigns s ++ unifySigns t :=
  (unified_iff.1 ((unified_unifySigns s).append (unified_unifySigns t) hhead)).symm

theorem unifySigns_eq_self {s : List Char} (h : ∀ w, IsSpelling w → ¬ w <:+: s) :
    unifySigns s = s := by
  induction s with
  | nil => rfl
  | cons c s ih =>
    rw [unifySigns_other, ih fun w hw hs => h w hw (hs.trans (List.suffix_cons c s).isInfix)]
    rintro ⟨w, hw, hprefix⟩
    exact h w hw hprefix.isInfix

/-! ## Signs as they are written -/

/-- The ways to write the sign: the spellings, the word with a backslash, and the sign itself. -/
inductive IsSign : List Char → Prop where
  | spelling {w : List Char} : IsSpelling w → IsSign w
  | command {l e q : Char} : IsSpelling [l, e, q] → IsSign ['\\', l, e, q]
  | unified : IsSign ['≦']

def punctuation : List Char :=
  [',', '\\', '(', ')', '{', '}', '|']

def bare (s : List Char) : List Char :=
  s.filter (!isPunctuation ·)

@[simp] theorem bare_append (s t : List Char) : bare (s ++ t) = bare s ++ bare t :=
  List.filter_append s t

theorem isPunctuation_iff {c : Char} : isPunctuation c = true ↔ c ∈ punctuation :=
  decide_eq_true_iff

theorem bare_of_class {p : Char → Bool} (hp : punctuation.any p = false) {s : List Char}
    (hs : ∀ c ∈ s, p c = true) : bare s = s := by
  rw [bare, List.filter_eq_self]
  intro c hc
  rw [Bool.not_eq_true', ← Bool.not_eq_true, isPunctuation_iff]
  intro h
  exact List.any_eq_false.1 hp c h (hs c hc)

theorem unifySigns_spelling {w : List Char} (hw : IsSpelling w) (s : List Char) :
    unifySigns (w ++ s) = '≦' :: unifySigns s :=
  (unified_iff.1 (.spelling hw (unified_unifySigns s))).symm

/-- Where no spelling can start, nothing is rewritten, whatever stands behind. -/
theorem unifySigns_append_plain {s : List Char} (h : ∀ c ∈ s, c ∉ ['l', 'L', '≤'])
    (t : List Char) : unifySigns (s ++ t) = s ++ unifySigns t := by
  induction s with
  | nil => rfl
  | cons c s ih =>
    obtain ⟨hc, hs⟩ := List.forall_mem_cons.1 h
    rw [List.cons_append, unifySigns_other, ih hs, List.cons_append]
    rw [isSpelling_prefix_iff]
    rintro (rfl | ⟨e, q, r, -, hw⟩)
    · exact hc (by decide)
    · cases hw with
      | word hl => rcases hl with rfl | rfl <;> exact hc (by decide)

theorem IsSpelling.bare_eq {w : List Char} (hw : IsSpelling w) : bare w = w := by
  cases hw with
  | glyph => rfl
  | word hl he hq =>
    rcases hl with rfl | rfl <;> rcases he with rfl | rfl <;> rcases hq with rfl | rfl <;> rfl

private theorem IsSpelling.head?_notMem {w s : List Char} (hw : IsSpelling w) :
    ∀ c ∈ (w ++ s).head?, c ∉ ['e', 'E', 'q', 'Q'] := by
  rintro c hc
  cases hw with
  | glyph =>
    obtain rfl := Option.some.inj hc
    decide
  | word hl =>
    obtain rfl := Option.some.inj hc
    rcases hl with rfl | rfl <;> decide

def prepare (s : List Char) : List Char :=
  unifySigns (bare s)

theorem normalize_eq (description : String) : normalize description = prepare description.toList :=
  rfl

theorem IsSpelling.prepare_append {w : List Char} (hw : IsSpelling w) (s t : List Char) :
    unifySigns (bare s ++ (w ++ bare t)) = prepare s ++ '≦' :: prepare t := by
  rw [unifySigns_append hw.head?_notMem, unifySigns_spelling hw]
  rfl

/-- However a sign is written, it is one sign, and what is on either side of it is read by
itself. -/
theorem IsSign.prepare_append {w : List Char} (hw : IsSign w) (s t : List Char) :
    prepare (s ++ (w ++ t)) = prepare s ++ '≦' :: prepare t := by
  rw [prepare, bare_append, bare_append]
  cases hw with
  | spelling hw =>
    rw [hw.bare_eq]
    exact hw.prepare_append s t
  | @command l e q hw =>
    have hbare : bare ('\\' :: [l, e, q]) = [l, e, q] := hw.bare_eq
    rw [hbare]
    exact hw.prepare_append s t
  | unified =>
    have hbare : bare ['≦'] = ['≦'] := rfl
    rw [hbare, unifySigns_append (by rintro c ⟨⟩; decide), unifySigns_append_plain (by simp)]
    rfl

end ContestInput.Bound

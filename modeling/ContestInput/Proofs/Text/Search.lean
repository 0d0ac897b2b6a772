import ContestInput.Text.Search
import Mathlib.Data.List.Infix
/-!
# Where a marker gives way

Text that stays when a marker is replaced, because the marker does not start in it. A marker that
has no line break in it never starts in one line and ends in the next, so only those lines count
that hold a whole marker.
-/

namespace ContestInput.Text

variable {marker new s t : List Char} {c : Char}

private theorem isPrefix_of_isPrefix_append_cons (hc : c ∉ marker) (h : marker <+: s ++ c :: t) :
    marker <+: s := by
  rcases List.prefix_or_prefix_of_prefix h (List.prefix_append s (c :: t)) with h | ⟨u, rfl⟩
  · exact h
  · cases u with
    | nil => simp
    | cons d u =>
      rw [List.prefix_append_right_inj, List.cons_prefix_cons] at h
      obtain ⟨rfl, -⟩ := h
      exact absurd (by simp) hc

/-- Two texts with a character between them that the marker does not have are searched apart. -/
theorem isInfix_append_cons_iff (hc : c ∉ marker) :
    marker <:+: s ++ c :: t ↔ marker <:+: s ∨ marker <:+: t := by
  constructor
  · intro h
    induction s with
    | nil =>
      rw [List.nil_append, List.infix_cons_iff] at h
      exact h.imp (fun hstart => (isPrefix_of_isPrefix_append_cons (s := []) hc hstart).isInfix) id
    | cons d s ih =>
      rw [List.cons_append, List.infix_cons_iff] at h
      rcases h with hstart | hlater
      · exact .inl (isPrefix_of_isPrefix_append_cons (s := d :: s) hc hstart).isInfix
      · exact (ih hlater).imp_left fun hs => hs.trans (List.suffix_cons d s).isInfix
  · rintro (hs | ht)
    · exact hs.trans (List.prefix_append s (c :: t)).isInfix
    · exact ht.trans ((List.suffix_cons c t).trans (List.suffix_append s (c :: t))).isInfix

theorem replaceFirst_marker (hmarker : marker ≠ []) (new t : List Char) :
    replaceFirst marker new (marker ++ t) = new ++ t := by
  obtain ⟨d, m, rfl⟩ := List.exists_cons_of_ne_nil hmarker
  have hstart : (d :: m).isPrefixOf (d :: (m ++ t)) = true :=
    List.isPrefixOf_iff_prefix.2 (List.prefix_append (d :: m) t)
  rw [List.cons_append, replaceFirst, if_pos hstart, ← List.cons_append, List.drop_left]

theorem replaceFirst_cons (h : ¬ marker <+: c :: s) :
    replaceFirst marker new (c :: s) = c :: replaceFirst marker new s := by
  rw [replaceFirst, if_neg]
  rwa [List.isPrefixOf_iff_prefix]

/-- A text without the marker stays, if a character ends it that the marker does not have. -/
theorem replaceFirst_append_cons (hc : c ∉ marker) (h : ¬ marker <:+: s) :
    replaceFirst marker new (s ++ c :: t) = s ++ c :: replaceFirst marker new t := by
  induction s with
  | nil =>
    refine replaceFirst_cons fun hstart => h ?_
    exact (isPrefix_of_isPrefix_append_cons (s := []) hc hstart).isInfix
  | cons d s ih =>
    rw [List.infix_cons_iff, not_or] at h
    rw [List.cons_append, replaceFirst_cons, ih h.2, List.cons_append]
    exact fun hstart => h.1 (isPrefix_of_isPrefix_append_cons (s := d :: s) hc hstart)

end ContestInput.Text

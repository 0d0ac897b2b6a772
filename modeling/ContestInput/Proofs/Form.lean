import ContestInput.Form
import ContestInput.Proofs.Fallible
import Mathlib.Data.List.Nodup
/-!
# Definitions that keep their promises

Which definitions have a form: those whose names are there, all different and one alone where the
layout wants it, whose sizes are as many as the layout has dimensions, and whose layout can hold
the kind of value.
-/

namespace ContestInput

theorem firstRepeated?_eq_none_iff {seen names : List String} :
    firstRepeated? seen names = none ↔ names.Nodup ∧ ∀ name ∈ names, name ∉ seen := by
  induction names generalizing seen with
  | nil => simp [firstRepeated?]
  | cons name names ih =>
    rw [firstRepeated?]
    by_cases hname : name ∈ seen
    · rw [if_pos hname]
      simp [hname]
    · rw [if_neg hname, ih, List.nodup_cons, List.forall_mem_cons]
      simp only [List.mem_cons, not_or]
      constructor
      · rintro ⟨hnodup, hnew⟩
        exact ⟨⟨fun hmem => (hnew name hmem).1 rfl, hnodup⟩, hname, fun x hx => (hnew x hx).2⟩
      · rintro ⟨⟨hhead, hnodup⟩, -, hnew⟩
        exact ⟨hnodup, fun x hx => ⟨ne_of_mem_of_not_mem hx hhead, hnew x hx⟩⟩

/-- The name told is the first one that comes again, whatever comes again behind it. -/
theorem firstRepeated?_eq_some_iff {seen names : List String} {name : String} :
    firstRepeated? seen names = some name ↔ ∃ before after, names = before ++ name :: after ∧
      firstRepeated? seen before = none ∧ (name ∈ before ∨ name ∈ seen) := by
  induction names generalizing seen with
  | nil => simp [firstRepeated?]
  | cons x names ih =>
    rw [firstRepeated?]
    by_cases hx : x ∈ seen
    · rw [if_pos hx, Option.some.injEq]
      constructor
      · rintro rfl
        exact ⟨[], names, rfl, rfl, .inr hx⟩
      · rintro ⟨before, after, heq, hbefore, -⟩
        cases before with
        | nil => exact (List.cons.inj heq).1
        | cons y before =>
          obtain ⟨rfl, -⟩ := List.cons.inj heq
          rw [firstRepeated?, if_pos hx] at hbefore
          exact absurd hbefore (by simp)
    · rw [if_neg hx, ih]
      constructor
      · rintro ⟨before, after, rfl, hbefore, hname⟩
        refine ⟨x :: before, after, rfl, ?_, ?_⟩
        · rw [firstRepeated?, if_neg hx]
          exact hbefore
        · simpa [or_assoc, or_left_comm] using hname
      · rintro ⟨before, after, heq, hbefore, hname⟩
        cases before with
        | nil =>
          obtain ⟨rfl, -⟩ := List.cons.inj heq
          exact absurd (hname.resolve_left List.not_mem_nil) hx
        | cons y before =>
          obtain ⟨rfl, rfl⟩ := List.cons.inj heq
          rw [firstRepeated?, if_neg hx] at hbefore
          exact ⟨before, after, rfl, hbefore, by simpa [or_assoc, or_left_comm] using hname⟩

namespace Definition

variable {d : Definition} {f : Form}

/-- What a definition promises whatever the constants are. -/
structure IsValid (d : Definition) : Prop where
  names_ne_nil : d.names ≠ []
  oneName : d.layout.oneName = true → d.names.length = 1
  nodup : d.names.Nodup
  arity : d.sizes.length = d.layout.arity

theorem validate_eq_ok_iff : d.validate = .ok () ↔ d.IsValid := by
  rw [validate]
  simp only [List.isEmpty_iff, Bool.and_eq_true, decide_eq_true_eq]
  by_cases hnil : d.names = []
  · rw [if_pos hnil]
    exact ⟨fun h => absurd h (by simp), fun h => absurd hnil h.names_ne_nil⟩
  rw [if_neg hnil]
  by_cases hone : d.layout.oneName = true ∧ d.names.length ≠ 1
  · rw [if_pos hone]
    exact ⟨fun h => absurd h (by simp), fun h => absurd (h.oneName hone.1) hone.2⟩
  rw [if_neg hone]
  cases hrepeated : firstRepeated? [] d.names with
  | some name =>
    refine ⟨fun h => absurd h (by simp), fun h => ?_⟩
    rw [firstRepeated?_eq_none_iff.2 ⟨h.nodup, by simp⟩] at hrepeated
    exact absurd hrepeated (by simp)
  | none =>
    have hnodup := (firstRepeated?_eq_none_iff.1 hrepeated).1
    by_cases harity : d.sizes.length ≠ d.layout.arity
    · simp only [if_pos harity]
      exact ⟨fun h => absurd h (by simp), fun h => absurd h.arity harity⟩
    · simp only [if_neg harity, true_iff]
      exact ⟨hnil, fun h => not_not.1 fun hne => hone ⟨h, hne⟩, hnodup, not_not.1 harity⟩

theorem form_eq_ok_iff :
    d.form = .ok f ↔ d.IsValid ∧ f.layout = d.layout ∧ f.item = d.item := by
  rw [form, Fallible.bind_eq_ok_iff, ← validate_eq_ok_iff]
  obtain ⟨layout, item, holds⟩ := f
  constructor
  · rintro ⟨⟨⟩, hvalid, hof⟩
    rw [Form.of] at hof
    split at hof
    · obtain ⟨rfl, rfl⟩ := Form.mk.inj (Except.ok.inj hof)
      exact ⟨hvalid, rfl, rfl⟩
    · exact absurd hof (by simp)
  · rintro ⟨hvalid, rfl, rfl⟩
    exact ⟨(), hvalid, dif_pos holds⟩

end Definition

end ContestInput

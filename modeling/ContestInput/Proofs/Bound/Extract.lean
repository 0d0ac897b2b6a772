import ContestInput.Proofs.Bound.Reading
import ContestInput.Proofs.Bound.Signs
import ContestInput.Proofs.Bound.Value
import ContestInput.Proofs.Fallible
/-!
# What a description declares

The constants of a description, told without the scan: the text is freed of punctuation and its
signs are unified, it has one reading, and each clause of the reading gives a constant with the
exact value of its bound, up to the first bound that does not fit.
-/

namespace ContestInput.Bound

open Fallible

/-- `t` is the text that the clauses of a description are read from. -/
def Prepared (description : String) (t : List Char) : Prop :=
  Unified (description.toList.filter fun c => c ∉ [',', '\\', '(', ')', '{', '}', '|']) t

structure Clause.Declares (c : Clause) (k : Constant) : Prop where
  representable : Representable c.base c.exponent
  name : k.name = String.ofList (Text.upper c.identifier) ++ "_MAX"
  value : k.value.toNat = amount c.base c.exponent

/-- What a list of clauses comes to: a constant for each, or the overflow of the first one whose
bound does not fit. -/
def Extraction (cs : List Clause) : Except Fault (List Constant) → Prop
  | .ok constants => List.Forall₂ Clause.Declares cs constants
  | .error fault => ∃ before c after, cs = before ++ c :: after ∧
      (∀ b ∈ before, Representable b.base b.exponent) ∧ ¬ Representable c.base c.exponent ∧
      fault = .constantOverflow (String.ofList (c.base ++ c.exponent.elim [] ('^' :: ·)))

theorem prepared_iff {description : String} {t : List Char} :
    Prepared description t ↔ t = normalize description := by
  rw [Prepared, unified_iff, normalize]
  congr! 4
  simp [isPunctuation]

theorem Clause.constant_eq_ok_iff {c : Clause} {k : Constant} :
    c.constant = .ok k ↔ c.Declares k := by
  rw [Clause.constant, bind_eq_ok_iff]
  constructor
  · intro h
    obtain ⟨v, hv, h⟩ := h
    obtain rfl := pure_eq_ok_iff.1 h
    obtain ⟨hfits, hvalue⟩ := value_eq_ok_iff.1 hv
    exact ⟨hfits, constantName_ofList c.identifier, hvalue⟩
  · intro h
    refine ⟨k.value, value_eq_ok_iff.2 ⟨h.representable, h.value⟩, ?_⟩
    rw [constantName_ofList, ← h.name]
    rfl

theorem Clause.constant_eq_error_iff {c : Clause} {fault : Fault} :
    c.constant = .error fault ↔
      ¬ Representable c.base c.exponent ∧
        fault = .constantOverflow (String.ofList (c.base ++ c.exponent.elim [] ('^' :: ·))) := by
  rw [Clause.constant, bind_eq_error_iff, value_eq_error_iff, written_eq]
  constructor
  · intro h
    rcases h with h | ⟨v, -, h⟩
    · exact h
    · exact absurd h pure_ne_error
  · exact .inl

theorem Clause.exists_constant_iff {c : Clause} :
    (∃ k, c.constant = .ok k) ↔ Representable c.base c.exponent := by
  constructor
  · intro h
    obtain ⟨k, hk⟩ := h
    exact (Clause.constant_eq_ok_iff.1 hk).representable
  · intro h
    cases hc : c.constant with
    | ok k => exact ⟨k, rfl⟩
    | error fault => exact absurd h (Clause.constant_eq_error_iff.1 hc).1

theorem mapM_constant_eq_iff {cs : List Clause} {r : Except Fault (List Constant)} :
    cs.mapM Clause.constant = r ↔ Extraction cs r := by
  cases r with
  | ok constants =>
    rw [mapM_eq_ok_iff, Extraction]
    simp only [Clause.constant_eq_ok_iff]
  | error fault =>
    rw [mapM_eq_error_iff, Extraction]
    simp only [Clause.exists_constant_iff, Clause.constant_eq_error_iff]

theorem exists_reading_of_extract {description : String} {constants : List Constant}
    (h : extract description = .ok constants) :
    ∃ t spans, Prepared description t ∧ Reading t 0 spans ∧
      List.Forall₂ Clause.Declares (spans.map (·.found.clause)) constants := by
  rw [extract, mapM_constant_eq_iff] at h
  obtain ⟨spans, hr, hspans⟩ := clauses_eq_iff.1 (rfl : clauses (normalize description) = _)
  exact ⟨_, spans, prepared_iff.2 rfl, hr, hspans ▸ h⟩

theorem exists_overflow_of_extract {description : String} {fault : Fault}
    (h : extract description = .error fault) : ∃ bound, fault = .constantOverflow bound := by
  obtain ⟨-, c, -, -, -, hc⟩ := mapM_eq_error_iff.1 h
  exact ⟨_, (Clause.constant_eq_error_iff.1 hc).2⟩

/-- The constants of a description are those of the clauses in its one reading. -/
theorem extract_eq_iff_reading (description : String) (r : Except Fault (List Constant)) :
    extract description = r ↔ ∃ t spans, Prepared description t ∧ Reading t 0 spans ∧
      Extraction (spans.map (·.found.clause)) r := by
  rw [extract, mapM_constant_eq_iff]
  constructor
  · intro h
    obtain ⟨spans, hr, hspans⟩ := clauses_eq_iff.1 (rfl : clauses (normalize description) = _)
    exact ⟨_, spans, prepared_iff.2 rfl, hr, hspans ▸ h⟩
  · intro h
    obtain ⟨t, spans, ht, hr, h⟩ := h
    obtain rfl := prepared_iff.1 ht
    rw [clauses_eq_iff.2 ⟨spans, hr, rfl⟩]
    exact h

end ContestInput.Bound

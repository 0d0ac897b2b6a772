import ContestInput.Proofs.Bound.Case
import ContestInput.Proofs.Bound.Extract
import Mathlib.Logic.Relation
/-!
# Descriptions with the same meaning

A description may be punctuated in another way, its signs may be spelled in another way and its
letters may change their case, in any number and order: it keeps its constants. All such
descriptions come to one and the same text when they are prepared in upper case.
-/

namespace ContestInput.Bound

open Relation

inductive Inserted : List Char → List Char → Prop where
  | intro {p : Char} (s t : List Char) : p ∈ punctuation → Inserted (s ++ t) (s ++ p :: t)

/-- One change to a description that its meaning does not depend on. -/
inductive Edit : List Char → List Char → Prop where
  | insert {s t : List Char} : Inserted s t → Edit s t
  | delete {s t : List Char} : Inserted t s → Edit s t
  | respell {w w' : List Char} (s t : List Char) : IsSign w → IsSign w' →
      Edit (s ++ (w ++ t)) (s ++ (w' ++ t))
  | recase {c c' : Char} (s t : List Char) : c.isAlpha → c' = c.toUpper ∨ c' = c.toLower →
      Edit (s ++ c :: t) (s ++ c' :: t)

/-! ## What edits keep -/

theorem Inserted.bare_eq {s t : List Char} (h : Inserted s t) : bare s = bare t := by
  cases h with
  | @intro p s t hp =>
    have hcons : bare (p :: t) = bare t :=
      List.filter_cons_of_neg (by simp [isPunctuation_iff.2 hp])
    rw [bare_append, bare_append, hcons]

theorem bare_eq_of_inserted {s t : List Char} (h : ReflTransGen Inserted s t) :
    bare s = bare t := by
  induction h with
  | refl => rfl
  | tail _ hinsert ih => exact ih.trans hinsert.bare_eq

/-- The text that clauses are read from, in upper case. -/
def essence (s : List Char) : List Char :=
  (prepare s).map Char.toUpper

theorem essence_eq (s : List Char) : essence s = prepare (s.map Char.toUpper) := by
  rw [essence, prepare, prepare, bare_map_toUpper, unifySigns_map_toUpper]

theorem essence_sign {w : List Char} (hw : IsSign w) (s t : List Char) :
    essence (s ++ (w ++ t)) = essence s ++ '≦' :: essence t := by
  rw [essence, hw.prepare_append, List.map_append]
  rfl

theorem Edit.essence_eq {s t : List Char} (h : Edit s t) : essence s = essence t := by
  cases h with
  | insert h => rw [essence, essence, prepare, prepare, h.bare_eq]
  | delete h => rw [essence, essence, prepare, prepare, h.bare_eq]
  | respell s t hw hw' => rw [essence_sign hw, essence_sign hw']
  | @recase c c' s t _ hc =>
    have hcase : c'.toUpper = c.toUpper := by
      rcases hc with rfl | rfl
      · exact Text.toUpper_toUpper c
      · exact Text.toUpper_toLower c
    rw [Bound.essence_eq, Bound.essence_eq, List.map_append, List.map_append, List.map_cons,
      List.map_cons, hcase]

theorem essence_eq_of_edits {s t : List Char} (h : ReflTransGen Edit s t) :
    essence s = essence t := by
  induction h with
  | refl => rfl
  | tail _ hedit ih => exact ih.trans hedit.essence_eq

theorem extract_eq_essence (description : String) :
    extract description = (clauses (essence description.toList)).mapM Clause.constant := by
  rw [essence, clauses_map_toUpper, List.mapM_map, extract, normalize_eq]
  congr 1
  funext c
  exact c.constant_toUpper.symm

/-- Descriptions that edits lead from one to the other declare the same constants or fail in the
same way. -/
theorem extract_eq_of_edits {d d' : String} (h : ReflTransGen Edit d.toList d'.toList) :
    extract d = extract d' := by
  rw [extract_eq_essence, extract_eq_essence, essence_eq_of_edits h]

theorem extract_eq_of_edits_respelled :
    ReflTransGen Edit "1 \\leq n ≤ 20".toList "1 ≤ N Leq 2,0".toList ∧
      extract "1 \\leq n ≤ 20" = extract "1 ≤ N Leq 2,0" := by
  have hlower : Edit "1 \\leq n ≤ 20".toList "1 ≤ n ≤ 20".toList :=
    .respell "1 ".toList " n ≤ 20".toList (.command (.word (.inl rfl) (.inl rfl) (.inl rfl)))
      (.spelling .glyph)
  have hupper : Edit "1 ≤ n ≤ 20".toList "1 ≤ n Leq 20".toList :=
    .respell "1 ≤ n ".toList " 20".toList (.spelling .glyph)
      (.spelling (.word (.inr rfl) (.inl rfl) (.inl rfl)))
  have hname : Edit "1 ≤ n Leq 20".toList "1 ≤ N Leq 20".toList :=
    .recase "1 ≤ ".toList " Leq 20".toList (by decide) (.inl rfl)
  have hcomma : Edit "1 ≤ N Leq 20".toList "1 ≤ N Leq 2,0".toList :=
    .insert (.intro "1 ≤ N Leq 2".toList "0".toList (by decide))
  have hedits := (((ReflTransGen.single hlower).tail hupper).tail hname).tail hcomma
  exact ⟨hedits, extract_eq_of_edits hedits⟩

end ContestInput.Bound

import ContestInput.Proofs.Json.Numeral
import ContestInput.Proofs.Json.Quoted
import Mathlib.Data.List.Chain
/-!
# Texts as spelled tokens

How tokens are spelled and which texts spell a list of them, with white space anywhere between.
Cutting a text into tokens gives a list that the text spells, unless it stops at an invalid place;
and it gives every list that the text spells if no number runs into the token behind it.
-/

namespace ContestInput.Json

/-- The text is a spelling of the token. Unsigned integers below 2^64 are told from all other
numbers, and strings with a meaning from those with an unpaired surrogate. -/
inductive Lexeme : Token → List Char → Prop where
  | openArray : Lexeme .openArray ['[']
  | closeArray : Lexeme .closeArray [']']
  | openObject : Lexeme .openObject ['{']
  | closeObject : Lexeme .closeObject ['}']
  | comma : Lexeme .comma [',']
  | colon : Lexeme .colon [':']
  | null : Lexeme .null ['n', 'u', 'l', 'l']
  | true : Lexeme (.bool true) ['t', 'r', 'u', 'e']
  | false : Lexeme (.bool false) ['f', 'a', 'l', 's', 'e']
  | natural {digits : List Char} {w : UInt64} : IsWhole digits →
      Text.ofDigits digits = w.toNat → Lexeme (.number (.natural w)) digits
  | number {n : Numeral} {s : List Char} : n.Written s → (∀ w, n.value ≠ .natural w) →
      Lexeme (.number n.value) s
  | string {v s : List Char} : Body v s →
      Lexeme (.string (some (String.ofList v))) ('"' :: (s ++ ['"']))
  | unpaired {ps : List Piece} {s : List Char} : Piece.Written ps s → (∀ v, ¬ Body v s) →
      Lexeme (.string none) ('"' :: (s ++ ['"']))

inductive Spells : List Char → List Token → Prop where
  | nil : Spells [] []
  | space {c : Char} {s : List Char} {ts : List Token} : isSpace c = true → Spells s ts →
      Spells (c :: s) ts
  | token {t : Token} {w s : List Char} {ts : List Token} : Lexeme t w → Spells s ts →
      Spells (w ++ s) (t :: ts)

namespace Token

/-- If the first token is a number, the second one cannot continue it. -/
def Separate (first second : Token) : Prop :=
  (∃ n, first = .number n) → second = .comma ∨ second = .closeArray ∨ second = .closeObject

variable {t : Token} {c : Char} {s w rest : List Char} {ts : List Token}

theorem lexeme_number_iff {n : Number} :
    Lexeme (.number n) w ↔ ∃ m : Numeral, m.Written w ∧ m.value = n := by
  constructor
  · intro h
    cases h with
    | natural hw hdigits =>
      have hwritten := Numeral.Written.positive hw .none .none
      rw [List.append_nil, List.append_nil] at hwritten
      exact ⟨_, hwritten, Numeral.value_eq_natural_iff.2 ⟨rfl, rfl, rfl, hdigits⟩⟩
    | number hm _ => exact ⟨_, hm, rfl⟩
  · rintro ⟨m, hm, rfl⟩
    by_cases h : ∃ w, m.value = .natural w
    · obtain ⟨w, hw⟩ := h
      rw [hw]
      obtain ⟨negative, whole, fraction, exponent⟩ := m
      obtain ⟨rfl, rfl, rfl, hdigits⟩ := Numeral.value_eq_natural_iff.1 hw
      cases hm with
      | positive hwhole hf he =>
        cases he
        cases hf with
        | none =>
          rw [List.append_nil, List.append_nil]
          exact .natural hwhole hdigits
        | some hnone => exact absurd rfl hnone.1
    · exact .number hm (not_exists.1 h)

theorem lexeme_string {ps : List Piece} (h : Piece.Written ps s) :
    Lexeme (.string ((Piece.join? ps).map String.ofList)) ('"' :: (s ++ ['"'])) := by
  cases hv : Piece.join? ps with
  | none =>
    refine .unpaired h fun v hv' => ?_
    rw [(Piece.join?_eq_some_iff h).2 hv'] at hv
    exact absurd hv (by simp)
  | some v => exact .string ((Piece.join?_eq_some_iff h).1 hv)

private theorem scan?_of_numeral (h : c.isDigit = true ∨ c = '-') :
    scan? (c :: s) = (Numeral.scan? (c :: s)).map fun (n, rest) => (.number n.value, rest) := by
  unfold scan?
  split
  case h_11 => rfl
  all_goals
    rename_i heq
    obtain ⟨rfl, -⟩ := List.cons.inj heq
    exact absurd h (by decide)

private theorem exists_cons_of_written {n : Numeral} (h : n.Written w) :
    ∃ c s, w = c :: s ∧ isSpace c = false := by
  obtain ⟨c, s, rfl, hc⟩ := h.exists_cons
  refine ⟨c, s, rfl, ?_⟩
  rw [← Bool.not_eq_true]
  intro hspace
  simp only [isSpace, Bool.or_eq_true, decide_eq_true_eq] at hspace
  rcases hspace with ((rfl | rfl) | rfl) | rfl
  all_goals exact absurd hc (by decide)

private theorem exists_cons_of_lexeme (h : Lexeme t w) : ∃ c s, w = c :: s ∧ isSpace c = false := by
  cases h with
  | natural hw hdigits =>
    obtain ⟨m, hm, -⟩ := lexeme_number_iff.1 (.natural hw hdigits)
    exact exists_cons_of_written hm
  | number hm _ => exact exists_cons_of_written hm
  | _ => exact ⟨_, _, rfl, rfl⟩

private theorem scan?_number_append {n : Numeral} (h : n.Written w) (hrest : EndsNumber rest) :
    scan? (w ++ rest) = some (.number n.value, rest) := by
  have hread := Numeral.scan?_append h hrest
  obtain ⟨c, s, rfl, hc⟩ := h.exists_cons
  rw [List.cons_append] at hread ⊢
  rw [scan?_of_numeral hc, hread]
  rfl

private theorem scan?_string_append {ps : List Piece} (h : Piece.Written ps s) (rest : List Char) :
    scan? ('"' :: (s ++ ['"']) ++ rest) =
      some (.string ((Piece.join? ps).map String.ofList), rest) := by
  rw [List.cons_append, List.append_assoc, scan?, List.singleton_append,
    Piece.scan?_append h rest]
  rfl

theorem scan?_append (h : Lexeme t w) (hrest : (∃ n, t = .number n) → EndsNumber rest) :
    scan? (w ++ rest) = some (t, rest) := by
  cases h with
  | natural hw hdigits =>
    obtain ⟨m, hm, hvalue⟩ := lexeme_number_iff.1 (.natural hw hdigits)
    rw [← hvalue]
    exact scan?_number_append hm (hrest ⟨_, rfl⟩)
  | number hm _ => exact scan?_number_append hm (hrest ⟨_, rfl⟩)
  | string hbody =>
    obtain ⟨ps, hps, hv⟩ := Piece.exists_written_of_body hbody
    rw [scan?_string_append hps, hv]
    rfl
  | @unpaired ps _ hps hnone =>
    have hv : Piece.join? ps = none := by
      rw [Option.eq_none_iff_forall_ne_some]
      intro v hv
      exact hnone v ((Piece.join?_eq_some_iff hps).1 hv)
    rw [scan?_string_append hps, hv]
    rfl
  | _ => rfl

theorem scan?_sound (h : scan? s = some (t, rest)) : ∃ w, Lexeme t w ∧ s = w ++ rest := by
  unfold scan? at h
  split at h
  case h_10 =>
    obtain ⟨⟨ps, rest'⟩, hread, h⟩ := Option.map_eq_some_iff.1 h
    obtain ⟨rfl, rfl⟩ := Prod.mk.inj h
    obtain ⟨body, hbody, rfl⟩ := Piece.scan?_sound hread
    exact ⟨_, lexeme_string hbody, by simp⟩
  case h_11 =>
    obtain ⟨⟨n, rest'⟩, hread, h⟩ := Option.map_eq_some_iff.1 h
    obtain ⟨rfl, rfl⟩ := Prod.mk.inj h
    obtain ⟨w, hw, rfl⟩ := Numeral.scan?_sound hread
    exact ⟨w, lexeme_number_iff.2 ⟨n, hw, rfl⟩, rfl⟩
  all_goals
    obtain ⟨rfl, rfl⟩ := Prod.mk.inj (Option.some.inj h)
    exact ⟨_, by constructor, rfl⟩

theorem lex_space (h : isSpace c = true) : lex (c :: s) = lex s := by
  rw [lex, if_pos h]

theorem lex_of_scan? (hc : isSpace c = false) (h : scan? (c :: s) = some (t, rest)) :
    lex (c :: s) = t :: lex rest := by
  rw [lex, if_neg (by simp [hc])]
  split
  · rename_i heq
    rw [h] at heq
    obtain ⟨rfl, rfl⟩ := Prod.mk.inj (Option.some.inj heq)
    rfl
  · rename_i heq
    rw [h] at heq
    exact absurd heq (by simp)

theorem lex_of_scan?_eq_none (hc : isSpace c = false) (h : scan? (c :: s) = none) :
    lex (c :: s) = [.invalid] := by
  rw [lex, if_neg (by simp [hc])]
  split
  · rename_i heq
    rw [h] at heq
    exact absurd heq (by simp)
  · rfl

theorem lex_append (h : Lexeme t w) (hrest : (∃ n, t = .number n) → EndsNumber rest) :
    lex (w ++ rest) = t :: lex rest := by
  have hscan := scan?_append h hrest
  obtain ⟨c, s, rfl, hc⟩ := exists_cons_of_lexeme h
  exact lex_of_scan? hc hscan

/-- Behind a number, a text of tokens ends or goes on with what is no part of the number. -/
theorem endsNumber_of_spells (h : Spells s ts)
    (hts : ∀ t ∈ ts.head?, t = .comma ∨ t = .closeArray ∨ t = .closeObject) : EndsNumber s := by
  cases h with
  | nil => simp [EndsNumber]
  | space hc _ =>
    simp only [isSpace, Bool.or_eq_true, decide_eq_true_eq] at hc
    rcases hc with ((rfl | rfl) | rfl) | rfl
    all_goals
      rintro c ⟨⟩
      decide
  | token ht _ =>
    rcases hts _ rfl with rfl | rfl | rfl
    all_goals
      cases ht
      rintro c ⟨⟩
      decide

theorem lex_eq_of_spells (h : Spells s ts) (hts : ts.IsChain Separate) : lex s = ts := by
  induction h with
  | nil => rw [lex]
  | space hc _ ih => rw [lex_space hc, ih hts]
  | token ht hs ih =>
    obtain ⟨hhead, hts⟩ := List.isChain_cons.1 hts
    rw [lex_append ht, ih hts]
    intro hnumber
    exact endsNumber_of_spells hs fun t' ht' => hhead t' ht' hnumber

theorem spells_lex (s : List Char) (h : .invalid ∉ lex s) : Spells s (lex s) := by
  induction s using lex.induct with
  | case1 => rw [lex]; exact .nil
  | case2 c s hc ih =>
    rw [lex_space hc] at h ⊢
    exact .space hc (ih h)
  | case3 c s hc t rest hscan ih =>
    rw [lex_of_scan? (by simpa using hc) hscan] at h ⊢
    have hrest := ih fun hmem => h (List.mem_cons_of_mem _ hmem)
    obtain ⟨w, hw, hs⟩ := scan?_sound hscan
    rw [hs]
    exact .token hw hrest
  | case4 c s hc hscan =>
    rw [lex_of_scan?_eq_none (by simpa using hc) hscan] at h
    exact absurd List.mem_cons_self h

end Token

end ContestInput.Json

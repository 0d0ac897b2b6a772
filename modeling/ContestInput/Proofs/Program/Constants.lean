import ContestInput.Proofs.Bound.Names
import ContestInput.Proofs.Program.Lines
/-!
# Lines that declare constants

How the line of a constant is read. It declares the constant exactly if the constant's name is an
identifier, and the name of an extracted constant is one exactly if the word that the clause bounds
starts with no digit and has no Kelvin sign: the scan takes numbers for words to be bounded, too.
-/

namespace ContestInput

open Program

namespace Constant

def ofTokens? : List Token → Option Constant
  | [.word "const", .word "int", .word name, .mark '=', .word value, .mark ';'] => do
    let name ← identifier? name
    let value ← decimal? value
    some ⟨name, value⟩
  | _ => none

def ofText? (line : String) : Option Constant :=
  ofTokens? (Token.lex line.toList)

theorem lex_line {k : Constant} (h : isIdentifier k.name = true) : Token.lex k.line.toList =
    [.word "const", .word "int", .word k.name, .mark '=', .word (toString k.value.toNat),
      .mark ';'] := by
  have htext : k.line.toList = "const".toList ++ ' ' :: ("int".toList ++ ' ' ::
      (k.name.toList ++ ' ' :: '=' :: ' ' :: ((toString k.value.toNat).toList ++ [';']))) := by
    simp [line, text]
  rw [htext, Token.lex_word ⟨by decide, by decide⟩ (Token.free_cons (by decide)), Token.lex_space,
    Token.lex_word ⟨by decide, by decide⟩ (Token.free_cons (by decide)), Token.lex_space,
    Token.lex_word (Token.isWord_of_isIdentifier h) (Token.free_cons (by decide)), Token.lex_space,
    Token.lex_mark (by decide), Token.lex_space,
    Token.lex_word (isWord_toString _) (Token.free_cons (by decide)),
    Token.lex_mark (by decide), Token.lex_nil]

theorem isIdentifier_of_ofTokens? {ts : List Token} {k : Constant} (h : ofTokens? ts = some k) :
    isIdentifier k.name = true := by
  unfold ofTokens? at h
  split at h
  · rename_i word value
    obtain ⟨name, hname, h⟩ := Option.bind_eq_some_iff.1 h
    obtain ⟨w, -, h⟩ := Option.bind_eq_some_iff.1 h
    obtain rfl := Option.some.inj h
    rw [identifier?] at hname
    split at hname
    · rename_i hword
      obtain rfl := Option.some.inj hname
      exact hword
    · exact absurd hname (by simp)
  · exact absurd h (by simp)

theorem ofText?_line_eq_some_iff {k : Constant} :
    ofText? k.line = some k ↔ isIdentifier k.name = true := by
  constructor
  · exact isIdentifier_of_ofTokens?
  · intro h
    rw [ofText?, lex_line h, ofTokens?, identifier?_eq_some h, decimal?_toString]
    rfl

end Constant

/-! ## Names in upper case -/

theorem Text.exists_upperChar_eq {c : Char} (hc : Bound.isIdentifierChar c = true) :
    ∃ x, upperChar c = [x] ∧ x.isDigit = c.isDigit ∧ (isWordChar x = true ↔ c ≠ '\u212A') := by
  rcases isIdentifierChar_iff_isWordChar.1 hc with hword | rfl | rfl
  · obtain ⟨hupper, hdigit⟩ := isWordChar_toUpper hword
    refine ⟨c.toUpper, if_pos (toNat_lt_of_isWordChar hword), hdigit, fun _ => ?_, fun _ => hupper⟩
    rintro rfl
    exact absurd hword (by decide)
  · exact ⟨'S', by decide +kernel, by decide, by decide⟩
  · exact ⟨'\u212A', by decide +kernel, by decide, by decide⟩

theorem Text.forall_isWordChar_upper_iff {s : List Char}
    (h : ∀ c ∈ s, Bound.isIdentifierChar c = true) :
    (∀ x ∈ upper s, isWordChar x = true) ↔ '\u212A' ∉ s := by
  constructor
  · intro hword hkelvin
    obtain ⟨x, hx, -, hiff⟩ := exists_upperChar_eq (h _ hkelvin)
    have hmem : x ∈ upper s := List.mem_flatMap.2 ⟨_, hkelvin, by simp [hx]⟩
    exact hiff.1 (hword x hmem) rfl
  · intro hkelvin x hx
    obtain ⟨c, hc, hx⟩ := List.mem_flatMap.1 hx
    obtain ⟨x', hx', -, hiff⟩ := exists_upperChar_eq (h c hc)
    obtain rfl : x = x' := by simpa [hx'] using hx
    exact hiff.2 (ne_of_mem_of_not_mem hc hkelvin)

theorem isIdentifier_constantName_iff {s : List Char} (hne : s ≠ [])
    (h : ∀ c ∈ s, Bound.isIdentifierChar c = true) :
    isIdentifier (constantName (String.ofList s)) = true ↔
      (∀ c ∈ s.head?, c.isDigit = false) ∧ '\u212A' ∉ s := by
  obtain ⟨c, cs, rfl⟩ := List.exists_cons_of_ne_nil hne
  obtain ⟨x, hx, hdigit, -⟩ := Text.exists_upperChar_eq (h c List.mem_cons_self)
  have hname : (constantName (String.ofList (c :: cs))).toList =
      x :: (Text.upper cs ++ "_MAX".toList) := by
    simp [constantName, Text.upper, hx]
  have hsuffix : ∀ y ∈ "_MAX".toList, isWordChar y = true := List.all_eq_true.1 (by decide)
  have hupper : Text.upper (c :: cs) = x :: Text.upper cs := by simp [Text.upper, hx]
  rw [isIdentifier_iff, ← Text.forall_isWordChar_upper_iff h, hupper, hname]
  constructor
  · rintro ⟨_, _, heq, hhead, hword⟩
    obtain ⟨rfl, rfl⟩ := List.cons.inj heq
    refine ⟨?_, fun y hy => hword y ?_⟩
    · rintro _ ⟨⟩
      rw [← hdigit, hhead]
    · rw [← List.cons_append]
      exact List.mem_append_left _ hy
  · rintro ⟨hhead, hword⟩
    refine ⟨x, _, rfl, hdigit.trans (hhead c rfl), ?_⟩
    rw [← List.cons_append]
    exact List.forall_mem_append.2 ⟨hword, hsuffix⟩

namespace Bound

/-- The constants of a description go with the clauses of its reading. The name of a constant is an
identifier, and its line declares it, exactly if the word that its clause bounds starts with no
digit and has no Kelvin sign. -/
theorem extract_isIdentifier_iff {description : String} {constants : List Constant}
    (h : extract description = .ok constants) :
    ∃ t spans, Prepared description t ∧ Reading t 0 spans ∧
      List.Forall₂ (fun (s : Span) k => s.found.clause.Declares k ∧
        (Program.isIdentifier k.name = true ↔
          (∀ c ∈ s.found.clause.identifier.head?, c.isDigit = false) ∧
            '\u212A' ∉ s.found.clause.identifier) ∧
        (Constant.ofText? k.line = some k ↔ Program.isIdentifier k.name = true))
      spans constants := by
  obtain ⟨t, spans, ht, hr, houtcome⟩ := exists_reading_of_extract h
  refine ⟨t, spans, ht, hr, ?_⟩
  have hdeclares : List.Forall₂ (fun (s : Span) k => s.found.clause.Declares k) spans constants :=
    List.forall₂_map_left_iff.1 houtcome
  have hvalid : ∀ s ∈ spans, s.found.Valid := fun s hs => (hr.greedy s hs).1.1
  refine ((List.forall₂_and_left _ _).2 ⟨hvalid, hdeclares⟩).imp ?_
  rintro s k ⟨hmatch, hk⟩
  have hname := isIdentifier_constantName_iff hmatch.identifier_ne_nil hmatch.identifier
  rw [constantName_ofList, ← hk.name] at hname
  exact ⟨hk, hname, Constant.ofText?_line_eq_some_iff⟩

theorem extract_isIdentifier_iff_twice :
    extract "1 ≤ 2N ≤ 100, 1 ≤ |ſ| ≤ 2^3" = .ok [⟨"1_MAX", 2⟩, ⟨"N_MAX", 100⟩, ⟨"S_MAX", 8⟩] ∧
      ∃ t spans, Prepared "1 ≤ 2N ≤ 100, 1 ≤ |ſ| ≤ 2^3" t ∧ Reading t 0 spans ∧
        List.Forall₂ (fun (s : Span) k => s.found.clause.Declares k ∧
          (Program.isIdentifier k.name = true ↔
            (∀ c ∈ s.found.clause.identifier.head?, c.isDigit = false) ∧
              '\u212A' ∉ s.found.clause.identifier) ∧
          (Constant.ofText? k.line = some k ↔ Program.isIdentifier k.name = true))
        spans [⟨"1_MAX", 2⟩, ⟨"N_MAX", 100⟩, ⟨"S_MAX", 8⟩] := by
  have h : extract "1 ≤ 2N ≤ 100, 1 ≤ |ſ| ≤ 2^3" =
      .ok [⟨"1_MAX", 2⟩, ⟨"N_MAX", 100⟩, ⟨"S_MAX", 8⟩] := by
    decide +kernel
  exact ⟨h, extract_isIdentifier_iff h⟩

/-- The number in front of a sign is taken for a word that is bounded. -/
theorem extract_number_not_isIdentifier :
    extract "1 ≤ 2N ≤ 100" = .ok [⟨"1_MAX", 2⟩, ⟨"N_MAX", 100⟩] ∧
      Program.isIdentifier "1_MAX" = false ∧
      Constant.ofText? (Constant.line ⟨"1_MAX", 2⟩) = none :=
  ⟨by decide +kernel, by decide, by decide +kernel⟩

end Bound

end ContestInput

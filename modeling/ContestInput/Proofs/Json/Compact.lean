import ContestInput.Json.Value
import ContestInput.Proofs.Json.Document
/-!
# Written values

The document that a value is written as. The compact text of a value spells it, whatever the
characters of its strings are.
-/

namespace ContestInput.Json

namespace Numeral

private theorem isWhole_toDigits (n : Nat) : IsWhole (Nat.toDigits 10 n) := by
  refine ⟨⟨Nat.toDigits_ne_nil, fun c hc => ?_⟩, fun hhead => ?_⟩
  · exact Nat.isDigit_of_mem_toDigits (by omega) (by omega) hc
  · rw [Text.head?_toDigits hhead, Nat.toDigits_zero]

def decimal (n : Nat) : Number :=
  (Numeral.mk false (Nat.toDigits 10 n) [] none).value

theorem decimal_toNat (w : UInt64) : decimal w.toNat = .natural w :=
  value_eq_natural_iff.2 ⟨rfl, rfl, rfl, Text.ofDigits_toDigits _⟩

theorem lexeme_toDigits (n : Nat) : Lexeme (.number (decimal n)) (Nat.toDigits 10 n) := by
  have hwritten := Written.positive (isWhole_toDigits n) .none .none
  rw [List.append_nil, List.append_nil] at hwritten
  exact Token.lexeme_number_iff.2 ⟨_, hwritten, rfl⟩

end Numeral

/-! ## Strings -/

private theorem hexValue?_digitChar {n : Nat} (h : n < 16) :
    hexValue? (Nat.digitChar n) = some n := by
  have hall : ∀ k : Fin 16, hexValue? (Nat.digitChar k) = some k.val := by decide
  exact hall ⟨n, h⟩

private theorem toNat_lt_of_lt_space {c : Char} (h : c < ' ') : c.toNat < 32 :=
  UInt32.lt_iff_toNat_lt.1 (Char.lt_def.1 h)

theorem body_escape {v s : List Char} (c : Char) (h : Body v s) :
    Body (c :: v) (escape c ++ s) := by
  unfold escape
  split
  case h_8 hquote hslash _ _ _ _ _ =>
    split
    · rename_i hspace
      have hc := toNat_lt_of_lt_space hspace
      have hcode : hexCode? '0' '0' (Nat.digitChar (c.toNat / 16)) (Nat.digitChar (c.toNat % 16)) =
          some c.toNat := by
        have hzero : hexValue? '0' = some 0 := rfl
        have hdigits : ((0 * 16 + 0) * 16 + c.toNat / 16) * 16 + c.toNat % 16 = c.toNat := by omega
        simp only [hexCode?, hzero, hexValue?_digitChar (n := c.toNat / 16) (by omega),
          hexValue?_digitChar (n := c.toNat % 16) (by omega), Option.bind_eq_bind,
          Option.bind_some, hdigits]
      have hbody := Body.code hcode (by omega) h
      rw [Char.ofNat_toNat] at hbody
      exact hbody
    · rename_i hspace
      exact .plain (fun h => hquote h) (fun h => hslash h) hspace h
  all_goals exact .short rfl h

private theorem body_flatMap_escape (s : List Char) : Body s (s.flatMap escape) := by
  induction s with
  | nil => exact .nil
  | cons c s ih => exact body_escape c ih

theorem lexeme_stringText (s : String) : Lexeme (.string (some s)) (stringText s) := by
  have hlexeme := Lexeme.string (body_flatMap_escape s.toList)
  rw [String.ofList_toList] at hlexeme
  exact hlexeme

/-! ## Values -/

theorem Spells.append {s s' : List Char} {ts ts' : List Token} (h : Spells s ts)
    (h' : Spells s' ts') : Spells (s ++ s') (ts ++ ts') := by
  induction h with
  | nil => exact h'
  | space hc _ ih => exact .space hc ih
  | token ht _ ih =>
    rw [List.append_assoc]
    exact .token ht ih

theorem Spells.single {t : Token} {w : List Char} (h : Lexeme t w) : Spells w [t] := by
  have hspells := Spells.token h .nil
  rwa [List.append_nil] at hspells

namespace Document

def itemsTokens : List Document → List Token
  | [] => [.closeArray]
  | d :: ds => d.tokens ++ moreItems ds

def membersTokens : List (Option String × Document) → List Token
  | [] => [.closeObject]
  | (key, d) :: ms => .string key :: .colon :: (d.tokens ++ moreMembers ms)

theorem tokens_array (ds : List Document) : (array ds).tokens = .openArray :: itemsTokens ds := by
  cases ds with
  | nil => rfl
  | cons d ds => rfl

theorem tokens_object (ms : List (Option String × Document)) :
    (object ms).tokens = .openObject :: membersTokens ms := by
  cases ms with
  | nil => rfl
  | cons m ms => rfl

end Document

namespace Value

mutual

def document : Value → Document
  | .null => .null
  | .bool b => .bool b
  | .number n => .number (Numeral.decimal n)
  | .string s => .string (some s)
  | .array vs => .array (documents vs)
  | .object ms => .object (memberDocuments ms)

def documents : List Value → List Document
  | [] => []
  | v :: vs => v.document :: documents vs

def memberDocuments : List (String × Value) → List (Option String × Document)
  | [] => []
  | (key, v) :: ms => (some key, v.document) :: memberDocuments ms

end

theorem documents_eq_map (vs : List Value) : documents vs = vs.map document := by
  induction vs with
  | nil => rw [documents, List.map_nil]
  | cons v vs ih => rw [documents, ih, List.map_cons]

mutual

theorem spells_compact : (v : Value) → Spells v.compact v.document.tokens
  | .null => .single .null
  | .bool true => .single .true
  | .bool false => .single .false
  | .number n => .single (Numeral.lexeme_toDigits n)
  | .string s => .single (lexeme_stringText s)
  | .array vs => by
    rw [compact, document, Document.tokens_array, List.append_assoc]
    exact .token .openArray (spells_compactItems vs)
  | .object ms => by
    rw [compact, document, Document.tokens_object, List.append_assoc]
    exact .token .openObject (spells_compactMembers ms)

private theorem spells_compactItems : (vs : List Value) →
    Spells (compactItems vs ++ [']']) (Document.itemsTokens (documents vs))
  | [] => .single .closeArray
  | [v] => (spells_compact v).append (.single .closeArray)
  | v :: w :: vs => by
    have hrest := Spells.token .comma (spells_compactItems (w :: vs))
    have hall := (spells_compact v).append hrest
    rw [compactItems, List.append_assoc, List.append_assoc]
    · exact hall
    · simp

private theorem spells_compactMembers : (ms : List (String × Value)) →
    Spells (compactMembers ms ++ ['}']) (Document.membersTokens (memberDocuments ms))
  | [] => .single .closeObject
  | [(key, v)] => by
    have hvalue := (spells_compact v).append (.single .closeObject)
    have hmember := Spells.token (lexeme_stringText key) (.token .colon hvalue)
    rw [compactMembers, List.append_assoc, List.append_assoc]
    exact hmember
  | (key, v) :: m :: ms => by
    have hrest := Spells.token .comma (spells_compactMembers (m :: ms))
    have hvalue := (spells_compact v).append hrest
    have hmember := Spells.token (lexeme_stringText key) (.token .colon hvalue)
    rw [compactMembers]
    · simp only [List.append_assoc]
      exact hmember
    · simp

end

end Value

end ContestInput.Json

import ContestInput.Proofs.Json.Compact
/-!
# Indented values

The indented text of a value differs from the compact one in white space between tokens only, so it
spells the same document at every level of indentation.
-/

namespace ContestInput.Json

theorem Spells.blank_append {w s : List Char} {ts : List Token} (hw : ∀ c ∈ w, isSpace c = true)
    (h : Spells s ts) : Spells (w ++ s) ts := by
  induction w with
  | nil => exact h
  | cons c w ih =>
    obtain ⟨hc, hw⟩ := List.forall_mem_cons.1 hw
    exact .space hc (ih hw)

/-- A line break behind a text is no part of what the text spells. -/
theorem Spells.line {s : String} {ts : List Token} (h : Spells s.toList ts) :
    Spells (s ++ "\n").toList ts := by
  have hline := h.append (.space (by decide : isSpace '\n' = true) .nil)
  rw [List.append_nil] at hline
  rw [String.toList_append]
  exact hline

namespace Value

private theorem isSpace_of_mem_newline {level : Nat} {c : Char} (h : c ∈ newline level) :
    isSpace c = true := by
  rcases List.mem_cons.1 h with rfl | h
  · decide
  · rw [List.eq_of_mem_replicate h]
    decide

private theorem spells_newline_append (level : Nat) {s : List Char} {ts : List Token}
    (h : Spells s ts) : Spells (newline level ++ s) ts :=
  h.blank_append fun _ => isSpace_of_mem_newline

private theorem spells_member_append (key : String) {s : List Char} {ts : List Token}
    (h : Spells s ts) :
    Spells (stringText key ++ ([':', ' '] ++ s)) (.string (some key) :: .colon :: ts) := by
  have hvalue : Spells ([':'] ++ (' ' :: s)) (.colon :: ts) := .token .colon (.space (by decide) h)
  exact .token (lexeme_stringText key) hvalue

mutual

theorem spells_indented (level : Nat) : (v : Value) → Spells (v.indented level) v.document.tokens
  | .null => spells_compact .null
  | .bool b => spells_compact (.bool b)
  | .number n => spells_compact (.number n)
  | .string s => spells_compact (.string s)
  | .array [] => spells_compact (.array [])
  | .object [] => spells_compact (.object [])
  | .array (v :: vs) => by
    have hclose := spells_newline_append level (.single .closeArray)
    rw [indented, document, Document.tokens_array]
    simp only [List.append_assoc]
    exact .token .openArray (spells_indentedItems (level + 1) (v :: vs) hclose)
  | .object (m :: ms) => by
    have hclose := spells_newline_append level (.single .closeObject)
    rw [indented, document, Document.tokens_object]
    simp only [List.append_assoc]
    exact .token .openObject (spells_indentedMembers (level + 1) (m :: ms) hclose)

/-- Items are closed on a line of the level outside, so what closes them is left open here. -/
private theorem spells_indentedItems (level : Nat) {close : List Char} :
    (vs : List Value) → Spells close [.closeArray] →
      Spells (indentedItems level vs ++ close) (Document.itemsTokens (documents vs))
  | [], hclose => hclose
  | [v], hclose => by
    rw [indentedItems, List.append_assoc]
    exact spells_newline_append level ((spells_indented level v).append hclose)
  | v :: w :: vs, hclose => by
    have hrest := Spells.token .comma (spells_indentedItems level (w :: vs) hclose)
    rw [indentedItems]
    · simp only [List.append_assoc]
      exact spells_newline_append level ((spells_indented level v).append hrest)
    · simp

private theorem spells_indentedMembers (level : Nat) {close : List Char} :
    (ms : List (String × Value)) → Spells close [.closeObject] →
      Spells (indentedMembers level ms ++ close) (Document.membersTokens (memberDocuments ms))
  | [], hclose => hclose
  | [(key, v)], hclose => by
    have hmember := spells_member_append key ((spells_indented level v).append hclose)
    rw [indentedMembers]
    simp only [List.append_assoc]
    exact spells_newline_append level hmember
  | (key, v) :: m :: ms, hclose => by
    have hrest := Spells.token .comma (spells_indentedMembers level (m :: ms) hclose)
    have hmember := spells_member_append key ((spells_indented level v).append hrest)
    rw [indentedMembers]
    · simp only [List.append_assoc]
      exact spells_newline_append level hmember
    · simp

end

end Value

end ContestInput.Json

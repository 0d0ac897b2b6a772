import ContestInput.Proofs.Text.Classes
/-!
# Words and marks of a program

How a line of a program falls into tokens. A word is a longest run of letters, digits and
underscores, a quoted text goes up to the next quote, spaces only separate, and every other
character is a mark.
-/

namespace ContestInput.Program

def isWordChar (c : Char) : Bool :=
  c.isAlphanum || c = '_'

def isMark (c : Char) : Bool :=
  !isWordChar c && c ≠ ' ' && c ≠ '"'

/-- A word that starts with no digit. -/
def isIdentifier (s : String) : Bool :=
  match s.toList with
  | [] => false
  | c :: cs => !c.isDigit && (c :: cs).all isWordChar

theorem isIdentifier_iff {s : String} : isIdentifier s = true ↔
    ∃ c cs, s.toList = c :: cs ∧ c.isDigit = false ∧ ∀ x ∈ c :: cs, isWordChar x = true := by
  rw [isIdentifier]
  cases s.toList with
  | nil => simp
  | cons c cs => simp

inductive Token where
  | word (text : String)
  /-- A text between quotes. -/
  | quoted (text : String)
  | mark (c : Char)
  deriving DecidableEq, Repr

namespace Token

def lex : List Char → List Token
  | [] => []
  | c :: s =>
    if c = ' ' then lex s
    else if isWordChar c then
      .word (String.ofList (c :: s.takeWhile isWordChar)) :: lex (s.dropWhile isWordChar)
    else if c = '"' then
      .quoted (String.ofList (s.takeWhile (· ≠ '"'))) :: lex ((s.dropWhile (· ≠ '"')).drop 1)
    else .mark c :: lex s
termination_by s => s.length
decreasing_by
  · simp
  · have := Bound.length_dropWhile_le isWordChar s
    simp only [List.length_cons]
    omega
  · have := Bound.length_dropWhile_le (· ≠ '"') s
    simp only [List.length_cons, List.length_drop]
    omega
  · simp

def IsWord (w : String) : Prop :=
  w ≠ "" ∧ w.toList.all isWordChar = true

/-- No word goes on at the start of the text. -/
def Free (s : List Char) : Prop :=
  ∀ c ∈ s.head?, isWordChar c = false

theorem free_cons {c : Char} {s : List Char} (h : isWordChar c = false) : Free (c :: s) := by
  intro x hx
  obtain rfl := Option.some.inj hx
  exact h

theorem lex_nil : lex [] = [] := by
  rw [lex]

theorem lex_space (s : List Char) : lex (' ' :: s) = lex s := by
  rw [lex, if_pos rfl]

theorem lex_mark {c : Char} {s : List Char} (h : isMark c = true) :
    lex (c :: s) = .mark c :: lex s := by
  simp only [isMark, Bool.and_eq_true, Bool.not_eq_true', decide_eq_true_eq] at h
  obtain ⟨⟨hword, hspace⟩, hquote⟩ := h
  rw [lex, if_neg hspace, if_neg (by simp [hword]), if_neg hquote]

theorem lex_word {w : String} {s : List Char} (hw : IsWord w) (hs : Free s) :
    lex (w.toList ++ s) = .word w :: lex s := by
  obtain ⟨hne, hchars⟩ := hw
  cases hlist : w.toList with
  | nil => exact absurd (String.toList_eq_nil_iff.1 hlist) hne
  | cons c cs =>
    rw [hlist, List.all_eq_true] at hchars
    obtain ⟨hc, hcs⟩ := List.forall_mem_cons.1 hchars
    have hspace : c ≠ ' ' := by
      rintro rfl
      exact absurd hc (by decide)
    rw [List.cons_append, lex, if_neg hspace, if_pos hc, Text.takeWhile_append hcs hs,
      Text.dropWhile_append hcs hs, ← hlist, String.ofList_toList]

theorem lex_quoted {q s : List Char} (hq : '"' ∉ q) :
    lex ('"' :: (q ++ '"' :: s)) = .quoted (String.ofList q) :: lex s := by
  have hchars : ∀ c ∈ q, decide (c ≠ '"') = true := by
    intro c hc
    exact decide_eq_true (ne_of_mem_of_not_mem hc hq)
  have hend : ∀ c ∈ ('"' :: s).head?, decide (c ≠ '"') = false := by
    intro c hc
    obtain rfl := Option.some.inj hc
    rfl
  rw [lex, if_neg (by decide), if_neg (by decide), if_pos rfl, Text.takeWhile_append hchars hend,
    Text.dropWhile_append hchars hend, List.drop_succ_cons, List.drop_zero]

theorem isWord_of_isIdentifier {s : String} (h : isIdentifier s = true) : IsWord s := by
  obtain ⟨c, cs, hs, -, hchars⟩ := isIdentifier_iff.1 h
  constructor
  · rintro rfl
    exact absurd hs (by simp)
  · rw [hs, List.all_eq_true]
    exact hchars

end Token

end ContestInput.Program

import ContestInput.Json.Number
/-!
# JSON tokens

The lexical level of JSON. A text is cut into tokens from left to right; the first place where no
token can be read gives the token `invalid`, and nothing behind it is looked at. What only some
readers refuse, a number out of range or an escape of half a surrogate pair, is kept in the token.
-/

namespace ContestInput.Json

inductive Token where
  | openArray
  | closeArray
  | openObject
  | closeObject
  | comma
  | colon
  | null
  | bool (value : Bool)
  | number (value : Number)
  /-- No value stands for a string with an unpaired surrogate. -/
  | string (value : Option String)
  | invalid
  deriving DecidableEq, Repr

def isSpace (c : Char) : Bool :=
  c = ' ' || c = '\t' || c = '\n' || c = '\r'

def hexValue? (c : Char) : Option Nat :=
  if c.isDigit then some (c.toNat - '0'.toNat)
  else if 'a' ≤ c && c ≤ 'f' then some (c.toNat - 'a'.toNat + 10)
  else if 'A' ≤ c && c ≤ 'F' then some (c.toNat - 'A'.toNat + 10)
  else none

def hexCode? (a b c d : Char) : Option Nat := do
  let a ← hexValue? a
  let b ← hexValue? b
  let c ← hexValue? c
  let d ← hexValue? d
  some (((a * 16 + b) * 16 + c) * 16 + d)

def shortEscape? : Char → Option Char
  | '"' => some '"'
  | '\\' => some '\\'
  | '/' => some '/'
  | 'b' => some '\x08'
  | 'f' => some '\x0c'
  | 'n' => some '\n'
  | 'r' => some '\r'
  | 't' => some '\t'
  | _ => none

/-- What one character or escape of a string contributes. -/
inductive Piece where
  | char (c : Char)
  | highSurrogate (code : Nat)
  | lowSurrogate (code : Nat)
  deriving DecidableEq, Repr

namespace Piece

def ofCode (code : Nat) : Piece :=
  if 0xD800 ≤ code && code < 0xDC00 then .highSurrogate code
  else if 0xDC00 ≤ code && code < 0xE000 then .lowSurrogate code
  else .char (Char.ofNat code)

/-- The pieces of a string up to its closing quote, and the text behind the quote. -/
def scan? : List Char → Option (List Piece × List Char)
  | '"' :: s => some ([], s)
  | '\\' :: 'u' :: a :: b :: c :: d :: s => do
    let code ← hexCode? a b c d
    let (pieces, rest) ← scan? s
    some (ofCode code :: pieces, rest)
  | '\\' :: e :: s => do
    let c ← shortEscape? e
    let (pieces, rest) ← scan? s
    some (.char c :: pieces, rest)
  | c :: s =>
    if c = '\\' || c < ' ' then none
    else do
      let (pieces, rest) ← scan? s
      some (.char c :: pieces, rest)
  | [] => none

private theorem length_scan?_le {s rest : List Char} {pieces : List Piece}
    (h : scan? s = some (pieces, rest)) : rest.length ≤ s.length := by
  fun_induction scan? s generalizing pieces with
  | case1 => simp_all
  | case2 a b c d s ih =>
    simp only [Option.bind_eq_bind, Option.bind_eq_some_iff, Option.some.injEq, Prod.mk.injEq,
      Prod.exists] at h
    obtain ⟨_, -, _, _, hs, -, rfl⟩ := h
    have := ih hs
    simp only [List.length_cons]
    omega
  | case3 e s _ ih =>
    simp only [Option.bind_eq_bind, Option.bind_eq_some_iff, Option.some.injEq, Prod.mk.injEq,
      Prod.exists] at h
    obtain ⟨_, -, _, _, hs, -, rfl⟩ := h
    have := ih hs
    simp only [List.length_cons]
    omega
  | case4 => simp at h
  | case5 c s _ _ _ _ ih =>
    simp only [Option.bind_eq_bind, Option.bind_eq_some_iff, Option.some.injEq, Prod.mk.injEq,
      Prod.exists] at h
    obtain ⟨_, _, hs, -, rfl⟩ := h
    have := ih hs
    simp only [List.length_cons]
    omega
  | case6 => simp at h

/-- The characters of a string. Surrogates have to come in pairs. -/
def join? : List Piece → Option (List Char)
  | [] => some []
  | .char c :: pieces => (c :: ·) <$> join? pieces
  | .highSurrogate h :: .lowSurrogate l :: pieces =>
    (Char.ofNat (0x10000 + (h - 0xD800) * 0x400 + (l - 0xDC00)) :: ·) <$> join? pieces
  | .highSurrogate _ :: _ => none
  | .lowSurrogate _ :: _ => none

end Piece

namespace Token

/-- The first token of a text that does not start with white space, and the text behind it. -/
def scan? : List Char → Option (Token × List Char)
  | '[' :: s => some (.openArray, s)
  | ']' :: s => some (.closeArray, s)
  | '{' :: s => some (.openObject, s)
  | '}' :: s => some (.closeObject, s)
  | ',' :: s => some (.comma, s)
  | ':' :: s => some (.colon, s)
  | 'n' :: 'u' :: 'l' :: 'l' :: s => some (.null, s)
  | 't' :: 'r' :: 'u' :: 'e' :: s => some (.bool true, s)
  | 'f' :: 'a' :: 'l' :: 's' :: 'e' :: s => some (.bool false, s)
  | '"' :: s => (Piece.scan? s).map fun (pieces, rest) =>
      (.string ((Piece.join? pieces).map String.ofList), rest)
  | s => (Numeral.scan? s).map fun (n, rest) => (.number n.value, rest)

theorem length_scan?_lt {s rest : List Char} {token : Token}
    (h : scan? s = some (token, rest)) : rest.length < s.length := by
  unfold scan? at h
  split at h
  case h_10 =>
    simp only [Option.map_eq_some_iff, Prod.mk.injEq, Prod.exists] at h
    obtain ⟨_, _, hs, -, rfl⟩ := h
    have := Piece.length_scan?_le hs
    simp only [List.length_cons]
    omega
  case h_11 =>
    simp only [Option.map_eq_some_iff, Prod.mk.injEq, Prod.exists] at h
    obtain ⟨_, _, hs, -, rfl⟩ := h
    exact Numeral.length_scan?_lt hs
  all_goals
    simp only [Option.some.injEq, Prod.mk.injEq] at h
    simp only [List.length_cons, ← h.2]
    omega

def lex : List Char → List Token
  | [] => []
  | c :: s =>
    if isSpace c then lex s
    else match _ : scan? (c :: s) with
      | some (token, rest) => token :: lex rest
      | none => [.invalid]
termination_by s => s.length
decreasing_by
  · simp
  · exact length_scan?_lt ‹scan? _ = some _›

end Token

end ContestInput.Json

import ContestInput.Json.Outline
import ContestInput.Proofs.Json.Lexeme
/-!
# Well-formed texts

A document is a JSON value with its members in the order of the text, its numbers and strings as
the tokens hold them. The outline of a text has a complete root with nothing behind it exactly
when the text spells the tokens of a document, which is then the root.
-/

namespace ContestInput.Json

inductive Document where
  | null
  | bool (value : Bool)
  | number (value : Number)
  | string (value : Option String)
  | array (items : List Document)
  | object (members : List (Option String × Document))

namespace Document

mutual

def tokens : Document → List Token
  | .null => [.null]
  | .bool b => [.bool b]
  | .number n => [.number n]
  | .string s => [.string s]
  | .array [] => [.openArray, .closeArray]
  | .array (d :: ds) => .openArray :: (d.tokens ++ moreItems ds)
  | .object [] => [.openObject, .closeObject]
  | .object ((key, d) :: ms) => .openObject :: .string key :: .colon :: (d.tokens ++ moreMembers ms)

/-- What follows an item of an array: further items and the closing bracket. -/
def moreItems : List Document → List Token
  | [] => [.closeArray]
  | d :: ds => .comma :: (d.tokens ++ moreItems ds)

def moreMembers : List (Option String × Document) → List Token
  | [] => [.closeObject]
  | (key, d) :: ms => .comma :: .string key :: .colon :: (d.tokens ++ moreMembers ms)

end

mutual

def tree : Document → Tree
  | .null => .null
  | .bool b => .bool b
  | .number n => .number n
  | .string s => .string s
  | .array ds => .array (trees ds) true
  | .object ms => .object (memberTrees ms) true

def trees : List Document → List Tree
  | [] => []
  | d :: ds => d.tree :: trees ds

def memberTrees : List (Option String × Document) → List (Option String × Tree)
  | [] => []
  | (key, d) :: ms => (key, d.tree) :: memberTrees ms

end

theorem trees_eq_map (ds : List Document) : trees ds = ds.map tree := by
  induction ds with
  | nil => rw [trees, List.map_nil]
  | cons d ds ih => rw [trees, ih, List.map_cons]

theorem memberTrees_eq_map (ms : List (Option String × Document)) :
    memberTrees ms = ms.map fun m => (m.1, m.2.tree) := by
  induction ms with
  | nil => rw [memberTrees, List.map_nil]
  | cons m ms ih => rw [memberTrees, ih, List.map_cons]

@[simp] theorem tree_array (ds : List Document) : (array ds).tree = .array (ds.map tree) true := by
  rw [tree, trees_eq_map]

@[simp] theorem tree_object (ms : List (Option String × Document)) :
    (object ms).tree = .object (ms.map fun m => (m.1, m.2.tree)) true := by
  rw [tree, memberTrees_eq_map]

theorem isComplete_tree (d : Document) : d.tree.isComplete = true := by
  cases d with
  | array ds => rw [tree_array, Tree.isComplete]
  | object ms => rw [tree_object, Tree.isComplete]
  | _ => rfl

theorem exists_cons_tokens (d : Document) (rest : List Token) :
    ∃ t ts, d.tokens ++ rest = t :: ts ∧ t ≠ .closeArray := by
  match d with
  | .null => exact ⟨_, _, rfl, by simp⟩
  | .bool b => exact ⟨_, _, rfl, by simp⟩
  | .number n => exact ⟨_, _, rfl, by simp⟩
  | .string s => exact ⟨_, _, rfl, by simp⟩
  | .array [] => exact ⟨_, _, by rw [tokens]; rfl, by simp⟩
  | .array (d :: ds) => exact ⟨_, _, by rw [tokens]; rfl, by simp⟩
  | .object [] => exact ⟨_, _, by rw [tokens]; rfl, by simp⟩
  | .object ((key, d) :: ms) => exact ⟨_, _, by rw [tokens]; rfl, by simp⟩

private theorem head?_moreItems (ds : List Document) : ∀ t ∈ (moreItems ds).head?,
    t = .comma ∨ t = .closeArray ∨ t = .closeObject := by
  cases ds with
  | nil => simp [moreItems]
  | cons d ds => simp [moreItems]

private theorem head?_moreMembers (ms : List (Option String × Document)) :
    ∀ t ∈ (moreMembers ms).head?, t = .comma ∨ t = .closeArray ∨ t = .closeObject := by
  cases ms with
  | nil => simp [moreMembers]
  | cons m ms => simp [moreMembers]

private theorem isChain_append {ts ts' : List Token} (h : ts.IsChain Token.Separate)
    (h' : ts'.IsChain Token.Separate)
    (hhead : ∀ t ∈ ts'.head?, t = .comma ∨ t = .closeArray ∨ t = .closeObject) :
    (ts ++ ts').IsChain Token.Separate :=
  List.isChain_append.2 ⟨h, h', fun _ _ t ht _ => hhead t ht⟩

theorem isChain_cons {t : Token} {ts : List Token} (ht : ∀ n, t ≠ .number n)
    (h : ts.IsChain Token.Separate) : (t :: ts).IsChain Token.Separate :=
  List.isChain_cons.2 ⟨fun _ _ ⟨n, hn⟩ => absurd hn (ht n), h⟩

mutual

/-- In a document no number stands before a token that could continue it. -/
theorem isChain_tokens : (d : Document) → d.tokens.IsChain Token.Separate
  | .null => .singleton _
  | .bool b => .singleton _
  | .number n => .singleton _
  | .string s => .singleton _
  | .array [] => isChain_cons (by simp) (.singleton _)
  | .array (d :: ds) =>
    isChain_cons (by simp)
      (isChain_append (isChain_tokens d) (isChain_moreItems ds) (head?_moreItems ds))
  | .object [] => isChain_cons (by simp) (.singleton _)
  | .object ((key, d) :: ms) =>
    isChain_cons (by simp) (isChain_cons (by simp) (isChain_cons (by simp)
      (isChain_append (isChain_tokens d) (isChain_moreMembers ms) (head?_moreMembers ms))))

private theorem isChain_moreItems : (ds : List Document) → (moreItems ds).IsChain Token.Separate
  | [] => .singleton _
  | d :: ds =>
    isChain_cons (by simp)
      (isChain_append (isChain_tokens d) (isChain_moreItems ds) (head?_moreItems ds))

private theorem isChain_moreMembers :
    (ms : List (Option String × Document)) → (moreMembers ms).IsChain Token.Separate
  | [] => .singleton _
  | (key, d) :: ms =>
    isChain_cons (by simp) (isChain_cons (by simp) (isChain_cons (by simp)
      (isChain_append (isChain_tokens d) (isChain_moreMembers ms) (head?_moreMembers ms))))

end

mutual

theorem invalid_not_mem_tokens : (d : Document) → .invalid ∉ d.tokens
  | .null => by simp [tokens]
  | .bool b => by simp [tokens]
  | .number n => by simp [tokens]
  | .string s => by simp [tokens]
  | .array [] => by simp [tokens]
  | .array (d :: ds) => by simp [tokens, invalid_not_mem_tokens d, invalid_not_mem_moreItems ds]
  | .object [] => by simp [tokens]
  | .object ((key, d) :: ms) => by
    simp [tokens, invalid_not_mem_tokens d, invalid_not_mem_moreMembers ms]

private theorem invalid_not_mem_moreItems : (ds : List Document) → .invalid ∉ moreItems ds
  | [] => by simp [moreItems]
  | d :: ds => by simp [moreItems, invalid_not_mem_tokens d, invalid_not_mem_moreItems ds]

private theorem invalid_not_mem_moreMembers :
    (ms : List (Option String × Document)) → .invalid ∉ moreMembers ms
  | [] => by simp [moreMembers]
  | (key, d) :: ms => by
    simp [moreMembers, invalid_not_mem_tokens d, invalid_not_mem_moreMembers ms]

end

theorem spells_tokens_iff {s : List Char} {d : Document} :
    Spells s d.tokens ↔ Token.lex s = d.tokens := by
  constructor
  · intro h
    exact Token.lex_eq_of_spells h d.isChain_tokens
  · intro h
    have hinvalid := d.invalid_not_mem_tokens
    rw [← h] at hinvalid ⊢
    exact Token.spells_lex s hinvalid

end Document

end ContestInput.Json

import ContestInput.Json.Token
/-!
# Outlines of JSON texts

An outline holds what can be read of a JSON text up to the first place where its grammar is
broken. Readers walk it in text order, so of several faults in a text they report the first, and
a fault of meaning may come before a fault of grammar. A container says whether its closing
bracket was reached; one that says so holds well-formed parts only. An outline grows by one token
at a time, and no text is nested too deeply for it.
-/

namespace ContestInput.Json

inductive Tree where
  | null
  | bool (value : Bool)
  | number (value : Number)
  | string (value : Option String)
  | array (items : List Tree) (closed : Bool)
  /-- A key without a value is a string with an unpaired surrogate. -/
  | object (members : List (Option String × Tree)) (closed : Bool)
  /-- No value could be read here. -/
  | broken
  deriving Repr, Inhabited

/-- A container that is still open, its parts in reverse order. -/
inductive Frame where
  | items (rev : List Tree)
  /-- An object that waits for the value of its last key. -/
  | member (rev : List (Option String × Tree)) (key : Option String)
  deriving Repr

/-- How far a text has been read: what may come next, and the open containers, innermost first. -/
inductive Reading where
  /-- A value has to come. -/
  | value (frames : List Frame)
  /-- The first item of an array, or its end. -/
  | firstItem (frames : List Frame)
  /-- The first key of an object, or its end. -/
  | firstKey (frames : List Frame)
  /-- A key has to come. -/
  | nextKey (rev : List (Option String × Tree)) (frames : List Frame)
  /-- The colon behind a key has to come. -/
  | colon (rev : List (Option String × Tree)) (key : Option String) (frames : List Frame)
  /-- A comma, or the end of the array. -/
  | nextItem (rev : List Tree) (frames : List Frame)
  /-- A comma, or the end of the object. -/
  | nextMember (rev : List (Option String × Tree)) (frames : List Frame)
  /-- The text's value is complete, and more text may have followed. -/
  | done (root : Tree) (trailing : Bool)
  /-- The grammar is broken. -/
  | stopped (root : Tree)
  deriving Repr

/-- The outline of a text, and whether its value is followed by more text. -/
structure Outline where
  root : Tree
  trailing : Bool
  deriving Repr

namespace Reading

/-- The outline that is left when the innermost value ends as `t` and nothing follows. -/
def cut (t : Tree) : List Frame → Tree
  | [] => t
  | .items rev :: frames => cut (.array (t :: rev).reverse false) frames
  | .member rev key :: frames => cut (.object ((key, t) :: rev).reverse false) frames

/-- A complete value takes its place in the innermost open container. -/
def place (t : Tree) : List Frame → Reading
  | [] => .done t false
  | .items rev :: frames => .nextItem (t :: rev) frames
  | .member rev key :: frames => .nextMember ((key, t) :: rev) frames

def startValue (frames : List Frame) : Token → Reading
  | .null => place .null frames
  | .bool b => place (.bool b) frames
  | .number n => place (.number n) frames
  | .string s => place (.string s) frames
  | .openArray => .firstItem frames
  | .openObject => .firstKey frames
  | _ => .stopped (cut .broken frames)

def startKey (rev : List (Option String × Tree)) (frames : List Frame) : Token → Reading
  | .string s => .colon rev s frames
  | _ => .stopped (cut (.object rev.reverse false) frames)

def step : Reading → Token → Reading
  | .value frames, token => startValue frames token
  | .firstItem frames, .closeArray => place (.array [] true) frames
  | .firstItem frames, token => startValue (.items [] :: frames) token
  | .firstKey frames, .closeObject => place (.object [] true) frames
  | .firstKey frames, token => startKey [] frames token
  | .nextKey rev frames, token => startKey rev frames token
  | .colon rev key frames, .colon => .value (.member rev key :: frames)
  | .colon rev key frames, _ => .stopped (cut .broken (.member rev key :: frames))
  | .nextItem rev frames, .comma => .value (.items rev :: frames)
  | .nextItem rev frames, .closeArray => place (.array rev.reverse true) frames
  | .nextItem rev frames, _ => .stopped (cut (.array rev.reverse false) frames)
  | .nextMember rev frames, .comma => .nextKey rev frames
  | .nextMember rev frames, .closeObject => place (.object rev.reverse true) frames
  | .nextMember rev frames, _ => .stopped (cut (.object rev.reverse false) frames)
  | .done root _, _ => .done root true
  | .stopped root, _ => .stopped root

def finish : Reading → Outline
  | .value frames => ⟨cut .broken frames, false⟩
  | .firstItem frames => ⟨cut (.array [] false) frames, false⟩
  | .firstKey frames => ⟨cut (.object [] false) frames, false⟩
  | .nextKey rev frames => ⟨cut (.object rev.reverse false) frames, false⟩
  | .colon rev key frames => ⟨cut .broken (.member rev key :: frames), false⟩
  | .nextItem rev frames => ⟨cut (.array rev.reverse false) frames, false⟩
  | .nextMember rev frames => ⟨cut (.object rev.reverse false) frames, false⟩
  | .done root trailing => ⟨root, trailing⟩
  | .stopped root => ⟨root, false⟩

end Reading

def Outline.ofText (s : String) : Outline :=
  ((Token.lex s.toList).foldl Reading.step (.value [])).finish

namespace Tree

/-- Whether the value is well formed, read without regard to what it means: numbers may be out of
range and surrogates unpaired, in any depth. -/
def isComplete : Tree → Bool
  | .array _ closed => closed
  | .object _ closed => closed
  | .broken => false
  | _ => true

mutual

/-- Whether the whole value has a meaning and nests at most `depth` containers. -/
def isSound (depth : Nat) : Tree → Bool
  | .null => true
  | .bool _ => true
  | .number n => n != .outOfRange
  | .string s => s.isSome
  | .array items closed =>
    match depth with
    | 0 => false
    | depth + 1 => closed && itemsSound depth items
  | .object members closed =>
    match depth with
    | 0 => false
    | depth + 1 => closed && membersSound depth members
  | .broken => false

def itemsSound (depth : Nat) : List Tree → Bool
  | [] => true
  | item :: items => item.isSound depth && itemsSound depth items

def membersSound (depth : Nat) : List (Option String × Tree) → Bool
  | [] => true
  | (key, value) :: members =>
    key.isSome && value.isSound depth && membersSound depth members

end

end Tree

end ContestInput.Json

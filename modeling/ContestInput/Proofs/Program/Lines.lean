import ContestInput.Program.Text
import ContestInput.Proofs.Fallible
import ContestInput.Proofs.Program.Token
/-!
# Lines read back

How the lines of a program are read: declarations with the dimensions of each variable, and input
statements with their loops, the conversions of their format and the addresses they pass. A line
whose names are identifiers is read as the declaration or statement that it was written for.
-/

namespace ContestInput.Program

/-! ## Reading tokens -/

/-- The number of a word of decimal digits. With a zero in front, more digits would be octal. -/
def decimal? (s : String) : Option UInt64 :=
  match s.toList with
  | '0' :: _ :: _ => none
  | digits => if digits.all Char.isDigit then Text.word? digits else none

def operand? {α : Type} (number : UInt64 → α) (name : String → α) (s : String) : Option α :=
  if isIdentifier s then some (name s) else (decimal? s).map number

def identifier? (s : String) : Option String :=
  if isIdentifier s then some s else none

def Index.ofWord? (s : String) : Option Index :=
  if s = "i" then some .i
  else if s = "j" then some .j
  else none

def BaseType.ofWord? (s : String) : Option BaseType :=
  if s = "int" then some .int
  else if s = "char" then some .char
  else none

def list? {α : Type} (item : List Token → Option α) (ts : List Token) : Option (List α) :=
  (ts.splitOn (.mark ',')).mapM item

def extents? : List Token → Option (List Extent)
  | [] => some []
  | .mark '[' :: .word count :: .mark ']' :: ts => do
    let count ← operand? .literal .constant count
    let extents ← extents? ts
    some (⟨count, false⟩ :: extents)
  | .mark '[' :: .word count :: .mark '+' :: .word "1" :: .mark ']' :: ts => do
    let count ← operand? .literal .constant count
    let extents ← extents? ts
    some (⟨count, true⟩ :: extents)
  | _ => none

def Variable.ofTokens? : List Token → Option Variable
  | .word name :: ts => do
    let name ← identifier? name
    let extents ← extents? ts
    some ⟨name, extents⟩
  | _ => none

def Declaration.ofTokens? : List Token → Option Declaration
  | .word base :: ts => do
    let base ← BaseType.ofWord? base
    let ts ← ts.dropSuffix? [.mark ';']
    let declared ← list? Variable.ofTokens? ts
    some ⟨base, declared⟩
  | _ => none

def subscripts? : List Token → Option (List Index)
  | [] => some []
  | .mark '[' :: .word index :: .mark ']' :: ts => do
    let index ← Index.ofWord? index
    let indices ← subscripts? ts
    some (index :: indices)
  | _ => none

def Target.ofTokens? : List Token → Option Target
  | .mark '&' :: .word name :: ts => do
    let name ← identifier? name
    let indices ← subscripts? ts
    some (.element name indices)
  | [.word name, .mark '+', .word index] => do
    let name ← identifier? name
    let index ← Index.ofWord? index
    some (.offset name index)
  | .word name :: ts => do
    let name ← identifier? name
    let indices ← subscripts? ts
    some (.buffer name indices)
  | _ => none

def conversions? : List Char → Option (List Conversion)
  | [] => some []
  | '%' :: 'd' :: s => (conversions? s).map (.decimal :: ·)
  | '%' :: 's' :: s => (conversions? s).map (.word :: ·)
  | _ => none

/-- A statement has a conversion for each address. -/
def ReadStatement.ofTokens? : List Token → Option ReadStatement
  | .word "REP" :: .mark '(' :: .word index :: .mark ',' :: .word bound :: .mark ')' :: ts => do
    let index ← Index.ofWord? index
    let bound ← operand? .literal .symbol bound
    let statement ← ReadStatement.ofTokens? ts
    some ⟨⟨index, bound⟩ :: statement.loops, statement.reads⟩
  | .word "scanf" :: .mark '(' :: .quoted format :: .mark ',' :: ts => do
    let conversions ← conversions? format.toList
    let ts ← ts.dropSuffix? [.mark ')', .mark ';']
    let targets ← list? Target.ofTokens? ts
    if conversions.length = targets.length then some ⟨[], conversions.zip targets⟩ else none
  | _ => none

def Declaration.ofText? (line : String) : Option Declaration :=
  Declaration.ofTokens? (Token.lex line.toList)

def ReadStatement.ofText? (line : String) : Option ReadStatement :=
  ReadStatement.ofTokens? (Token.lex line.toList)

example : ReadStatement.ofText? "REP(i,R) scanf(\"%d%s\", &A[i], S + i );" =
    some ⟨[⟨.i, .symbol "R"⟩], [(.decimal, .element "A" [.i]), (.word, .offset "S" .i)]⟩ := by
  decide +kernel

/-! ## Names that are identifiers -/

def Target.name : Target → String
  | .element name _ | .buffer name _ | .offset name _ => name

def Target.indices : Target → List Index
  | .element _ indices | .buffer _ indices => indices
  | .offset _ index => [index]

structure Declaration.IsReadable (d : Declaration) : Prop where
  declared_ne_nil : d.declared ≠ []
  names : ∀ v ∈ d.declared, isIdentifier v.name = true
  constants : ∀ v ∈ d.declared, ∀ e ∈ v.extents, ∀ name, e.count = .constant name →
    isIdentifier name = true

structure ReadStatement.IsReadable (r : ReadStatement) : Prop where
  reads_ne_nil : r.reads ≠ []
  names : ∀ read ∈ r.reads, isIdentifier read.2.name = true
  symbols : ∀ l ∈ r.loops, ∀ name, l.bound = .symbol name → isIdentifier name = true

/-! ## Operands -/

section Operands

variable {α : Type} {number : UInt64 → α} {name : String → α}

theorem isIdentifier_toString (n : Nat) : isIdentifier (toString n) = false := by
  have hlist : (toString n).toList = Nat.toDigits 10 n := by simp
  rw [isIdentifier, hlist]
  cases hdigits : Nat.toDigits 10 n with
  | nil => rfl
  | cons c cs =>
    have hc : c ∈ Nat.toDigits 10 n := by simp [hdigits]
    simp [Nat.isDigit_of_mem_toDigits (by omega) (by omega) hc]

theorem decimal?_toString (w : UInt64) : decimal? (toString w.toNat) = some w := by
  have hlist : (toString w.toNat).toList = Nat.toDigits 10 w.toNat := by simp
  rw [decimal?, hlist]
  split
  · rename_i c cs hdigits
    have hzero : w.toNat = 0 := Text.head?_toDigits (by rw [hdigits]; rfl)
    rw [hzero, Nat.toDigits_zero] at hdigits
    exact absurd hdigits (by simp)
  · have hall : (Nat.toDigits 10 w.toNat).all Char.isDigit = true :=
      List.all_eq_true.2 fun c hc => Nat.isDigit_of_mem_toDigits (by omega) (by omega) hc
    rw [if_pos hall, Text.word?_toDigits]

theorem operand?_toString (w : UInt64) :
    operand? number name (toString w.toNat) = some (number w) := by
  rw [operand?, isIdentifier_toString, if_neg (by simp), decimal?_toString]
  rfl

theorem operand?_identifier {s : String} (h : isIdentifier s = true) :
    operand? number name s = some (name s) := by
  rw [operand?, if_pos h]

theorem isWord_toString (n : Nat) : Token.IsWord (toString n) := by
  have hlist : (toString n).toList = Nat.toDigits 10 n := by simp
  constructor
  · intro hempty
    rw [hempty] at hlist
    exact Nat.toDigits_ne_nil hlist.symm
  · rw [hlist, List.all_eq_true]
    intro c hc
    have hdigit : c.isDigit = true := Nat.isDigit_of_mem_toDigits (by omega) (by omega) hc
    simp [isWordChar, Char.isAlphanum, hdigit]

end Operands

theorem Index.ofWord?_text (index : Index) : ofWord? index.text = some index := by
  cases index <;> decide

theorem Index.isWord_text (index : Index) : Token.IsWord index.text := by
  cases index <;> exact ⟨by decide, by decide⟩

theorem BaseType.ofWord?_text (base : BaseType) : ofWord? base.text = some base := by
  cases base <;> decide

theorem BaseType.isWord_text (base : BaseType) : Token.IsWord base.text := by
  cases base <;> exact ⟨by decide, by decide⟩

theorem identifier?_eq_some {s : String} (h : isIdentifier s = true) :
    identifier? s = some s := by
  rw [identifier?, if_pos h]

/-! ## The tokens of what is written -/

def Extent.tokens (e : Extent) : List Token :=
  if e.terminated then [.mark '[', .word e.count.text, .mark '+', .word "1", .mark ']']
  else [.mark '[', .word e.count.text, .mark ']']

def Variable.tokens (v : Variable) : List Token :=
  .word v.name :: v.extents.flatMap Extent.tokens

def Declaration.tokens (d : Declaration) : List Token :=
  .word d.base.text :: ([Token.mark ','].intercalate (d.declared.map Variable.tokens) ++
    [.mark ';'])

def Index.tokens (index : Index) : List Token :=
  [.mark '[', .word index.text, .mark ']']

def Target.tokens : Target → List Token
  | .element name indices => .mark '&' :: .word name :: indices.flatMap Index.tokens
  | .buffer name indices => .word name :: indices.flatMap Index.tokens
  | .offset name index => [.word name, .mark '+', .word index.text]

def Loop.tokens (l : Loop) : List Token :=
  [.word "REP", .mark '(', .word l.index.text, .mark ',', .word l.bound.text, .mark ')']

def ReadStatement.tokens (r : ReadStatement) : List Token :=
  r.loops.flatMap Loop.tokens ++ .word "scanf" :: .mark '(' ::
    .quoted (String.join (r.reads.map (·.1.text))) :: .mark ',' ::
    ([Token.mark ','].intercalate (r.reads.map (·.2.tokens)) ++ [.mark ')', .mark ';'])

namespace Token

variable {α : Type} {xs : List α} {text : α → List Char} {tokens : α → List Token} {s : List Char}

private theorem lex_flatMap (h : ∀ x ∈ xs, ∀ s, lex (text x ++ s) = tokens x ++ lex s)
    (s : List Char) : lex (xs.flatMap text ++ s) = xs.flatMap tokens ++ lex s := by
  induction xs with
  | nil => rfl
  | cons x xs ih =>
    rw [List.flatMap_cons, List.flatMap_cons, List.append_assoc, List.append_assoc,
      h x List.mem_cons_self, ih fun y hy => h y (List.mem_cons_of_mem _ hy)]

/-- Items with commas between them fall into their own tokens, with a mark for each comma. -/
private theorem lex_intercalate (h : ∀ x ∈ xs, ∀ s, Free s → lex (text x ++ s) = tokens x ++ lex s)
    (hs : Free s) : lex ([',', ' '].intercalate (xs.map text) ++ s) =
      [mark ','].intercalate (xs.map tokens) ++ lex s := by
  induction xs with
  | nil => rfl
  | cons x xs ih =>
    have hx := h x List.mem_cons_self
    cases xs with
    | nil => simpa using hx s hs
    | cons y ys =>
      have hrest := ih fun z hz => h z (List.mem_cons_of_mem _ hz)
      simp only [List.map_cons, List.intercalate_cons_cons, List.append_assoc, List.cons_append,
        List.nil_append] at hrest ⊢
      rw [hx _ (free_cons (by decide)), lex_mark (by decide), lex_space, hrest]

end Token

open Token

theorem Extent.lex_append {e : Extent} (h : IsWord e.count.text) (s : List Char) :
    lex (e.text.toList ++ s) = e.tokens ++ lex s := by
  rw [text, tokens]
  cases e.terminated with
  | false =>
    have htext : ("[" ++ e.count.text ++ (if false = true then " + 1" else "") ++ "]").toList ++ s =
        '[' :: (e.count.text.toList ++ (']' :: s)) := by simp
    rw [htext, lex_mark (by decide), lex_word h (free_cons (by decide)),
      lex_mark (by decide)]
    rfl
  | true =>
    have htext : ("[" ++ e.count.text ++ (if true = true then " + 1" else "") ++ "]").toList ++ s =
        '[' :: (e.count.text.toList ++ (' ' :: '+' :: ' ' :: ("1".toList ++ (']' :: s)))) := by simp
    rw [htext, lex_mark (by decide), lex_word h (free_cons (by decide)),
      lex_space, lex_mark (by decide), lex_space,
      lex_word ⟨by decide, by decide⟩ (free_cons (by decide)),
      lex_mark (by decide)]
    rfl

private theorem free_extents_append {es : List Extent} {s : List Char} (hs : Free s) :
    Free (es.flatMap (fun e => e.text.toList) ++ s) := by
  cases es with
  | nil => exact hs
  | cons e es =>
    have htext : (e :: es).flatMap (fun e => e.text.toList) ++ s =
        '[' :: ((e.count.text ++ (if e.terminated = true then " + 1" else "") ++ "]").toList ++
          (es.flatMap (fun e => e.text.toList) ++ s)) := by
      simp [Extent.text]
    rw [htext]
    exact free_cons (by decide)

theorem Variable.lex_append {v : Variable} (hname : isIdentifier v.name = true)
    (hcounts : ∀ e ∈ v.extents, IsWord e.count.text) (s : List Char) (hs : Free s) :
    lex (v.text.toList ++ s) = v.tokens ++ lex s := by
  have htext : v.text.toList ++ s =
      v.name.toList ++ (v.extents.flatMap (fun e => e.text.toList) ++ s) := by
    simp [text, List.flatMap_map]
  rw [htext, lex_word (isWord_of_isIdentifier hname) (free_extents_append hs),
    lex_flatMap fun e he => Extent.lex_append (hcounts e he)]
  rfl

theorem Declaration.lex_text {d : Declaration} (h : d.IsReadable) :
    lex d.text.toList = d.tokens := by
  have hcounts : ∀ v ∈ d.declared, ∀ e ∈ v.extents, IsWord e.count.text := by
    intro v hv e he
    cases hcount : e.count with
    | literal value => exact isWord_toString _
    | constant name => exact isWord_of_isIdentifier (h.constants v hv e he name hcount)
  have htext : d.text.toList =
      d.base.text.toList ++ ' ' :: ([',', ' '].intercalate (d.declared.map (·.text.toList)) ++
        [';']) := by
    simp [text, Function.comp_def]
  rw [htext, lex_word d.base.isWord_text (free_cons (by decide)), lex_space,
    lex_intercalate (fun v hv => Variable.lex_append (h.names v hv) (hcounts v hv))
      (free_cons (by decide)), lex_mark (by decide), lex_nil]
  rfl

private theorem list?_intercalate {α : Type} {item : List Token → Option α}
    {tokens : α → List Token} {xs : List α} (hne : xs ≠ [])
    (hcomma : ∀ x ∈ xs, .mark ',' ∉ tokens x)
    (hitem : ∀ x ∈ xs, item (tokens x) = some x) :
    list? item ([.mark ','].intercalate (xs.map tokens)) = some xs := by
  have hsplit : ([Token.mark ','].intercalate (xs.map tokens)).splitOn (.mark ',') =
      xs.map tokens := by
    apply List.splitOn_intercalate
    · intro l hl
      obtain ⟨x, hx, rfl⟩ := List.mem_map.1 hl
      exact hcomma x hx
    · simpa using hne
  rw [list?, hsplit, Fallible.mapM_map_eq_some hitem]

theorem Count.operand?_text {c : Count}
    (h : ∀ name, c = .constant name → isIdentifier name = true) :
    operand? .literal .constant c.text = some c := by
  cases c with
  | literal value => exact operand?_toString value
  | constant name => exact operand?_identifier (h name rfl)

theorem extents?_tokens {es : List Extent}
    (h : ∀ e ∈ es, ∀ name, e.count = .constant name → isIdentifier name = true) :
    extents? (es.flatMap Extent.tokens) = some es := by
  induction es with
  | nil => rfl
  | cons e es ih =>
    have hcount := Count.operand?_text (h e List.mem_cons_self)
    have hes := ih fun e' he' => h e' (List.mem_cons_of_mem _ he')
    obtain ⟨count, terminated⟩ := e
    cases terminated with
    | false => simp [Extent.tokens, extents?, hcount, hes]
    | true => simp [Extent.tokens, extents?, hcount, hes]

theorem Variable.ofTokens?_tokens {v : Variable} (hname : isIdentifier v.name = true)
    (h : ∀ e ∈ v.extents, ∀ name, e.count = .constant name → isIdentifier name = true) :
    ofTokens? v.tokens = some v := by
  rw [tokens, ofTokens?, identifier?_eq_some hname, extents?_tokens h]
  rfl

private theorem Variable.comma_not_mem_tokens (v : Variable) : .mark ',' ∉ v.tokens := by
  have hextent : ∀ e ∈ v.extents, .mark ',' ∉ e.tokens := by
    intro e _
    rw [Extent.tokens]
    split <;> simp
  simpa [tokens] using hextent

private theorem dropSuffix?_append (ts ending : List Token) :
    (ts ++ ending).dropSuffix? ending = some ts :=
  List.dropSuffix?_eq_some_iff.2 ⟨ending, rfl, by simp⟩

theorem Declaration.ofText?_text {d : Declaration} (h : d.IsReadable) :
    ofText? d.text = some d := by
  have hlist := list?_intercalate h.declared_ne_nil (fun v _ => v.comma_not_mem_tokens)
    fun v hv => Variable.ofTokens?_tokens (h.names v hv) (h.constants v hv)
  rw [ofText?, lex_text h, tokens, ofTokens?, BaseType.ofWord?_text, dropSuffix?_append]
  simp only [Option.bind_eq_bind, Option.bind_some, hlist]

/-! ## Input statements -/

def Index.subscript (index : Index) : List Char :=
  '[' :: (index.text.toList ++ [']'])

theorem Index.lex_append (index : Index) (s : List Char) :
    lex (index.subscript ++ s) = index.tokens ++ lex s := by
  have htext : index.subscript ++ s = '[' :: (index.text.toList ++ ']' :: s) := by
    simp [subscript]
  rw [htext, lex_mark (by decide), lex_word index.isWord_text (free_cons (by decide)),
    lex_mark (by decide)]
  rfl

private theorem lex_subscripted {name : String} (h : isIdentifier name = true)
    (indices : List Index) {s : List Char} (hs : Free s) :
    lex ((subscripted name indices).toList ++ s) =
      .word name :: (indices.flatMap Index.tokens ++ lex s) := by
  have htext : (subscripted name indices).toList ++ s =
      name.toList ++ (indices.flatMap Index.subscript ++ s) := by
    simp [subscripted, List.flatMap_map]
    rfl
  have hfree : Free (indices.flatMap Index.subscript ++ s) := by
    cases indices with
    | nil => exact hs
    | cons index indices => exact free_cons (by decide)
  rw [htext, lex_word (isWord_of_isIdentifier h) hfree,
    lex_flatMap fun index _ => index.lex_append]

theorem Target.lex_append {t : Target} (h : isIdentifier t.name = true) (s : List Char)
    (hs : Free s) : lex (t.text.toList ++ s) = t.tokens ++ lex s := by
  cases t with
  | element name indices =>
    have htext : (element name indices).text.toList ++ s =
        '&' :: ((subscripted name indices).toList ++ s) := by simp [text]
    change isIdentifier name = true at h
    rw [htext, lex_mark (by decide), lex_subscripted h indices hs]
    rfl
  | buffer name indices => exact lex_subscripted h indices hs
  | offset name index =>
    change isIdentifier name = true at h
    have htext : (offset name index).text.toList ++ s =
        name.toList ++ ' ' :: '+' :: ' ' :: (index.text.toList ++ s) := by simp [text]
    rw [htext, lex_word (isWord_of_isIdentifier h) (free_cons (by decide)), lex_space,
      lex_mark (by decide), lex_space, lex_word index.isWord_text hs]
    rfl

theorem Loop.lex_append {l : Loop} (h : IsWord l.bound.text) (s : List Char) :
    lex (l.text.toList ++ s) = l.tokens ++ lex s := by
  have htext : l.text.toList ++ s = "REP".toList ++ '(' :: (l.index.text.toList ++
      ',' :: ' ' :: (l.bound.text.toList ++ ')' :: ' ' :: s)) := by simp [text]
  rw [htext, lex_word ⟨by decide, by decide⟩ (free_cons (by decide)), lex_mark (by decide),
    lex_word l.index.isWord_text (free_cons (by decide)), lex_mark (by decide), lex_space,
    lex_word h (free_cons (by decide)), lex_mark (by decide), lex_space]
  rfl

private theorem quote_not_mem_format (reads : List (Conversion × Target)) :
    '"' ∉ (String.join (reads.map (·.1.text))).toList := by
  rw [String.toList_join, List.flatMap_map, List.mem_flatMap]
  rintro ⟨⟨conversion, target⟩, -, hc⟩
  cases conversion with
  | decimal => simp [Conversion.text] at hc
  | word => simp [Conversion.text] at hc

theorem ReadStatement.lex_text {r : ReadStatement} (h : r.IsReadable) :
    lex r.text.toList = r.tokens := by
  have hbounds : ∀ l ∈ r.loops, ∀ s, lex (l.text.toList ++ s) = l.tokens ++ lex s := by
    intro l hl
    refine Loop.lex_append ?_
    cases hbound : l.bound with
    | literal count => exact isWord_toString _
    | symbol name => exact isWord_of_isIdentifier (h.symbols l hl name hbound)
  have htargets : ∀ read ∈ r.reads, ∀ s, Free s →
      lex (read.2.text.toList ++ s) = read.2.tokens ++ lex s :=
    fun read hread => Target.lex_append (h.names read hread)
  have htext : r.text.toList = r.loops.flatMap (·.text.toList) ++ ("scanf".toList ++
      '(' :: '"' :: ((String.join (r.reads.map (·.1.text))).toList ++ '"' :: ',' :: ' ' ::
        ([',', ' '].intercalate (r.reads.map (·.2.text.toList)) ++ [')', ';']))) := by
    simp [text, List.flatMap_map, Function.comp_def]
  rw [htext, lex_flatMap hbounds, lex_word ⟨by decide, by decide⟩ (free_cons (by decide)),
    lex_mark (by decide), lex_quoted (quote_not_mem_format _), lex_mark (by decide), lex_space,
    lex_intercalate htargets (free_cons (by decide)), lex_mark (by decide), lex_mark (by decide),
    lex_nil, String.ofList_toList]
  rfl

theorem subscripts?_tokens (indices : List Index) :
    subscripts? (indices.flatMap Index.tokens) = some indices := by
  induction indices with
  | nil => rfl
  | cons index indices ih => simp [Index.tokens, subscripts?, Index.ofWord?_text, ih]

theorem Target.ofTokens?_tokens {t : Target} (h : isIdentifier t.name = true) :
    ofTokens? t.tokens = some t := by
  have hname := identifier?_eq_some h
  cases t with
  | element name indices =>
    simp only [Target.name] at hname
    simp [tokens, ofTokens?, hname, subscripts?_tokens]
  | buffer name indices =>
    simp only [Target.name] at hname
    have hsubscripts := subscripts?_tokens indices
    -- With one subscript or more, the tokens are not those of an offset.
    cases indices with
    | nil => simp [tokens, ofTokens?, hname, subscripts?]
    | cons index indices =>
      rw [List.flatMap_cons, Index.tokens, List.cons_append] at hsubscripts
      rw [tokens, List.flatMap_cons, Index.tokens, List.cons_append, ofTokens?, hname,
        hsubscripts]
      · rfl
      · simp
  | offset name index =>
    simp only [Target.name] at hname
    simp [tokens, ofTokens?, hname, Index.ofWord?_text]

private theorem Target.comma_not_mem_tokens (t : Target) : .mark ',' ∉ t.tokens := by
  have hindices (indices : List Index) : .mark ',' ∉ indices.flatMap Index.tokens := by
    simp [Index.tokens]
  cases t with
  | element name indices => simpa [tokens] using hindices indices
  | buffer name indices => simpa [tokens] using hindices indices
  | offset name index => simp [tokens]

private theorem conversions?_format (reads : List (Conversion × Target)) :
    conversions? (String.join (reads.map (·.1.text))).toList = some (reads.map (·.1)) := by
  rw [String.toList_join, List.flatMap_map]
  induction reads with
  | nil => rfl
  | cons read reads ih =>
    obtain ⟨conversion, target⟩ := read
    rw [List.flatMap_cons]
    cases conversion with
    | decimal =>
      have htext : Conversion.decimal.text.toList = ['%', 'd'] := by decide
      simp [htext, conversions?, ih]
    | word =>
      have htext : Conversion.word.text.toList = ['%', 's'] := by decide
      simp [htext, conversions?, ih]

namespace ReadStatement

private theorem ofTokens?_loop {l : Loop}
    (h : ∀ name, l.bound = .symbol name → isIdentifier name = true)
    {ts : List Token} {r : ReadStatement} (hr : ofTokens? ts = some r) :
    ofTokens? (l.tokens ++ ts) = some ⟨l :: r.loops, r.reads⟩ := by
  have hbound : operand? .literal .symbol l.bound.text = some l.bound := by
    cases hl : l.bound with
    | literal count => exact operand?_toString count
    | symbol name => exact operand?_identifier (h name hl)
  simp [Loop.tokens, ofTokens?, Index.ofWord?_text, hbound, hr]

private theorem ofTokens?_loops {loops : List Loop}
    (h : ∀ l ∈ loops, ∀ name, l.bound = .symbol name → isIdentifier name = true)
    {ts : List Token} {reads : List (Conversion × Target)} (hr : ofTokens? ts = some ⟨[], reads⟩) :
    ofTokens? (loops.flatMap Loop.tokens ++ ts) = some ⟨loops, reads⟩ := by
  induction loops with
  | nil => exact hr
  | cons l loops ih =>
    have hloops := ih fun l' hl' => h l' (List.mem_cons_of_mem _ hl')
    rw [List.flatMap_cons, List.append_assoc]
    exact ofTokens?_loop (h l List.mem_cons_self) hloops

private theorem ofTokens?_call {reads : List (Conversion × Target)} (hne : reads ≠ [])
    (h : ∀ read ∈ reads, isIdentifier read.2.name = true) :
    ofTokens? (.word "scanf" :: .mark '(' ::
      .quoted (String.join (reads.map (·.1.text))) :: .mark ',' ::
      ([Token.mark ','].intercalate (reads.map (·.2.tokens)) ++ [.mark ')', .mark ';'])) =
        some ⟨[], reads⟩ := by
  have htargets : list? Target.ofTokens? ([.mark ','].intercalate
      ((reads.map (·.2)).map Target.tokens)) = some (reads.map (·.2)) := by
    refine list?_intercalate (by simpa using hne) (fun t _ => t.comma_not_mem_tokens) ?_
    intro t ht
    obtain ⟨read, hread, rfl⟩ := List.mem_map.1 ht
    exact Target.ofTokens?_tokens (h read hread)
  have hzip : (reads.map (·.1)).zip (reads.map (·.2)) = reads :=
    (List.zip_of_prod rfl rfl).symm
  rw [List.map_map, Function.comp_def] at htargets
  rw [ofTokens?, conversions?_format, dropSuffix?_append]
  simp [htargets, hzip]

theorem ofText?_text {r : ReadStatement} (h : r.IsReadable) : ofText? r.text = some r := by
  rw [ofText?, lex_text h, tokens]
  exact ofTokens?_loops h.symbols (ofTokens?_call h.reads_ne_nil h.names)

end ReadStatement

end ContestInput.Program

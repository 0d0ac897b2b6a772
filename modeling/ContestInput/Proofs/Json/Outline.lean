import ContestInput.Proofs.Json.Document
/-!
# Outlines of well-formed texts

Reading the tokens of a document in the place of a value puts its outline into that place. The
other way round, every reading that has not stopped holds the outlines of whole documents, and the
tokens read so far are theirs with the brackets of what is still open; so a root that is complete
is the outline of a document.
-/

namespace ContestInput.Json

open Document

namespace Reading

variable {frames : List Frame} {rev : List Tree} {revMembers : List (Option String × Tree)}
variable {t : Token} {ts pre : List Token} {r : Reading}

/-! ## From documents to outlines -/

private theorem step_firstItem (h : t ≠ .closeArray) :
    step (.firstItem frames) t = step (.value (.items [] :: frames)) t := by
  cases t with
  | closeArray => exact absurd rfl h
  | _ => rfl

private theorem step_firstKey (h : t ≠ .closeObject) :
    step (.firstKey frames) t = step (.nextKey [] frames) t := by
  cases t with
  | closeObject => exact absurd rfl h
  | _ => rfl

private theorem foldl_firstItem (d : Document) (ts : List Token) :
    (d.tokens ++ ts).foldl step (.firstItem frames) =
      (d.tokens ++ ts).foldl step (.value (.items [] :: frames)) := by
  obtain ⟨t, ts', heq, ht⟩ := d.exists_cons_tokens ts
  rw [heq, List.foldl_cons, List.foldl_cons, step_firstItem ht]

mutual

/-- The tokens of a document put its outline in the place of a value. -/
theorem foldl_tokens : (d : Document) → (frames : List Frame) → (ts : List Token) →
    (d.tokens ++ ts).foldl step (.value frames) = ts.foldl step (place d.tree frames)
  | .null, _, _ => rfl
  | .bool _, _, _ => rfl
  | .number _, _, _ => rfl
  | .string _, _, _ => rfl
  | .array [], _, _ => rfl
  | .array (d :: ds), frames, ts => by
    have hrest := foldl_moreItems ds [d.tree] frames ts
    rw [tokens, List.cons_append, List.append_assoc, List.foldl_cons]
    change (d.tokens ++ (moreItems ds ++ ts)).foldl step (.firstItem frames) = _
    rw [foldl_firstItem, foldl_tokens d]
    exact hrest
  | .object [], _, _ => rfl
  | .object ((key, d) :: ms), frames, ts => by
    have hrest := foldl_moreMembers ms [(key, d.tree)] frames ts
    rw [tokens, List.cons_append, List.cons_append, List.cons_append, List.append_assoc,
      List.foldl_cons, List.foldl_cons, List.foldl_cons]
    change (d.tokens ++ (moreMembers ms ++ ts)).foldl step (.value (.member [] key :: frames)) = _
    rw [foldl_tokens d]
    exact hrest

theorem foldl_moreItems : (ds : List Document) → (rev : List Tree) → (frames : List Frame) →
    (ts : List Token) → (moreItems ds ++ ts).foldl step (.nextItem rev frames) =
      ts.foldl step (place (.array (rev.reverse ++ trees ds) true) frames)
  | [], rev, frames, ts => by
    rw [trees, List.append_nil]
    rfl
  | d :: ds, rev, frames, ts => by
    have hrest := foldl_moreItems ds (d.tree :: rev) frames ts
    rw [moreItems, List.cons_append, List.append_assoc, List.foldl_cons]
    change (d.tokens ++ (moreItems ds ++ ts)).foldl step (.value (.items rev :: frames)) = _
    rw [foldl_tokens d, trees]
    rw [List.reverse_cons, List.append_assoc] at hrest
    exact hrest

theorem foldl_moreMembers : (ms : List (Option String × Document)) →
    (rev : List (Option String × Tree)) → (frames : List Frame) → (ts : List Token) →
    (moreMembers ms ++ ts).foldl step (.nextMember rev frames) =
      ts.foldl step (place (.object (rev.reverse ++ memberTrees ms) true) frames)
  | [], rev, frames, ts => by
    rw [memberTrees, List.append_nil]
    rfl
  | (key, d) :: ms, rev, frames, ts => by
    have hrest := foldl_moreMembers ms ((key, d.tree) :: rev) frames ts
    rw [moreMembers, List.cons_append, List.cons_append, List.cons_append, List.append_assoc,
      List.foldl_cons, List.foldl_cons, List.foldl_cons]
    change (d.tokens ++ (moreMembers ms ++ ts)).foldl step (.value (.member rev key :: frames)) = _
    rw [foldl_tokens d, memberTrees]
    rw [List.reverse_cons, List.append_assoc] at hrest
    exact hrest

end

/-! ## From outlines to documents -/

def heldItems (ds : List Document) : List Token :=
  ds.flatMap fun d => d.tokens ++ [.comma]

def memberTokens (m : Option String × Document) : List Token :=
  .string m.1 :: .colon :: m.2.tokens

def heldMembers (ms : List (Option String × Document)) : List Token :=
  ms.flatMap fun m => memberTokens m ++ [.comma]

def memberTree (m : Option String × Document) : Option String × Tree :=
  (m.1, m.2.tree)

/-- The open containers hold whole documents, and the tokens opened and filled them. -/
inductive Opened : List Frame → List Token → Prop where
  | nil : Opened [] []
  | items {frames : List Frame} {pre : List Token} (ds : List Document) : Opened frames pre →
      Opened (.items (ds.map tree).reverse :: frames) (pre ++ .openArray :: heldItems ds)
  | member {frames : List Frame} {pre : List Token} (ms : List (Option String × Document))
      (key : Option String) : Opened frames pre →
      Opened (.member (ms.map memberTree).reverse key :: frames)
        (pre ++ .openObject :: (heldMembers ms ++ [.string key, .colon]))

/-- The reading holds what the tokens before it told, or it cannot become complete any more. -/
inductive Follows : Reading → List Token → Prop where
  | value {frames : List Frame} {pre : List Token} : Opened frames pre →
      Follows (.value frames) pre
  | firstItem {frames : List Frame} {pre : List Token} : Opened frames pre →
      Follows (.firstItem frames) (pre ++ [.openArray])
  | firstKey {frames : List Frame} {pre : List Token} : Opened frames pre →
      Follows (.firstKey frames) (pre ++ [.openObject])
  | nextKey {frames : List Frame} {pre : List Token} (ms : List (Option String × Document)) :
      Opened frames pre →
      Follows (.nextKey (ms.map memberTree).reverse frames) (pre ++ .openObject :: heldMembers ms)
  | colon {frames : List Frame} {pre : List Token} (ms : List (Option String × Document))
      (key : Option String) : Opened frames pre →
      Follows (.colon (ms.map memberTree).reverse key frames)
        (pre ++ .openObject :: (heldMembers ms ++ [.string key]))
  | nextItem {frames : List Frame} {pre : List Token} (ds : List Document) (d : Document) :
      Opened frames pre → Follows (.nextItem (d.tree :: (ds.map tree).reverse) frames)
        (pre ++ .openArray :: (heldItems ds ++ d.tokens))
  | nextMember {frames : List Frame} {pre : List Token} (ms : List (Option String × Document))
      (m : Option String × Document) : Opened frames pre →
      Follows (.nextMember (memberTree m :: (ms.map memberTree).reverse) frames)
        (pre ++ .openObject :: (heldMembers ms ++ memberTokens m))
  | done (d : Document) : Follows (.done d.tree false) d.tokens
  | trailing (root : Tree) (pre : List Token) : Follows (.done root true) pre
  | stopped {root : Tree} (pre : List Token) : root.isComplete = false →
      Follows (.stopped root) pre

private theorem heldItems_cons (d : Document) (ds : List Document) :
    heldItems (d :: ds) = d.tokens ++ .comma :: heldItems ds := by
  rw [heldItems, List.flatMap_cons, List.append_assoc, List.singleton_append, ← heldItems]

private theorem heldMembers_cons (m : Option String × Document)
    (ms : List (Option String × Document)) :
    heldMembers (m :: ms) = memberTokens m ++ .comma :: heldMembers ms := by
  rw [heldMembers, List.flatMap_cons, List.append_assoc, List.singleton_append, ← heldMembers]

theorem heldItems_append (ds es : List Document) :
    heldItems (ds ++ es) = heldItems ds ++ heldItems es :=
  List.flatMap_append

theorem heldMembers_append (ms ns : List (Option String × Document)) :
    heldMembers (ms ++ ns) = heldMembers ms ++ heldMembers ns :=
  List.flatMap_append

private theorem moreItems_concat (ds : List Document) (d : Document) :
    moreItems (ds ++ [d]) = .comma :: (heldItems ds ++ (d.tokens ++ [.closeArray])) := by
  induction ds with
  | nil => rfl
  | cons e ds ih =>
    rw [List.cons_append, moreItems, ih, heldItems_cons, List.append_assoc, List.cons_append]

theorem tokens_array_concat (ds : List Document) (d : Document) :
    (array (ds ++ [d])).tokens = .openArray :: (heldItems ds ++ (d.tokens ++ [.closeArray])) := by
  cases ds with
  | nil => rfl
  | cons e ds =>
    rw [List.cons_append, tokens, moreItems_concat, heldItems_cons, List.append_assoc,
      List.cons_append]

private theorem moreMembers_concat (ms : List (Option String × Document))
    (m : Option String × Document) :
    moreMembers (ms ++ [m]) = .comma :: (heldMembers ms ++ (memberTokens m ++ [.closeObject])) := by
  induction ms with
  | nil => rfl
  | cons e ms ih =>
    rw [List.cons_append, moreMembers, ih, heldMembers_cons, List.append_assoc]
    rfl

theorem tokens_object_concat (ms : List (Option String × Document))
    (m : Option String × Document) : (object (ms ++ [m])).tokens =
      .openObject :: (heldMembers ms ++ (memberTokens m ++ [.closeObject])) := by
  cases ms with
  | nil => rfl
  | cons e ms =>
    rw [List.cons_append, tokens, moreMembers_concat, heldMembers_cons, List.append_assoc]
    rfl

theorem isComplete_cut {root : Tree} (h : root.isComplete = false) :
    (cut root frames).isComplete = false := by
  induction frames generalizing root with
  | nil => exact h
  | cons frame frames ih =>
    cases frame with
    | items rev => exact ih rfl
    | member rev key => exact ih rfl

private theorem follows_place (d : Document) (h : Opened frames pre) :
    Follows (place d.tree frames) (pre ++ d.tokens) := by
  cases h with
  | nil => exact .done d
  | items ds h =>
    rw [List.append_assoc, List.cons_append]
    exact .nextItem ds d h
  | member ms key h =>
    rw [List.append_assoc, List.cons_append, List.append_assoc]
    exact .nextMember ms (key, d) h

private theorem follows_startValue (h : Opened frames pre) (t : Token) :
    Follows (startValue frames t) (pre ++ [t]) := by
  cases t with
  | null => exact follows_place .null h
  | bool b => exact follows_place (.bool b) h
  | number n => exact follows_place (.number n) h
  | string s => exact follows_place (.string s) h
  | openArray => exact .firstItem h
  | openObject => exact .firstKey h
  | _ => exact .stopped _ (isComplete_cut rfl)

private theorem follows_startKey (ms : List (Option String × Document)) (h : Opened frames pre)
    (t : Token) : Follows (startKey (ms.map memberTree).reverse frames t)
      (pre ++ .openObject :: heldMembers ms ++ [t]) := by
  cases t with
  | string s =>
    rw [List.append_assoc, List.cons_append]
    exact .colon ms s h
  | _ => exact .stopped _ (isComplete_cut rfl)

/-- One more token keeps a reading true to the tokens. -/
theorem follows_step (h : Follows r pre) (t : Token) : Follows (r.step t) (pre ++ [t]) := by
  cases h with
  | value h => exact follows_startValue h t
  | firstItem h =>
    by_cases ht : t = .closeArray
    · rw [ht, List.append_assoc]
      exact follows_place (.array []) h
    · rw [step_firstItem ht]
      exact follows_startValue (.items [] h) t
  | firstKey h =>
    by_cases ht : t = .closeObject
    · rw [ht, List.append_assoc]
      exact follows_place (.object []) h
    · rw [step_firstKey ht]
      exact follows_startKey [] h t
  | nextKey ms h => exact follows_startKey ms h t
  | colon ms key h =>
    cases t with
    | colon =>
      have hvalue := Follows.value (.member ms key h)
      rw [List.append_assoc, List.cons_append, List.append_assoc]
      exact hvalue
    | _ => exact .stopped _ (isComplete_cut rfl)
  | @nextItem frames pre ds d h =>
    cases t with
    | comma =>
      have hvalue := Follows.value (.items (ds ++ [d]) h)
      rw [List.map_append, List.reverse_append, heldItems_append, heldItems_cons] at hvalue
      rw [List.append_assoc, List.cons_append, List.append_assoc]
      exact hvalue
    | closeArray =>
      have hplace := follows_place (.array (ds ++ [d])) h
      rw [tree_array, List.map_append, tokens_array_concat] at hplace
      change Follows (place (.array (d.tree :: (ds.map tree).reverse).reverse true) frames) _
      rw [List.reverse_cons, List.reverse_reverse, List.append_assoc, List.cons_append,
        List.append_assoc]
      exact hplace
    | _ => exact .stopped _ (isComplete_cut rfl)
  | @nextMember frames pre ms m h =>
    cases t with
    | comma =>
      have hkey := Follows.nextKey (ms ++ [m]) h
      rw [List.map_append, List.reverse_append, heldMembers_append, heldMembers_cons] at hkey
      rw [List.append_assoc, List.cons_append, List.append_assoc]
      exact hkey
    | closeObject =>
      have hplace := follows_place (.object (ms ++ [m])) h
      rw [tree_object, List.map_append, tokens_object_concat] at hplace
      change Follows
        (place (.object (memberTree m :: (ms.map memberTree).reverse).reverse true) frames) _
      rw [List.reverse_cons, List.reverse_reverse, List.append_assoc, List.cons_append,
        List.append_assoc]
      exact hplace
    | _ => exact .stopped _ (isComplete_cut rfl)
  | done d => exact .trailing _ _
  | trailing root pre => exact .trailing _ _
  | stopped pre h => exact .stopped _ h

theorem follows_foldl (h : Follows r pre) (ts : List Token) :
    Follows (ts.foldl step r) (pre ++ ts) := by
  induction ts generalizing r pre with
  | nil =>
    rw [List.append_nil]
    exact h
  | cons t ts ih =>
    have hstep := ih (follows_step h t)
    rw [List.append_assoc, List.singleton_append] at hstep
    exact hstep

/-- A reading that ends with a complete root, and nothing behind it, has read a document. -/
theorem exists_tokens_of_isComplete (h : Follows r ts) (hroot : r.finish.root.isComplete = true)
    (htrailing : r.finish.trailing = false) :
    ∃ d : Document, ts = d.tokens ∧ r.finish.root = d.tree := by
  have hcut {frames : List Frame} {t : Tree} (ht : t.isComplete = false) :
      ¬ (cut t frames).isComplete = true := by
    rw [isComplete_cut ht]
    exact Bool.false_ne_true
  cases h with
  | done d => exact ⟨d, rfl, rfl⟩
  | trailing root pre => exact absurd htrailing (by simp [finish])
  | stopped pre h => exact absurd (h.symm.trans hroot) (by simp)
  | _ => exact absurd hroot (hcut rfl)

end Reading

namespace Outline

variable {s : String}

theorem ofText_of_spells {d : Document} (h : Spells s.toList d.tokens) :
    ofText s = ⟨d.tree, false⟩ := by
  have hrun := Reading.foldl_tokens d [] []
  rw [List.append_nil] at hrun
  rw [ofText, spells_tokens_iff.1 h, hrun]
  rfl

theorem exists_spells_of_isComplete (hroot : (ofText s).root.isComplete = true)
    (htrailing : (ofText s).trailing = false) :
    ∃ d : Document, Spells s.toList d.tokens ∧ (ofText s).root = d.tree := by
  have hrun := Reading.follows_foldl (.value .nil) (Token.lex s.toList)
  obtain ⟨d, htokens, htree⟩ := Reading.exists_tokens_of_isComplete hrun hroot htrailing
  exact ⟨d, spells_tokens_iff.2 htokens, htree⟩

end Outline

end ContestInput.Json

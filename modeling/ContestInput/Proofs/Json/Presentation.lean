import ContestInput.Json.Reader
import ContestInput.Proofs.Fallible
import ContestInput.Proofs.Json.Outline
/-!
# What documents present

Which values a document presents, told without any order of reading: strings, words, lists, named
choices and records. A reader that accepts exactly the outlines of the documents that present a
value reads from a text exactly what the document spelled by the text presents.
-/

namespace ContestInput.Json

inductive IsString : Document → String → Prop where
  | intro (s : String) : IsString (.string (some s)) s

inductive IsWord : Document → UInt64 → Prop where
  | intro (w : UInt64) : IsWord (.number (.natural w)) w

inductive IsList {α : Type} (item : Document → α → Prop) : Document → List α → Prop where
  | intro {ds : List Document} {xs : List α} : List.Forall₂ item ds xs → IsList item (.array ds) xs

/-- The name of a choice, alone or as the only key of an object that holds null. -/
inductive IsChoice {α : Type} (choices : List (String × α)) : Document → α → Prop where
  | string {name : String} {a : α} : (name, a) ∈ choices →
      IsChoice choices (.string (some name)) a
  | object {name : String} {a : α} : (name, a) ∈ choices →
      IsChoice choices (.object [(some name, .null)]) a

/-- A part of the records of one type: what presents its value, and the value that it has where
nothing does, unless the part is required. -/
structure Component (α : Type) where
  Value : Type
  name : String
  value : α → Value
  presents : Document → Value → Prop
  default : Option Value

def knownKeys {α : Type} (parts : List (Component α)) (ms : List (Option String × Document)) :
    List String :=
  (ms.filterMap (·.1)).filter (· ∈ parts.map (·.name))

/-- The document presents the record `a`: as an object with its parts in any order, none of them
twice, and with any other members; or as a list of its parts in their order. In both forms parts
that have a default may be missing, in a list only the last ones. -/
inductive IsRecord {α : Type} (parts : List (Component α)) : Document → α → Prop where
  | object {ms : List (Option String × Document)} {a : α} :
      (∀ m ∈ ms, m.1.isSome) → (knownKeys parts ms).Nodup →
      (∀ part ∈ parts, ∀ d, (some part.name, d) ∈ ms → part.presents d (part.value a)) →
      (∀ part ∈ parts, (∀ d, (some part.name, d) ∉ ms) → part.default = some (part.value a)) →
      IsRecord parts (.object ms) a
  | array {given absent : List (Component α)} {ds : List Document} {a : α} :
      parts = given ++ absent →
      List.Forall₂ (fun part d => part.presents d (part.value a)) given ds →
      (∀ part ∈ absent, part.default = some (part.value a)) →
      IsRecord parts (.array ds) a

theorem IsList.exists_item {α : Type} {item : Document → α → Prop} {d : Document} {xs : List α}
    (h : IsList item d xs) : ∀ x ∈ xs, ∃ d', item d' x := by
  obtain ⟨hitems⟩ := h
  induction hitems with
  | nil => simp
  | @cons d' x _ _ hx _ ih =>
    intro y hy
    rcases List.mem_cons.1 hy with rfl | hy
    · exact ⟨d', hx⟩
    · exact ih y hy

theorem IsRecord.presents_or_default {α : Type} {parts : List (Component α)} {d : Document} {a : α}
    (h : IsRecord parts d a) {part : Component α} (hpart : part ∈ parts) :
    (∃ d', part.presents d' (part.value a)) ∨ part.default = some (part.value a) := by
  cases h with
  | @object ms _ _ _ hpresents habsent =>
    by_cases hmember : ∃ d', (some part.name, d') ∈ ms
    · obtain ⟨d', hd'⟩ := hmember
      exact .inl ⟨d', hpresents part hpart d' hd'⟩
    · exact .inr (habsent part hpart fun d' hd' => hmember ⟨d', hd'⟩)
  | array hparts hpresents habsent =>
    rw [hparts, List.mem_append] at hpart
    rcases hpart with hgiven | hmissing
    · left
      clear hparts
      induction hpresents with
      | nil => simp at hgiven
      | @cons p d' _ _ hp _ ih =>
        rcases List.mem_cons.1 hgiven with rfl | hgiven
        · exact ⟨d', hp⟩
        · exact ih hgiven
    · exact .inr (habsent part hmissing)

namespace Reader

variable {α : Type} {reader : Reader α} {presents : Document → α → Prop} {d : Document}

/-- The reader accepts the outlines of the documents that present a value, and no other ones. -/
def Reads (reader : Reader α) (presents : Document → α → Prop) : Prop :=
  ∀ d a, reader d.tree = .ok a ↔ presents d a

theorem reads_string : Reads string IsString := by
  intro d s
  constructor
  · intro h
    cases d with
    | string s' =>
      cases s' with
      | none => exact absurd h (by simp [string, Document.tree])
      | some s' =>
        obtain rfl := Except.ok.inj h
        exact .intro s'
    | _ => exact absurd h (by simp [string, Document.tree])
  · rintro ⟨s⟩
    rfl

theorem reads_word : Reads word IsWord := by
  intro d w
  constructor
  · intro h
    cases d with
    | number n =>
      cases n with
      | natural w' =>
        obtain rfl := Except.ok.inj h
        exact .intro w'
      | _ => exact absurd h (by simp [word, Document.tree])
    | _ => exact absurd h (by simp [word, Document.tree])
  · rintro ⟨w⟩
    rfl

theorem reads_list (h : Reads reader presents) : Reads (list reader) (IsList presents) := by
  intro d xs
  cases d with
  | array ds =>
    rw [Document.tree_array, list, Fallible.bind_eq_ok_iff]
    simp only [if_true, Except.ok.injEq, exists_eq_right, Fallible.mapM_eq_ok_iff,
      List.forall₂_map_left_iff]
    constructor
    · intro hitems
      exact .intro (hitems.imp fun d x hx => (h d x).1 hx)
    · rintro ⟨hitems⟩
      exact hitems.imp fun d x hx => (h d x).2 hx
  | _ =>
    constructor
    · intro h
      exact absurd h (by simp [list, Document.tree])
    · rintro ⟨⟩

private theorem lookup_eq_some_iff {choices : List (String × α)}
    (hnames : (choices.map (·.1)).Nodup) {name : String} {a : α} :
    choices.lookup name = some a ↔ (name, a) ∈ choices := by
  rw [List.lookup_eq_some_iff]
  constructor
  · rintro ⟨before, after, rfl, -⟩
    simp
  · intro hmem
    obtain ⟨before, after, rfl⟩ := List.append_of_mem hmem
    refine ⟨before, after, rfl, fun choice hchoice => ?_⟩
    rw [List.map_append, List.nodup_append] at hnames
    have hne := hnames.2.2 choice.1 (List.mem_map_of_mem hchoice) name (by simp)
    simpa [bne_iff_ne] using hne.symm

theorem choose_eq_ok_iff {choices : List (String × α)} (hnames : (choices.map (·.1)).Nodup)
    {name : String} {a : α} : choose choices name = .ok a ↔ (name, a) ∈ choices := by
  rw [← lookup_eq_some_iff hnames, choose]
  split
  · rename_i hlookup
    rw [hlookup, Except.ok.injEq, Option.some.injEq]
  · rename_i hlookup
    rw [hlookup]
    simp

private theorem unit_eq_ok_iff : unit d.tree = .ok () ↔ d = .null := by
  cases d <;> simp [unit, Document.tree]

/-- A reader that knows the spellings, in whatever order, and no other ones. -/
theorem reads_tag {choices spellings : List (String × α)} (hnames : (choices.map (·.1)).Nodup)
    (hspellings : choices.Perm spellings) : Reads (tag choices) (IsChoice spellings) := by
  have hchoose {name : String} {a : α} : choose choices name = .ok a ↔ (name, a) ∈ spellings :=
    (choose_eq_ok_iff hnames).trans hspellings.mem_iff
  intro d a
  constructor
  · intro h
    match d with
    | .string (some name) => exact .string (hchoose.1 h)
    | .object ((some name, value) :: ms) =>
      rw [Document.tree_object, List.map_cons, tag] at h
      obtain ⟨a', hname, h⟩ := Fallible.bind_eq_ok_iff.1 h
      obtain ⟨_, hvalue, hend⟩ := Fallible.bind_eq_ok_iff.1 h
      obtain rfl := unit_eq_ok_iff.1 hvalue
      cases ms with
      | nil =>
        obtain rfl := Except.ok.inj hend
        exact .object (hchoose.1 hname)
      | cons m ms => exact absurd hend (by simp)
    | .object ((none, value) :: ms) => exact absurd h (by simp [tag])
    | .object [] => exact absurd h (by simp [tag])
    | .string none => exact absurd h (by simp [tag, Document.tree])
    | .null => exact absurd h (by simp [tag, Document.tree])
    | .bool b => exact absurd h (by simp [tag, Document.tree])
    | .number n => exact absurd h (by simp [tag, Document.tree])
    | .array ds => exact absurd h (by simp [tag])
  · intro h
    cases h with
    | string hname => exact hchoose.2 hname
    | object hname =>
      rw [Document.tree_object, List.map_singleton, tag, hchoose.2 hname]
      rfl

theorem text_of_spells (reader : Reader α) {s : String} (h : Spells s.toList d.tokens) :
    reader.text s = reader d.tree := by
  rw [text, Outline.ofText_of_spells h]
  cases reader d.tree with
  | error misfit => rfl
  | ok a => rfl

theorem text_eq_ok_iff (hreads : Reads reader presents)
    (hcomplete : ∀ t a, reader t = .ok a → t.isComplete = true) {s : String} {a : α} :
    reader.text s = .ok a ↔ ∃ d : Document, Spells s.toList d.tokens ∧ presents d a := by
  constructor
  · intro h
    rw [text, Fallible.bind_eq_ok_iff] at h
    obtain ⟨a', hroot, h⟩ := h
    split at h
    · exact absurd h (by simp)
    · rename_i htrailing
      obtain rfl := Except.ok.inj h
      obtain ⟨d, hspells, htree⟩ :=
        Outline.exists_spells_of_isComplete (hcomplete _ _ hroot) (by simpa using htrailing)
      rw [htree] at hroot
      exact ⟨d, hspells, (hreads d a').1 hroot⟩
  · rintro ⟨d, hspells, hd⟩
    rw [text_of_spells reader hspells]
    exact (hreads d a).2 hd

end Reader

end ContestInput.Json

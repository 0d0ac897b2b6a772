import ContestInput.Proofs.Json.Presentation
import Mathlib.Data.List.Nodup
/-!
# Reading records

A record type whose fields store what they read in one part each, and leave the other parts as
they are, is read exactly where a document presents a record. Both written forms come down to a
list of parts with a document for each, whose values are assigned one after the other.
-/

namespace ContestInput.Json

variable {α : Type} {parts ps : List (Component α)} {part : Component α} {field : Field α}
variable {fields : List (Field α)} {d : Document} {ds : List Document}
variable {ms : List (Option String × Document)} {a a' : α}

inductive Field.Stores (parts : List (Component α)) : Field α → Component α → Prop where
  | of {β : Type} {name : String} {value : α → β} {presents : Document → β → Prop}
      {default : Option β} {required : Bool} {reader : Reader β} {put : β → α → α} :
      required = default.isNone → Reader.Reads reader presents → (∀ x a, value (put x a) = x) →
      (∀ part ∈ parts, part.name ≠ name → ∀ x a, part.value (put x a) = part.value a) →
      Stores parts (Field.of name required reader put) ⟨β, name, value, presents, default⟩

structure Record.MadeOf (r : Record α) (parts : List (Component α)) : Prop where
  fields : List.Forall₂ (Field.Stores parts) r.fields parts
  names : (parts.map (·.name)).Nodup
  blank : ∀ part ∈ parts, ∀ v, part.default = some v → part.value r.blank = v
  ext : ∀ a a' : α, (∀ part ∈ parts, part.value a = part.value a') → a = a'

/-- From `a` to `a'`, the listed parts have got the values that their documents present, and the
other ones have kept theirs. -/
def Assigned (parts : List (Component α)) (l : List (Component α × Document)) (a a' : α) : Prop :=
  (∀ x ∈ l, x.1.presents x.2 (x.1.value a')) ∧
    ∀ part ∈ parts, part.name ∉ l.map (·.1.name) → part.value a' = part.value a

def held (parts : List (Component α)) (ms : List (Option String × Document)) :
    List (Component α × Document) :=
  ms.filterMap fun m => m.1.bind fun key =>
    (parts.find? (·.name = key)).map fun part => (part, m.2)

theorem Field.Stores.name_eq (h : field.Stores parts part) : field.name = part.name := by
  cases h
  rfl

theorem Field.Stores.required_eq (h : field.Stores parts part) :
    field.required = part.default.isNone := by
  cases h
  assumption

theorem find?_key_eq_some_iff {β : Type*} {key : β → String} {l : List β}
    (hkeys : (l.map key).Nodup) {name : String} {x : β} :
    l.find? (fun y => key y = name) = some x ↔ x ∈ l ∧ key x = name := by
  constructor
  · intro hfind
    exact ⟨List.mem_of_find?_eq_some hfind, by simpa using List.find?_some hfind⟩
  · rintro ⟨hx, hname⟩
    cases hfind : l.find? (fun y => key y = name) with
    | none =>
      have hnone := List.find?_eq_none.1 hfind x hx
      exact absurd (by simpa using hname) hnone
    | some y =>
      have hy : key y = name := by simpa using List.find?_some hfind
      rw [List.inj_on_of_nodup_map hkeys (List.mem_of_find?_eq_some hfind) hx
        (hy.trans hname.symm)]

private theorem map_key_zip {β γ : Type*} (key : β → String) {l : List β} {l' : List γ}
    (hlength : l.length ≤ l'.length) : ((l.zip l').map fun x => key x.1) = l.map key := by
  conv_rhs => rw [← List.map_fst_zip hlength, List.map_map]
  rfl

theorem IsRecord.of_forall₂ (hnames : (parts.map (·.name)).Nodup)
    (hpresents : List.Forall₂ (fun part d => part.presents d (part.value a)) parts ds) :
    IsRecord parts (.object ((parts.zip ds).map fun x => (some x.1.name, x.2))) a := by
  obtain ⟨hlength, hzip⟩ := List.forall₂_iff_zip.1 hpresents
  have hkeys : (((parts.zip ds).map fun x => (some x.1.name, x.2)).filterMap (·.1)) =
      parts.map (·.name) := by
    rw [List.filterMap_map, ← map_key_zip Component.name hlength.le, ← List.filterMap_eq_map]
    rfl
  have hmem {part : Component α} {d : Document} (hpart : part ∈ parts)
      (hd : (some part.name, d) ∈ (parts.zip ds).map fun x => (some x.1.name, x.2)) :
      (part, d) ∈ parts.zip ds := by
    obtain ⟨⟨part', d'⟩, hx, heq⟩ := List.mem_map.1 hd
    obtain ⟨hname, rfl⟩ := Prod.mk.inj heq
    rwa [← List.inj_on_of_nodup_map hnames (List.of_mem_zip hx).1 hpart (Option.some.inj hname)]
  refine .object ?_ ?_ (fun part hpart d hd => hzip (hmem hpart hd)) fun part hpart habsent => ?_
  · intro m hm
    obtain ⟨x, -, rfl⟩ := List.mem_map.1 hm
    rfl
  · rw [knownKeys, hkeys]
    exact hnames.filter _
  · have hfst : part ∈ (parts.zip ds).map Prod.fst := by
      rwa [List.map_fst_zip hlength.le]
    obtain ⟨x, hx, rfl⟩ := List.mem_map.1 hfst
    exact absurd (List.mem_map_of_mem hx) (habsent x.2)

namespace Record

variable {r : Record α}

theorem MadeOf.assigned_nil (h : r.MadeOf parts) : Assigned parts [] a a' ↔ a' = a := by
  constructor
  · intro hassigned
    exact h.ext _ _ fun part hpart => hassigned.2 part hpart (by simp)
  · rintro rfl
    exact ⟨by simp, fun _ _ _ => rfl⟩

theorem MadeOf.assigned_cons (h : r.MadeOf parts) (hfield : field.Stores parts part)
    (hpart : part ∈ parts) {l : List (Component α × Document)}
    (hnew : part.name ∉ l.map (·.1.name)) :
    Assigned parts ((part, d) :: l) a a' ↔
      ∃ a₁, field.read d.tree a = .ok a₁ ∧ Assigned parts l a₁ a' := by
  cases hfield with
  | @of β name value presents default required reader put _ hread hvalue hother =>
    constructor
    · rintro ⟨hpresents, hkept⟩
      have hd := hpresents _ List.mem_cons_self
      refine ⟨put (value a') a, Fallible.bind_eq_ok_iff.2 ⟨_, (hread d _).2 hd, rfl⟩,
        fun x hx => hpresents x (List.mem_cons_of_mem _ hx), ?_⟩
      · intro p hp hmem
        by_cases hname : p.name = name
        · obtain rfl := List.inj_on_of_nodup_map h.names hp hpart hname
          exact (hvalue _ _).symm
        · rw [hother p hp hname]
          refine hkept p hp ?_
          simpa using ⟨hname, by simpa using hmem⟩
    · rintro ⟨a₁, hfield, hpresents, hkept⟩
      obtain ⟨x, hx, hput⟩ := Fallible.bind_eq_ok_iff.1 hfield
      obtain rfl := Fallible.pure_eq_ok_iff.1 hput
      have hvalue' := hkept _ hpart hnew
      refine ⟨?_, ?_⟩
      · intro y hy
        rcases List.mem_cons.1 hy with rfl | hy
        · have hd := (hread d x).1 hx
          rw [← hvalue x a] at hd
          exact hvalue' ▸ hd
        · exact hpresents y hy
      · intro p hp hmem
        rw [List.map_cons, List.mem_cons, not_or] at hmem
        rw [hkept p hp hmem.2, hother p hp hmem.1]

/-! ## Lists of fields -/

private theorem any_required_iff (h : List.Forall₂ (Field.Stores parts) fields ps) :
    fields.any (·.required) = true ↔ ∃ part ∈ ps, part.default = none := by
  induction h with
  | nil => simp
  | cons hfield _ ih =>
    rw [List.any_cons, Bool.or_eq_true, ih, hfield.required_eq, Option.isNone_iff_eq_none]
    simp

theorem readItems_nil_eq_ok_iff {count : Nat} :
    r.readItems true count fields [] a = .ok a' ↔ fields.any (·.required) = false ∧ a' = a := by
  rw [readItems]
  by_cases hrequired : fields.any (·.required) = true
  · simp [hrequired]
  · simp [hrequired, eq_comm]

/-- A list of items is read if they are assigned to the fields in front and the fields behind
these may be absent. -/
theorem MadeOf.readItems_eq_ok_iff (h : r.MadeOf parts) {count : Nat}
    (hfields : List.Forall₂ (Field.Stores parts) fields ps) (hparts : ∀ p ∈ ps, p ∈ parts)
    (hnames : (ps.map (·.name)).Nodup) :
    r.readItems true count fields (ds.map Document.tree) a = .ok a' ↔
      ∃ given absent, ps = given ++ absent ∧ given.length = ds.length ∧
        (∀ p ∈ absent, p.default ≠ none) ∧ Assigned parts (given.zip ds) a a' := by
  induction ds generalizing fields ps count a with
  | nil =>
    rw [List.map_nil, readItems_nil_eq_ok_iff, ← Bool.not_eq_true, any_required_iff hfields]
    constructor
    · rintro ⟨hrequired, rfl⟩
      exact ⟨[], ps, rfl, rfl, fun p hp hnone => hrequired ⟨p, hp, hnone⟩,
        h.assigned_nil.2 rfl⟩
    · rintro ⟨given, absent, rfl, hlength, habsent, hassigned⟩
      obtain rfl := List.length_eq_zero_iff.1 hlength
      exact ⟨fun ⟨p, hp, hnone⟩ => habsent p hp hnone, h.assigned_nil.1 hassigned⟩
  | cons d ds ih =>
    cases hfields with
    | nil =>
      constructor
      · intro hread
        exact absurd hread (by simp [readItems])
      · rintro ⟨given, absent, heq, hlength, -⟩
        obtain ⟨rfl, rfl⟩ := List.append_eq_nil_iff.1 heq.symm
        exact absurd hlength (by simp)
    | @cons field part fields ps hfield hfields =>
      have hpart := hparts part List.mem_cons_self
      have hparts' : ∀ p ∈ ps, p ∈ parts := fun p hp => hparts p (List.mem_cons_of_mem _ hp)
      rw [List.map_cons, List.nodup_cons] at hnames
      have hnew {given absent : List (Component α)} (heq : ps = given ++ absent)
          (hlength : given.length = ds.length) : part.name ∉ (given.zip ds).map (·.1.name) := by
        rw [map_key_zip Component.name hlength.le]
        intro hmem
        rw [heq, List.map_append] at hnames
        exact hnames.1 (List.mem_append_left _ hmem)
      rw [List.map_cons, readItems, Fallible.bind_eq_ok_iff]
      constructor
      · rintro ⟨a₁, hread, hrest⟩
        obtain ⟨given, absent, heq, hlength, habsent, hassigned⟩ :=
          (ih hfields hparts' hnames.2).1 hrest
        have hassigned' := (h.assigned_cons hfield hpart (hnew heq hlength)).2
          ⟨a₁, hread, hassigned⟩
        exact ⟨part :: given, absent, by rw [heq, List.cons_append], by simp [hlength], habsent,
          hassigned'⟩
      · rintro ⟨given, absent, heq, hlength, habsent, hassigned⟩
        cases given with
        | nil => exact absurd hlength (by simp)
        | cons p given =>
          obtain ⟨rfl, htail⟩ := List.cons.inj heq
          have hlength' : given.length = ds.length := by simpa using hlength
          obtain ⟨a₁, hread, hassigned⟩ :=
            (h.assigned_cons hfield hpart (hnew htail hlength')).1 hassigned
          refine ⟨a₁, hread, (ih hfields hparts' hnames.2).2 ?_⟩
          exact ⟨given, absent, htail, hlength', habsent, hassigned⟩

/-! ## Members of objects -/

theorem find?_fields (h : List.Forall₂ (Field.Stores parts) fields ps) (key : String) :
    (fields.find? (·.name = key) = none ∧ ps.find? (·.name = key) = none) ∨
      ∃ field part, fields.find? (·.name = key) = some field ∧
        ps.find? (·.name = key) = some part ∧ field.Stores parts part := by
  induction h with
  | nil => exact .inl ⟨rfl, rfl⟩
  | @cons field part _ _ hfield _ ih =>
    rw [List.find?_cons, List.find?_cons, hfield.name_eq]
    by_cases hname : part.name = key
    · simp only [hname, decide_true]
      exact .inr ⟨field, part, rfl, rfl, hfield⟩
    · simp only [hname, decide_false]
      exact ih

theorem mem_held_iff (hnames : (parts.map (·.name)).Nodup) :
    (part, d) ∈ held parts ms ↔ part ∈ parts ∧ (some part.name, d) ∈ ms := by
  simp only [held, List.mem_filterMap, Option.bind_eq_some_iff, Option.map_eq_some_iff,
    find?_key_eq_some_iff hnames, Prod.mk.injEq]
  constructor
  · rintro ⟨⟨key, d'⟩, hm, name, rfl, p, ⟨hp, rfl⟩, rfl, rfl⟩
    exact ⟨hp, hm⟩
  · rintro ⟨hp, hm⟩
    exact ⟨_, hm, _, rfl, part, ⟨hp, rfl⟩, rfl, rfl⟩

private theorem held_cons_of_find?_eq_some {key : String}
    (h : parts.find? (·.name = key) = some part) :
    held parts ((some key, d) :: ms) = (part, d) :: held parts ms := by
  simp [held, h]

private theorem held_cons_of_find?_eq_none {key : String} (h : parts.find? (·.name = key) = none) :
    held parts ((some key, d) :: ms) = held parts ms := by
  simp [held, h]

private theorem knownKeys_cons {key : String} : knownKeys parts ((some key, d) :: ms) =
    if key ∈ parts.map (·.name) then key :: knownKeys parts ms else knownKeys parts ms := by
  simp only [knownKeys, List.filterMap_cons, List.filter_cons, decide_eq_true_eq]

theorem map_name_held (parts : List (Component α)) (ms : List (Option String × Document)) :
    (held parts ms).map (·.1.name) = knownKeys parts ms := by
  induction ms with
  | nil => rfl
  | cons m ms ih =>
    obtain ⟨key, d⟩ := m
    cases key with
    | none => exact ih
    | some key =>
      rw [knownKeys_cons]
      cases hfind : parts.find? (·.name = key) with
      | none =>
        have hkey : key ∉ parts.map (·.name) := by simpa using hfind
        rw [held_cons_of_find?_eq_none hfind, ih, if_neg hkey]
      | some part =>
        have hname : part.name = key := by simpa using List.find?_some hfind
        have hkey : key ∈ parts.map (·.name) :=
          hname ▸ List.mem_map_of_mem (List.mem_of_find?_eq_some hfind)
        rw [held_cons_of_find?_eq_some hfind, List.map_cons, ih, if_pos hkey,
          hname]

/-- The members of an object are read if all keys are strings and none of the fields comes twice;
they are assigned to their fields in the order of the text. -/
theorem MadeOf.readMembers_eq_ok_iff (h : r.MadeOf parts) {seen seen' : List String}
    (hseen : seen.Nodup) :
    r.readMembers (ms.map fun m => (m.1, m.2.tree)) seen a = .ok (seen', a') ↔
      (∀ m ∈ ms, m.1.isSome) ∧ (knownKeys parts ms ++ seen).Nodup ∧
        seen' = (knownKeys parts ms).reverse ++ seen ∧ Assigned parts (held parts ms) a a' := by
  simp only [← map_name_held]
  induction ms generalizing seen a with
  | nil =>
    have hnil : Assigned parts [] a a' ↔ a' = a := h.assigned_nil
    simp only [List.map_nil, readMembers, held, List.filterMap_nil] at hnil ⊢
    rw [hnil, Except.ok.injEq, Prod.mk.injEq]
    constructor
    · rintro ⟨rfl, rfl⟩
      exact ⟨by simp, hseen, rfl, rfl⟩
    · rintro ⟨-, -, rfl, rfl⟩
      exact ⟨rfl, rfl⟩
  | cons m ms ih =>
    obtain ⟨key, d⟩ := m
    cases key with
    | none => simp [readMembers]
    | some key =>
      rw [List.map_cons, readMembers]
      rcases find?_fields h.fields key with ⟨hfield, hpart⟩ | ⟨field, part, hfield, hpart, hstores⟩
      · rw [hfield, held_cons_of_find?_eq_none hpart]
        simp only [Document.isComplete_tree, if_true]
        rw [ih hseen]
        simp
      · obtain ⟨hmem, hname⟩ := (find?_key_eq_some_iff h.names).1 hpart
        rw [hfield, held_cons_of_find?_eq_some hpart]
        simp only
        by_cases hkey : key ∈ seen
        · simp [hkey, hname]
        · have hseen' : (key :: seen).Nodup := List.nodup_cons.2 ⟨hkey, hseen⟩
          rw [if_neg hkey, Fallible.bind_eq_ok_iff]
          simp only [ih hseen', List.map_cons, hname]
          constructor
          · rintro ⟨a₁, hread, hsome, hnodup, hseen₁, hassigned⟩
            have hnodup' := List.nodup_middle.1 hnodup
            have hnew : key ∉ (held parts ms).map (·.1.name) := by
              intro hheld
              exact (List.nodup_cons.1 hnodup').1 (List.mem_append_left _ hheld)
            refine ⟨by simpa using hsome, hnodup', by simpa using hseen₁, ?_⟩
            exact (h.assigned_cons hstores hmem (hname ▸ hnew)).2 ⟨a₁, hread, hassigned⟩
          · rintro ⟨hsome, hnodup, hseen₁, hassigned⟩
            have hnew : key ∉ (held parts ms).map (·.1.name) := by
              intro hheld
              exact (List.nodup_cons.1 hnodup).1 (List.mem_append_left _ hheld)
            obtain ⟨a₁, hread, hassigned⟩ :=
              (h.assigned_cons hstores hmem (hname ▸ hnew)).1 hassigned
            exact ⟨a₁, hread, by simpa using hsome, List.nodup_middle.2 hnodup,
              by simpa using hseen₁, hassigned⟩

/-! ## Records -/

theorem find?_missing_eq_none_iff (h : List.Forall₂ (Field.Stores parts) fields ps)
    {seen : List String} :
    (fields.find? fun field => field.required && decide (field.name ∉ seen)) = none ↔
      ∀ part ∈ ps, part.default = none → part.name ∈ seen := by
  induction h with
  | nil => simp
  | cons hfield _ ih =>
    rw [List.forall_mem_cons, ← ih, List.find?_eq_none, List.forall_mem_cons, List.find?_eq_none,
      hfield.required_eq, hfield.name_eq]
    simp

theorem mem_knownKeys_iff {key : String} : key ∈ knownKeys parts ms ↔
    (∃ part ∈ parts, part.name = key) ∧ ∃ d, (some key, d) ∈ ms := by
  simp [knownKeys, and_comm]

theorem MadeOf.assigned_held_iff (h : r.MadeOf parts) :
    (Assigned parts (held parts ms) r.blank a ∧
        ∀ part ∈ parts, part.default = none → part.name ∈ knownKeys parts ms) ↔
      (∀ part ∈ parts, ∀ d, (some part.name, d) ∈ ms → part.presents d (part.value a)) ∧
        ∀ part ∈ parts, (∀ d, (some part.name, d) ∉ ms) →
          part.default = some (part.value a) := by
  constructor
  · rintro ⟨⟨hpresents, hkept⟩, hrequired⟩
    constructor
    · intro part hpart d hd
      exact hpresents _ ((mem_held_iff h.names).2 ⟨hpart, hd⟩)
    · intro part hpart hnone
      have hkey : part.name ∉ knownKeys parts ms := by
        intro hkey
        obtain ⟨d, hd⟩ := (mem_knownKeys_iff.1 hkey).2
        exact hnone d hd
      cases hdefault : part.default with
      | none => exact absurd (hrequired part hpart hdefault) hkey
      | some v =>
        rw [← map_name_held] at hkey
        rw [hkept part hpart hkey, h.blank part hpart v hdefault]
  · rintro ⟨hpresents, habsent⟩
    refine ⟨⟨?_, ?_⟩, ?_⟩
    · intro x hx
      obtain ⟨hpart, hd⟩ := (mem_held_iff h.names).1 hx
      exact hpresents _ hpart _ hd
    · intro part hpart hkey
      rw [map_name_held] at hkey
      have hdefault := habsent part hpart fun d hd =>
        hkey (mem_knownKeys_iff.2 ⟨⟨part, hpart, rfl⟩, d, hd⟩)
      exact (h.blank part hpart _ hdefault).symm
    · intro part hpart hdefault
      by_contra hkey
      have hsome := habsent part hpart fun d hd =>
        hkey (mem_knownKeys_iff.2 ⟨⟨part, hpart, rfl⟩, d, hd⟩)
      rw [hdefault] at hsome
      exact absurd hsome (by simp)

theorem MadeOf.assigned_zip_iff (h : r.MadeOf parts) {given absent : List (Component α)}
    (hparts : parts = given ++ absent) (hlength : given.length = ds.length) :
    ((∀ p ∈ absent, p.default ≠ none) ∧ Assigned parts (given.zip ds) r.blank a) ↔
      List.Forall₂ (fun part d => part.presents d (part.value a)) given ds ∧
        ∀ part ∈ absent, part.default = some (part.value a) := by
  have hnames := h.names
  have hzip := map_key_zip Component.name hlength.le
  rw [hparts, List.map_append, List.nodup_append] at hnames
  rw [List.forall₂_iff_zip]
  constructor
  · rintro ⟨hdefaults, hpresents, hkept⟩
    refine ⟨⟨hlength, fun hx => hpresents _ hx⟩, ?_⟩
    intro part hpart
    have hmem : part ∈ parts := hparts ▸ List.mem_append_right _ hpart
    obtain ⟨v, hv⟩ := Option.ne_none_iff_exists'.1 (hdefaults part hpart)
    have hkey : part.name ∉ given.map (·.name) := by
      intro hkey
      exact hnames.2.2 _ hkey _ (List.mem_map_of_mem hpart) rfl
    rw [hkept part hmem (hzip ▸ hkey), h.blank part hmem v hv, hv]
  · rintro ⟨⟨-, hpresents⟩, habsent⟩
    refine ⟨?_, fun x hx => hpresents hx, ?_⟩
    · intro part hpart hnone
      rw [habsent part hpart] at hnone
      exact absurd hnone (by simp)
    · intro part hmem hkey
      rw [hzip] at hkey
      rcases List.mem_append.1 (hparts ▸ hmem) with hgiven | habs
      · exact absurd (List.mem_map_of_mem hgiven) hkey
      · exact (h.blank part hmem _ (habsent part habs)).symm

theorem read_object_eq_ok_iff (h : r.MadeOf parts) :
    r.read (Document.object ms).tree = .ok a ↔ IsRecord parts (.object ms) a := by
  rw [Document.tree_object, read, Fallible.bind_eq_ok_iff]
  constructor
  · rintro ⟨⟨seen, a'⟩, hread, hend⟩
    obtain ⟨hsome, hnodup, rfl, hassigned⟩ :=
      (h.readMembers_eq_ok_iff List.nodup_nil).1 hread
    simp only [Bool.not_true, Bool.false_eq_true, if_false] at hend
    split at hend
    · exact absurd hend (by simp)
    · rename_i hmissing
      obtain rfl := Except.ok.inj hend
      rw [find?_missing_eq_none_iff h.fields] at hmissing
      obtain ⟨hpresents, habsent⟩ := h.assigned_held_iff.1
        ⟨hassigned, fun part hpart hdefault => by simpa using hmissing part hpart hdefault⟩
      exact .object hsome (by simpa using hnodup) hpresents habsent
  · intro hrecord
    cases hrecord with
    | object hsome hnodup hpresents habsent =>
      obtain ⟨hassigned, hrequired⟩ := h.assigned_held_iff.2 ⟨hpresents, habsent⟩
      refine ⟨(_, a), (h.readMembers_eq_ok_iff List.nodup_nil).2
        ⟨hsome, by simpa using hnodup, rfl, hassigned⟩, ?_⟩
      have hmissing : (r.fields.find? fun field => field.required &&
          decide (field.name ∉ (knownKeys parts ms).reverse ++ [])) = none := by
        rw [find?_missing_eq_none_iff h.fields]
        intro part hpart hdefault
        simpa using hrequired part hpart hdefault
      simp only [Bool.not_true, Bool.false_eq_true, if_false]
      rw [hmissing]

theorem read_array_eq_ok_iff (h : r.MadeOf parts) :
    r.read (Document.array ds).tree = .ok a ↔ IsRecord parts (.array ds) a := by
  rw [Document.tree_array, read,
    h.readItems_eq_ok_iff h.fields (fun _ hp => hp) h.names]
  constructor
  · rintro ⟨given, absent, hparts, hlength, hassigned⟩
    obtain ⟨hpresents, habsent⟩ := (h.assigned_zip_iff hparts hlength).1 hassigned
    exact .array hparts hpresents habsent
  · intro hrecord
    cases hrecord with
    | array hparts hpresents habsent =>
      have hlength := hpresents.length_eq
      exact ⟨_, _, hparts, hlength, (h.assigned_zip_iff hparts hlength).2 ⟨hpresents, habsent⟩⟩

theorem MadeOf.reads (h : r.MadeOf parts) : Reader.Reads r.read (IsRecord parts) := by
  intro d a
  cases d with
  | object ms => exact read_object_eq_ok_iff h
  | array ds => exact read_array_eq_ok_iff h
  | _ =>
    constructor
    · intro hread
      exact absurd hread (by simp [read, Document.tree])
    · rintro ⟨⟩

theorem isComplete_of_readItems {closed : Bool} {count : Nat} {items : List Tree}
    (h : r.readItems closed count fields items a = .ok a') : closed = true := by
  induction items generalizing fields count a with
  | nil =>
    cases closed with
    | true => rfl
    | false => exact absurd h (by simp [readItems])
  | cons item items ih =>
    cases fields with
    | nil => exact absurd h (by simp [readItems])
    | cons field fields =>
      obtain ⟨a₁, -, hrest⟩ := Fallible.bind_eq_ok_iff.1 h
      exact ih hrest

theorem isComplete_of_read {t : Tree} (h : r.read t = .ok a) : t.isComplete = true := by
  cases t with
  | object members closed =>
    obtain ⟨⟨seen, a'⟩, -, hend⟩ := Fallible.bind_eq_ok_iff.1 h
    cases closed with
    | true => rfl
    | false => exact absurd hend (by simp)
  | array items closed => exact isComplete_of_readItems h
  | broken => exact absurd h (by simp [read])
  | _ => rfl

/-! ## Records written in order -/

theorem readMembers_in_order {xs : List (Field α × Tree)} {seen : List String}
    (hfields : ∀ x ∈ xs, r.fields.find? (·.name = x.1.name) = some x.1)
    (hnew : (xs.map (·.1.name) ++ seen).Nodup) :
    r.readMembers (xs.map fun x => (some x.1.name, x.2)) seen a =
      (xs.foldlM (fun a (x : Field α × Tree) => x.1.read x.2 a) a).map fun a =>
        ((xs.map (·.1.name)).reverse ++ seen, a) := by
  induction xs generalizing seen a with
  | nil => rfl
  | cons x xs ih =>
    have hfields' := fun y hy => hfields y (List.mem_cons_of_mem _ hy)
    have hnew' : (xs.map (·.1.name) ++ x.1.name :: seen).Nodup := List.nodup_middle.2 hnew
    rw [List.map_cons, List.cons_append, List.nodup_cons] at hnew
    have hseen : x.1.name ∉ seen := fun hmem => hnew.1 (List.mem_append_right _ hmem)
    rw [List.map_cons, readMembers, hfields x List.mem_cons_self, List.foldlM_cons]
    simp only [hseen, if_false]
    cases x.1.read x.2 a with
    | error e => rfl
    | ok a₁ =>
      have hrest := ih (a := a₁) hfields' hnew'
      rw [List.map_cons, List.reverse_cons, List.append_assoc]
      exact hrest

/-- A record that is written as an object with its fields in order is read field by field. -/
theorem read_in_order (r : Record α) (values : List Tree)
    (hlength : r.fields.length = values.length) (hnames : (r.fields.map (·.name)).Nodup) :
    r.read (.object ((r.fields.zip values).map fun x => (some x.1.name, x.2)) true) =
      (r.fields.zip values).foldlM (fun a (x : Field α × Tree) => x.1.read x.2 a) r.blank := by
  have hzip := map_key_zip Field.name hlength.le
  have hfields : ∀ x ∈ r.fields.zip values, r.fields.find? (·.name = x.1.name) = some x.1 :=
    fun x hx => (find?_key_eq_some_iff hnames).2 ⟨(List.of_mem_zip hx).1, rfl⟩
  have hnew : ((r.fields.zip values).map (fun (x : Field α × Tree) => x.1.name) ++ []).Nodup := by
    rw [hzip, List.append_nil]
    exact hnames
  rw [read, readMembers_in_order hfields hnew]
  cases (r.fields.zip values).foldlM (fun a (x : Field α × Tree) => x.1.read x.2 a) r.blank with
  | error e => rfl
  | ok a =>
    have hmissing : (r.fields.find? fun field => field.required &&
        decide (field.name ∉ ((r.fields.zip values).map (·.1.name)).reverse ++ [])) = none := by
      rw [hzip, List.find?_eq_none]
      intro field hfield
      have hmem : field.name ∈ r.fields.map (·.name) := List.mem_map_of_mem hfield
      simp [hmem]
    simp only [Except.map, bind, Except.bind, Bool.not_true, Bool.false_eq_true, if_false]
    rw [hmissing]

end Record

end ContestInput.Json

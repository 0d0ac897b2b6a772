import ContestInput.Program.Storage
import ContestInput.Proofs.Constant
import ContestInput.Proofs.Form
import ContestInput.Proofs.Program.Lines
/-!
# What the declarations of a definition declare

The lines of a definition declare its names in their order, each with one dimension for every
loop of its form and one more where it holds text. A size is declared as the number that it is,
or as the constant of its symbol, and only if there is such a constant.
-/

namespace ContestInput

open Program Fallible

namespace Size

def count : Size → Count
  | .literal value => .literal value
  | .symbol name => .constant (constantName name)

theorem resolve_eq_ok_iff {constants : List Constant} {size : Size} {c : Count} :
    size.resolve constants = .ok c ↔ c = size.count ∧
      ∀ name, size = .symbol name → Constant.declares constants (constantName name) = true := by
  cases size with
  | literal value =>
    rw [resolve, count, Except.ok.injEq, eq_comm]
    simp
  | symbol name =>
    rw [resolve, count]
    by_cases hname : Constant.declares constants (constantName name) = true
    · rw [if_pos hname, Except.ok.injEq, eq_comm]
      simp [hname]
    · simp [hname]

theorem mapM_resolve_eq_ok_iff {constants : List Constant} {sizes : List Size}
    {counts : List Count} : sizes.mapM (resolve constants) = .ok counts ↔
      counts = sizes.map count ∧
      ∀ name, .symbol name ∈ sizes → Constant.declares constants (constantName name) = true := by
  rw [mapM_eq_ok_iff]
  induction sizes generalizing counts with
  | nil => simp [List.forall₂_nil_left_iff]
  | cons size sizes ih =>
    rw [List.forall₂_cons_left_iff]
    constructor
    · rintro ⟨c, cs, hc, hcs, rfl⟩
      obtain ⟨rfl, hdeclared⟩ := resolve_eq_ok_iff.1 hc
      obtain ⟨rfl, hdeclareds⟩ := ih.1 hcs
      refine ⟨rfl, fun name hname => ?_⟩
      rcases List.mem_cons.1 hname with heq | hmem
      · exact hdeclared name heq.symm
      · exact hdeclareds name hmem
    · rintro ⟨rfl, hdeclared⟩
      refine ⟨size.count, sizes.map count, resolve_eq_ok_iff.2 ⟨rfl, ?_⟩, ih.2 ⟨rfl, ?_⟩, rfl⟩
      · rintro name rfl
        exact hdeclared name List.mem_cons_self
      · exact fun name hname => hdeclared name (List.mem_cons_of_mem _ hname)

end Size

namespace Form

variable {f : Form} {counts : List Count} {names : List String}

theorem base_eq_int_iff : f.base = .int ↔ f.item = .number := by
  unfold base
  cases f.item <;> simp

theorem base_eq_char_iff : f.base = .char ↔ f.item ≠ .number := by
  unfold base
  cases f.item <;> simp

theorem flatMap_declared (f : Form) (counts : List Count) (names : List String) :
    (f.declarations counts names).flatMap (·.declared) =
      names.map fun name => ⟨name, f.extents counts name⟩ := by
  unfold declarations
  split
  · simp
  · rw [List.flatMap_map, ← List.map_eq_flatMap, List.map_id']

theorem base_of_mem_declarations {line : Declaration} (h : line ∈ f.declarations counts names) :
    line.base = f.base := by
  unfold declarations at h
  split at h
  · rw [List.mem_singleton.1 h]
  · obtain ⟨v, -, rfl⟩ := List.mem_map.1 h
    rfl

theorem declared_ne_nil (hnames : names ≠ []) {line : Declaration}
    (h : line ∈ f.declarations counts names) : line.declared ≠ [] := by
  unfold declarations at h
  split at h
  · rw [List.mem_singleton.1 h]
    simpa using hnames
  · obtain ⟨v, -, rfl⟩ := List.mem_map.1 h
    simp

/-- A variable has a dimension for each loop. One that holds text has another one, with a place
for the end mark. -/
theorem exists_extents (f : Form) (hcounts : counts.length = f.arity) (name : String) :
    ∃ widths, f.extents counts name = (counts.take f.loopDepth).map (⟨·, false⟩) ++ widths ∧
      (f.base = .int → widths = []) ∧ (f.base = .char → ∃ w, widths = [⟨w, true⟩]) := by
  obtain ⟨layout, item, holds⟩ := f
  cases item with
  | number =>
    refine ⟨[], ?_, fun _ => rfl, fun h => absurd h (by simp [base])⟩
    rw [List.append_nil, loopDepth, List.take_of_length_le (Nat.le_of_eq hcounts)]
    rfl
  | string =>
    refine ⟨[⟨.constant (constantName name), true⟩], ?_, fun h => absurd h (by simp [base]),
      fun _ => ⟨_, rfl⟩⟩
    rw [loopDepth, List.take_of_length_le (Nat.le_of_eq hcounts)]
    rfl
  | char =>
    -- Runs of characters have one dimension or two, and the last one is the width.
    refine ⟨(counts.drop (Form.loopDepth ⟨layout, .char, holds⟩)).map (⟨·, true⟩), ?_,
      fun h => absurd h (by simp [base]), fun _ => ?_⟩
    · match layout, counts with
      | .harray, [_] => rfl
      | .matrix, [_, _] => rfl
    · match layout, counts with
      | .harray, [w] => exact ⟨w, rfl⟩
      | .matrix, [_, w] => exact ⟨w, rfl⟩

private theorem map_count_terminateLast (counts : List Count) :
    (terminateLast counts).map (·.count) = counts := by
  fun_induction terminateLast counts with
  | case1 => rfl
  | case2 c => rfl
  | case3 c cs _ ih => rw [List.map_cons, ih]

theorem map_count_extents (f : Form) (counts : List Count) (name : String) :
    (f.extents counts name).map (·.count) =
      counts ++ if f.item = .string then [.constant (constantName name)] else [] := by
  unfold extents
  split
  · rename_i hitem
    simp [hitem, Function.comp_def]
  · rename_i hitem
    simp [hitem, Function.comp_def]
  · rename_i hitem
    simp [hitem, map_count_terminateLast]

end Form

namespace Program

/-- Among the lines is one that declares the variable with this type and these dimensions. -/
def Declares (lines : List Declaration) (name : String) (base : BaseType)
    (extents : List Extent) : Prop :=
  ∃ line ∈ lines, line.base = base ∧ ⟨name, extents⟩ ∈ line.declared

end Program

namespace Definition

variable {constants : List Constant} {d : Definition} {lines : List Declaration}

theorem declarations_eq_ok_iff : d.declarations constants = .ok lines ↔
    ∃ f, d.form = .ok f ∧ lines = f.declarations (d.sizes.map Size.count) d.names ∧
      ∀ name, .symbol name ∈ d.sizes →
        Constant.declares constants (constantName name) = true := by
  rw [declarations, bind_eq_ok_iff]
  refine exists_congr fun f => and_congr_right fun _ => ?_
  rw [bind_eq_ok_iff]
  simp only [Size.mapM_resolve_eq_ok_iff, pure_eq_ok_iff]
  constructor
  · rintro ⟨_, ⟨rfl, hdeclared⟩, rfl⟩
    exact ⟨rfl, hdeclared⟩
  · rintro ⟨rfl, hdeclared⟩
    exact ⟨_, ⟨rfl, hdeclared⟩, rfl⟩

theorem isReadable_of_declarations (h : d.declarations constants = .ok lines)
    (hnames : ∀ name ∈ d.names, isIdentifier name = true)
    (hsymbols : ∀ name, .symbol name ∈ d.sizes → isIdentifier name = true) :
    ∀ line ∈ lines, line.IsReadable := by
  obtain ⟨f, hform, rfl, -⟩ := declarations_eq_ok_iff.1 h
  have hvalid := (form_eq_ok_iff.1 hform).1
  intro line hline
  have hdeclared : ∀ v ∈ line.declared,
      v.name ∈ d.names ∧ v.extents = f.extents (d.sizes.map Size.count) v.name := by
    intro v hv
    have hmem := List.mem_flatMap.2 ⟨line, hline, hv⟩
    rw [Form.flatMap_declared] at hmem
    obtain ⟨name, hname, rfl⟩ := List.mem_map.1 hmem
    exact ⟨hname, rfl⟩
  refine ⟨Form.declared_ne_nil hvalid.names_ne_nil hline,
    fun v hv => hnames v.name (hdeclared v hv).1, fun v hv e he name hcount => ?_⟩
  obtain ⟨hname, hextents⟩ := hdeclared v hv
  have hmem : e.count ∈ (f.extents (d.sizes.map Size.count) v.name).map (·.count) :=
    List.mem_map_of_mem (hextents ▸ he)
  rw [Form.map_count_extents, hcount, List.mem_append] at hmem
  rcases hmem with hcounts | hwidth
  · obtain ⟨size, hsize, heq⟩ := List.mem_map.1 hcounts
    cases size with
    | literal value => exact absurd heq (by simp [Size.count])
    | symbol s =>
      obtain rfl := Count.constant.inj heq
      exact isIdentifier_constantName (hsymbols s hsize)
  · split at hwidth
    · obtain rfl := Count.constant.inj (List.mem_singleton.1 hwidth)
      exact isIdentifier_constantName (hnames v.name hname)
    · exact absurd hwidth List.not_mem_nil

theorem declares_iff (h : d.declarations constants = .ok lines) {f : Form}
    (hform : d.form = .ok f) {name : String} {base : BaseType} {extents : List Extent} :
    Declares lines name base extents ↔ name ∈ d.names ∧ base = f.base ∧
      extents = f.extents (d.sizes.map Size.count) name := by
  obtain ⟨f', hform', rfl, -⟩ := declarations_eq_ok_iff.1 h
  obtain rfl : f' = f := Except.ok.inj (hform'.symm.trans hform)
  have hmem (v : Variable) : (∃ line ∈ f'.declarations (d.sizes.map Size.count) d.names,
      v ∈ line.declared) ↔ v.name ∈ d.names ∧
        v.extents = f'.extents (d.sizes.map Size.count) v.name := by
    rw [← List.mem_flatMap, Form.flatMap_declared, List.mem_map]
    constructor
    · rintro ⟨name, hname, rfl⟩
      exact ⟨hname, rfl⟩
    · rintro ⟨hname, hextents⟩
      exact ⟨v.name, hname, by rw [← hextents]⟩
  constructor
  · rintro ⟨line, hline, rfl, hv⟩
    obtain ⟨hname, hextents⟩ := (hmem _).1 ⟨line, hline, hv⟩
    exact ⟨hname, Form.base_of_mem_declarations hline, hextents⟩
  · rintro ⟨hname, rfl, rfl⟩
    obtain ⟨line, hline, hv⟩ :=
      (hmem ⟨name, f'.extents (d.sizes.map Size.count) name⟩).2 ⟨hname, rfl⟩
    exact ⟨line, hline, Form.base_of_mem_declarations hline, hv⟩

end Definition

end ContestInput

import ContestInput.Proofs.Program.Input
/-!
# What the input statements store

How input statements run when the sizes have values: a loop goes through the numbers below its
bound, with its variable in the place of whatever had that name outside, and a read stores a value
for each of its addresses from left to right. The statements of definitions store into the cells
that the layouts prescribe, in their order and each of them once.
-/

namespace ContestInput

open Fallible

def Size.value (values : String → Nat) : Size → Nat
  | .literal value => value.toNat
  | .symbol name => values name

namespace Program

/-! ## Running statements -/

/-- Whether a name is an identifier that no loop takes for its variable. -/
def isVariableName (name : String) : Bool :=
  isIdentifier name && (Index.ofWord? name).isNone

theorem isVariableName_iff {name : String} : isVariableName name = true ↔
    isIdentifier name = true ∧ ∀ index : Index, name ≠ index.text := by
  rw [isVariableName, Bool.and_eq_true, Option.isNone_iff_eq_none]
  refine and_congr_right fun _ => ⟨?_, fun h => ?_⟩
  · rintro h index rfl
    exact absurd (index.ofWord?_text.symm.trans h) (by simp)
  · have hi : name ≠ "i" := h .i
    have hj : name ≠ "j" := h .j
    rw [Index.ofWord?, if_neg hi, if_neg hj]

/-- A place for a number or a text: a variable, and the element's position in it. -/
structure Cell where
  name : String
  position : List Nat
  deriving DecidableEq, Repr

abbrev Store := Conversion × Cell

abbrev Scope := String → Option Nat

def Scope.enter (scope : Scope) (index : Index) (k : Nat) : Scope :=
  Function.update scope index.text (some k)

/-- Whether the conversion can store behind such an address: a number goes to an element, and text
to an array. -/
def Conversion.accepts : Conversion → Target → Bool
  | .decimal, .element _ _ | .decimal, .offset _ _ | .word, .buffer _ _ => true
  | _, _ => false

/-- The cell that a conversion stores into. The name of a loop variable is not that of an array. -/
def Conversion.cell? (scope : Scope) (conversion : Conversion) (t : Target) : Option Cell :=
  if conversion.accepts t then
    match scope t.name with
    | some _ => none
    | none => (t.indices.mapM fun index => scope index.text).map (⟨t.name, ·⟩)
  else none

/-- What loops around reads store. The variable of a loop is there before the bound is looked
at. -/
def execute (values : String → Nat) (reads : List (Conversion × Target)) :
    List Loop → Scope → Option (List Store)
  | [], scope => reads.mapM fun read => (read.1.cell? scope read.2).map (read.1, ·)
  | l :: loops, scope => do
    let bound := l.bound.value fun name => (scope.enter l.index 0 name).getD (values name)
    let rounds ← (List.range bound).mapM fun k => execute values reads loops (scope.enter l.index k)
    some rounds.flatten

def runLine? (values : String → Nat) (line : String) : Option (List Store) := do
  let r ← ReadStatement.ofText? line
  execute values r.reads r.loops fun _ => none

def run? (values : String → Nat) (lines : List String) : Option (List Store) := do
  let stores ← lines.mapM (runLine? values)
  some stores.flatten

end Program

/-! ## The cells of a definition -/

open Program

/-- Positions below the bounds, where the last number changes first. -/
def positions : List Nat → List (List Nat)
  | [] => [[]]
  | n :: bounds => (List.range n).flatMap fun k => (positions bounds).map (k :: ·)

private theorem positions_singleton (n : Nat) : positions [n] = (List.range n).map ([·]) := by
  rw [positions, List.map_eq_flatMap]
  rfl

private theorem positions_pair (n m : Nat) :
    positions [n, m] = (List.range n).flatMap fun k => (List.range m).map ([k, ·]) := by
  rw [positions, positions_singleton]
  simp only [List.map_map, Function.comp_def]

theorem mem_positions {bounds position : List Nat} :
    position ∈ positions bounds ↔ List.Forall₂ (· < ·) position bounds := by
  induction bounds generalizing position with
  | nil => simp [positions, List.forall₂_nil_right_iff]
  | cons n bounds ih =>
    simp only [positions, List.mem_flatMap, List.mem_range, List.mem_map, ih,
      List.forall₂_cons_right_iff]
    constructor
    · rintro ⟨k, hk, ks, hks, rfl⟩
      exact ⟨k, ks, hk, hks, rfl⟩
    · rintro ⟨k, ks, hk, hks, rfl⟩
      exact ⟨k, hk, ks, hks, rfl⟩

private theorem nodup_flatMap_map {α β γ : Type} {f : α → β → γ} {xs : List α} {ys : List β}
    (hxs : xs.Nodup) (hys : ys.Nodup) (hf : ∀ p q : α × β, f p.1 p.2 = f q.1 q.2 → p = q) :
    (xs.flatMap fun x => ys.map (f x)).Nodup := by
  have hproduct : (xs.flatMap fun x => ys.map (f x)) = (xs.product ys).map fun p => f p.1 p.2 := by
    simp [List.product, List.map_flatMap, Function.comp_def]
  rw [hproduct]
  exact (hxs.product hys).map fun p q => hf p q

theorem nodup_positions (bounds : List Nat) : (positions bounds).Nodup := by
  induction bounds with
  | nil => exact List.nodup_singleton []
  | cons n bounds ih =>
    apply nodup_flatMap_map List.nodup_range ih
    rintro ⟨k, ks⟩ ⟨k', ks'⟩ h
    obtain ⟨rfl, rfl⟩ := List.cons.inj h
    rfl

namespace Definition

/-- The cells of a definition in the order of its input. A run of characters is one cell. -/
def cells (values : String → Nat) (d : Definition) : List Cell :=
  match d.layout, d.item, d.sizes.map (Size.value values) with
  | .single, _, [] => d.names.map (⟨·, []⟩)
  | .harray, .char, [_] => d.names.map (⟨·, []⟩)
  | .harray, _, [n] => d.names.flatMap fun v => (List.range n).map fun k => ⟨v, [k]⟩
  | .varray, _, [n] => (List.range n).flatMap fun k => d.names.map fun v => ⟨v, [k]⟩
  | .matrix, .char, [n, _] => d.names.flatMap fun v => (List.range n).map fun k => ⟨v, [k]⟩
  | .matrix, _, [n, m] => d.names.flatMap fun v =>
      (List.range n).flatMap fun k => (List.range m).map fun l => ⟨v, [k, l]⟩
  | _, _, _ => []

def stores (values : String → Nat) (d : Definition) : List Store :=
  (d.cells values).map fun cell => (if d.item = .number then .decimal else .word, cell)

def looped (values : String → Nat) (d : Definition) : List Nat :=
  d.loopSizes.map (Size.value values)

end Definition

namespace Program

/-! ## One round after the other -/

variable {scope : Scope} {indices : List Index} {position : List Nat} {values : String → Nat}

/-- The loop variables that can be seen are `indices`, and their values are `position`. -/
structure Scope.Holds (scope : Scope) (indices : List Index) (position : List Nat) : Prop where
  values : indices.map (fun index => scope index.text) = position.map some
  others : ∀ name, (∀ index : Index, name ≠ index.text) → scope name = none

private theorem Index.text_injective : Function.Injective Index.text := by
  intro a b
  cases a <;> cases b <;> decide

theorem Scope.holds_empty : Holds (fun _ => none) [] [] :=
  ⟨rfl, fun _ _ => rfl⟩

theorem Scope.Holds.enter (h : scope.Holds indices position) {index : Index}
    (hindex : index ∉ indices) (k : Nat) :
    (scope.enter index k).Holds (indices ++ [index]) (position ++ [k]) := by
  constructor
  · have hold : indices.map (fun x => scope.enter index k x.text) = position.map some := by
      rw [← h.values]
      refine List.map_congr_left fun x hx => Function.update_of_ne ?_ _ _
      exact Index.text_injective.ne (ne_of_mem_of_not_mem hx hindex)
    rw [List.map_append, List.map_append, hold]
    exact congrArg _ (congrArg (· :: []) (Function.update_self ..))
  · intro name hname
    rw [Scope.enter, Function.update_of_ne (hname index)]
    exact h.others name hname

theorem Scope.Holds.cell? (h : scope.Holds indices position) {conversion : Conversion} {t : Target}
    (haccepts : conversion.accepts t = true) (hname : ∀ index : Index, t.name ≠ index.text)
    (hindices : t.indices = indices) : conversion.cell? scope t = some ⟨t.name, position⟩ := by
  rw [Conversion.cell?, if_pos haccepts, h.others t.name hname, hindices,
    mapM_eq_some_iff.2 h.values]
  rfl

/-- The loops run over all positions below their bounds, and at each of them every read stores one
value. -/
theorem execute_eq_some {reads : List (Conversion × Target)} {loops : List Loop}
    (h : scope.Holds indices position) (hnodup : (indices ++ loops.map (·.index)).Nodup)
    (hbounds : ∀ l ∈ loops, ∀ name, l.bound = .symbol name → ∀ index : Index, name ≠ index.text)
    (hreads : ∀ read ∈ reads, read.1.accepts read.2 = true ∧
      read.2.indices = indices ++ loops.map (·.index) ∧
      ∀ index : Index, read.2.name ≠ index.text) :
    execute values reads loops scope =
      some ((positions (loops.map fun l => l.bound.value values)).flatMap fun ks =>
        reads.map fun read => (read.1, ⟨read.2.name, position ++ ks⟩)) := by
  induction loops generalizing scope indices position with
  | nil =>
    rw [execute, List.map_nil, positions, List.flatMap_singleton]
    refine mapM_eq_some_map fun read hread => ?_
    obtain ⟨haccepts, hindices, hname⟩ := hreads read hread
    rw [h.cell? haccepts hname (by simpa using hindices), List.append_nil]
    rfl
  | cons l loops ih =>
    have hindex : l.index ∉ indices := by
      intro hmem
      exact (List.nodup_append.1 hnodup).2.2 _ hmem _ List.mem_cons_self rfl
    have happend : indices ++ (l :: loops).map (·.index) =
        indices ++ [l.index] ++ loops.map (·.index) := by simp
    rw [happend] at hnodup hreads
    have hbound : (l.bound.value fun name => (scope.enter l.index 0 name).getD (values name)) =
        l.bound.value values := by
      cases hsize : l.bound with
      | literal value => rfl
      | symbol name =>
        have hname := hbounds l List.mem_cons_self name hsize
        rw [Size.value, (h.enter hindex 0).others name hname]
        rfl
    have hround (k : Nat) := ih (h.enter hindex k) hnodup
      (fun l' hl' => hbounds l' (List.mem_cons_of_mem _ hl')) hreads
    rw [execute, hbound, mapM_eq_some_map fun k _ => hround k, List.map_cons, positions,
      List.flatMap_assoc]
    simp only [List.flatMap_map, List.append_assoc, List.singleton_append]
    exact congrArg some List.flatMap_def.symm

end Program

theorem Form.accepts_target (f : Form) (name : String) :
    f.conversion.accepts (f.target name) = true := by
  rw [conversion, target]
  cases f.item with
  | number => rcases f.indices with _ | ⟨index, _ | _⟩ <;> rfl
  | string => rfl
  | char => rfl

namespace Definition

variable {values : String → Nat} {d : Definition} {f : Form} {r : ReadStatement}

theorem looped_eq (hform : d.form = .ok f) :
    d.looped values = (d.sizes.take f.loopDepth).map (Size.value values) :=
  congrArg (List.map (Size.value values)) (loopSizes_eq hform)

/-- A layout with one name alone and one with parallel names have the same order: all names at one
position after the other. -/
theorem cells_eq (hform : d.form = .ok f) : d.cells values =
    (positions (d.looped values)).flatMap fun ks => d.names.map (⟨·, ks⟩) := by
  obtain ⟨hvalid, hlayout, hitem⟩ := form_eq_ok_iff.1 hform
  have hholds : d.layout.holds d.item = true := hlayout ▸ hitem ▸ f.holds
  clear hform hlayout hitem
  obtain ⟨layout, item, names, sizes⟩ := d
  cases layout with
  | single =>
    obtain rfl : sizes = [] := List.eq_nil_of_length_eq_zero hvalid.arity
    cases item <;> simp [cells, looped, loopSizes, positions]
  | harray =>
    obtain ⟨size, rfl⟩ := List.length_eq_one_iff.1 hvalid.arity
    obtain ⟨v, rfl⟩ := List.length_eq_one_iff.1 (hvalid.oneName rfl)
    cases item <;>
      simp [cells, looped, loopSizes, positions, positions_singleton, ← List.map_eq_flatMap]
  | varray =>
    obtain ⟨size, rfl⟩ := List.length_eq_one_iff.1 hvalid.arity
    cases item with
    | char => exact absurd hholds (by simp [Layout.holds])
    | number => simp [cells, looped, loopSizes, positions_singleton, List.flatMap_map]
    | string => simp [cells, looped, loopSizes, positions_singleton, List.flatMap_map]
  | matrix =>
    obtain ⟨n, m, rfl⟩ := List.length_eq_two.1 hvalid.arity
    obtain ⟨v, rfl⟩ := List.length_eq_one_iff.1 (hvalid.oneName rfl)
    cases item <;>
      simp [cells, looped, loopSizes, positions_singleton, positions_pair, ← List.map_eq_flatMap,
        List.map_flatMap, Function.comp_def]

example : cells (fun _ => 2) ⟨.varray, .number, ["A", "B"], [.symbol "N"]⟩ =
    [⟨"A", [0]⟩, ⟨"B", [0]⟩, ⟨"A", [1]⟩, ⟨"B", [1]⟩] := by
  decide

theorem nodup_cells (hform : d.form = .ok f) : (d.cells values).Nodup := by
  rw [cells_eq hform]
  apply nodup_flatMap_map (nodup_positions _) (form_eq_ok_iff.1 hform).1.nodup
  rintro ⟨ks, v⟩ ⟨ks', v'⟩ h
  obtain ⟨rfl, rfl⟩ := Cell.mk.inj h
  rfl

theorem mem_cells_iff (hform : d.form = .ok f) {cell : Cell} : cell ∈ d.cells values ↔
    cell.name ∈ d.names ∧ List.Forall₂ (· < ·) cell.position (d.looped values) := by
  rw [cells_eq hform, List.mem_flatMap]
  constructor
  · rintro ⟨ks, hks, hcell⟩
    obtain ⟨v, hv, rfl⟩ := List.mem_map.1 hcell
    exact ⟨hv, mem_positions.1 hks⟩
  · rintro ⟨hname, hposition⟩
    exact ⟨cell.position, mem_positions.2 hposition, List.mem_map.2 ⟨cell.name, hname, rfl⟩⟩

theorem execute_readStatement (hform : d.form = .ok f)
    (hnames : ∀ name ∈ d.names, isVariableName name = true)
    (hsymbols : ∀ name, .symbol name ∈ d.sizes → isVariableName name = true) :
    execute values (f.readStatement d.sizes d.names).reads (f.readStatement d.sizes d.names).loops
      (fun _ => none) = some (d.stores values) := by
  have hsizes := length_sizes_of_form hform
  obtain ⟨hindices, hbounds⟩ := f.loops_readStatement hsizes d.names
  have hnodup : ((f.readStatement d.sizes d.names).loops.map (·.index)).Nodup := by
    rw [hindices]
    exact f.nodup_indices
  have hsize : ∀ l ∈ (f.readStatement d.sizes d.names).loops, ∀ name, l.bound = .symbol name →
      ∀ index : Index, name ≠ index.text := by
    intro l hl name hbound
    exact (isVariableName_iff.1 (hsymbols name (hbound ▸ Form.bound_mem_sizes hsizes hl))).2
  have hreads : ∀ read ∈ (f.readStatement d.sizes d.names).reads,
      read.1.accepts read.2 = true ∧
        read.2.indices = (f.readStatement d.sizes d.names).loops.map (·.index) ∧
        ∀ index : Index, read.2.name ≠ index.text := by
    intro read hread
    obtain ⟨name, hname, rfl⟩ := List.mem_map.1 hread
    rw [hindices, Form.target_name]
    exact ⟨f.accepts_target name, f.target_indices name,
      (isVariableName_iff.1 (hnames name hname)).2⟩
  have hlooped : (f.readStatement d.sizes d.names).loops.map (fun l => l.bound.value values) =
      d.looped values := by
    rw [looped_eq hform, ← hbounds, List.map_map]
    rfl
  have hconversion : f.conversion = if d.item = .number then .decimal else .word := by
    rw [← (form_eq_ok_iff.1 hform).2.2, Form.conversion]
    cases f.item <;> rfl
  rw [execute_eq_some Scope.holds_empty hnodup hsize hreads, hlooped, stores, cells_eq hform,
    List.map_flatMap, ← hconversion]
  simp only [Form.readStatement, List.map_map, Function.comp_def, Form.target_name,
    List.nil_append]

theorem runLine?_text (values : String → Nat) (h : d.readStatement = .ok r)
    (hnames : ∀ name ∈ d.names, isVariableName name = true)
    (hsymbols : ∀ name, .symbol name ∈ d.sizes → isVariableName name = true) :
    runLine? values r.text = some (d.stores values) := by
  have hreadable := isReadable_of_readStatement h
    (fun name hname => (isVariableName_iff.1 (hnames name hname)).1)
    fun name hname => (isVariableName_iff.1 (hsymbols name hname)).1
  obtain ⟨f, hform, rfl⟩ := readStatement_eq_ok_iff.1 h
  rw [runLine?, ReadStatement.ofText?_text hreadable]
  exact execute_readStatement hform hnames hsymbols

end Definition

namespace Program

variable {ds : List Definition} {rs : List ReadStatement}

/-- Lines run one after the other, so the stores of the definitions come one after the other. -/
theorem run?_eq_some (h : readStatementsOf ds = .ok rs)
    (hnames : ∀ d ∈ ds, ∀ name ∈ d.names, isVariableName name = true)
    (hsymbols : ∀ d ∈ ds, ∀ name, .symbol name ∈ d.sizes → isVariableName name = true)
    (values : String → Nat) :
    run? values (rs.map ReadStatement.text) = some (ds.flatMap (Definition.stores values)) := by
  have hlines : (rs.map ReadStatement.text).mapM (runLine? values) =
      some (ds.map (Definition.stores values)) := by
    have hpairs := mapM_eq_ok_iff.1 h
    rw [mapM_eq_some_iff, List.map_map, List.map_map]
    clear h
    induction hpairs with
    | nil => rfl
    | @cons d r ds rs hd _ ih =>
      have hline := Definition.runLine?_text values hd (hnames d List.mem_cons_self)
        (hsymbols d List.mem_cons_self)
      have hrest := ih (fun e he => hnames e (List.mem_cons_of_mem _ he))
        fun e he => hsymbols e (List.mem_cons_of_mem _ he)
      rw [List.map_cons, List.map_cons, hrest, Function.comp_apply, hline]
      rfl
  rw [run?, hlines, List.flatMap_def]
  rfl

/-- Whatever the values of the sizes, the lines of definitions store into the cells of one
definition after the other, each in the order of its layout. A definition has a cell exactly once
for each of its names and each position below the dimensions that are not the width of a text. -/
theorem run_stores_cells (h : readStatementsOf ds = .ok rs)
    (hnames : ∀ d ∈ ds, ∀ name ∈ d.names, isVariableName name = true)
    (hsymbols : ∀ d ∈ ds, ∀ name, .symbol name ∈ d.sizes → isVariableName name = true)
    (values : String → Nat) :
    run? values (rs.map ReadStatement.text) = some (ds.flatMap (Definition.stores values)) ∧
      ∀ d ∈ ds, (d.cells values).Nodup ∧ ∀ cell, cell ∈ d.cells values ↔
        cell.name ∈ d.names ∧ List.Forall₂ (· < ·) cell.position (d.looped values) := by
  refine ⟨run?_eq_some h hnames hsymbols values, fun d hd => ?_⟩
  obtain ⟨r, hr⟩ := exists_ok_of_mapM_eq_ok h hd
  obtain ⟨f, hform, -⟩ := Definition.readStatement_eq_ok_iff.1 hr
  exact ⟨Definition.nodup_cells hform, fun cell => Definition.mem_cells_iff hform⟩

theorem run_stores_cells_rows :
    let ds : List Definition := [⟨.single, .number, ["N", "M"], []⟩,
      ⟨.varray, .number, ["A", "B"], [.symbol "N"]⟩,
      ⟨.matrix, .char, ["S"], [.symbol "M", .literal 8]⟩]
    let rs : List ReadStatement := [
      ⟨[], [(.decimal, .element "N" []), (.decimal, .element "M" [])]⟩,
      ⟨[⟨.i, .symbol "N"⟩], [(.decimal, .offset "A" .i), (.decimal, .offset "B" .i)]⟩,
      ⟨[⟨.i, .symbol "M"⟩], [(.word, .buffer "S" [.i])]⟩]
    let values : String → Nat := fun name => if name = "N" then 2 else 3
    readStatementsOf ds = .ok rs ∧
      (∀ d ∈ ds, ∀ name ∈ d.names, isVariableName name = true) ∧
      (∀ d ∈ ds, ∀ name, .symbol name ∈ d.sizes → isVariableName name = true) ∧
      run? values (rs.map ReadStatement.text) = some (ds.flatMap (Definition.stores values)) ∧
        ∀ d ∈ ds, (d.cells values).Nodup ∧ ∀ cell, cell ∈ d.cells values ↔
          cell.name ∈ d.names ∧ List.Forall₂ (· < ·) cell.position (d.looped values) := by
  intro ds rs values
  have h : readStatementsOf ds = .ok rs := by decide +kernel
  have hnames : ∀ d ∈ ds, ∀ name ∈ d.names, isVariableName name = true := by decide
  have hsymbols : ∀ d ∈ ds, ∀ name, .symbol name ∈ d.sizes → isVariableName name = true := by
    intro d hd name hname
    have hcases : name = "N" ∨ name = "M" := by
      simp only [ds, List.mem_cons, List.not_mem_nil, or_false] at hd
      rcases hd with rfl | rfl | rfl
      · exact absurd hname (by simp)
      · exact .inl (by simpa using hname)
      · exact .inr (by simpa using hname)
    rcases hcases with rfl | rfl <;> decide
  exact ⟨h, hnames, hsymbols, run_stores_cells h hnames hsymbols values⟩

end Program

end ContestInput

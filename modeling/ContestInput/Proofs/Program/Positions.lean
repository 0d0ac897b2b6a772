import ContestInput.Proofs.Program.Input
import ContestInput.Proofs.Program.Storage
import ContestInput.Program.Basic
import ContestInput.Report
/-!
# Positions

Declarations take the dimensions of a variable from the sizes of its definition, and loops take
their bounds from them, each at a position that the form alone tells. Here a position may be behind
the end of the list, and a difference may be below zero: then the computation is stuck and has
neither an outcome nor a fault. A definition that has a form has a size at each position that its
form asks for, so whatever is wrong with definitions, nothing about them is ever stuck, and all
outcomes are those of the functions that know no positions.
-/

namespace ContestInput

open Program Fallible

/-- A computation that may end with a fault, and may also be stuck, without any outcome. -/
abbrev Guarded (α : Type) :=
  ExceptT Fault Option α

namespace Guarded

variable {α β : Type}

/-- A step that may have a fault, but is never stuck. -/
def step (x : Except Fault α) : Guarded α :=
  ExceptT.mk (some x)

/-- A step that is stuck without a value. -/
def ask (x : Option α) : Guarded α :=
  ExceptT.mk (x.map .ok)

/-- The computation is not stuck, and this is its outcome. -/
def ComesTo (x : Guarded α) (outcome : Except Fault α) : Prop :=
  x.run = some outcome

private theorem comesTo_step (x : Except Fault α) : ComesTo (step x) x :=
  rfl

private theorem comesTo_ask {x : Option α} {a : α} (h : x = some a) : ComesTo (ask x) (.ok a) := by
  rw [h]
  rfl

private theorem comesTo_pure (a : α) : ComesTo (pure a) (pure a) :=
  rfl

theorem ComesTo.bind {x : Guarded α} {x' : Except Fault α} {f : α → Guarded β}
    {f' : α → Except Fault β} (hx : ComesTo x x') (hf : ∀ a, x' = .ok a → ComesTo (f a) (f' a)) :
    ComesTo (x >>= f) (x' >>= f') := by
  rw [ComesTo, ExceptT.run_bind, hx]
  cases x' with
  | error fault => rfl
  | ok a => exact hf a rfl

theorem ComesTo.mapM {f : α → Guarded β} {f' : α → Except Fault β} {as : List α}
    (h : ∀ a ∈ as, ComesTo (f a) (f' a)) : ComesTo (as.mapM f) (as.mapM f') := by
  induction as with
  | nil => exact comesTo_pure []
  | cons a as ih =>
    rw [List.mapM_cons, List.mapM_cons]
    refine (h a List.mem_cons_self).bind fun b _ => ?_
    refine (ih fun x hx => h x (List.mem_cons_of_mem _ hx)).bind fun bs _ => ?_
    exact comesTo_pure (b :: bs)

end Guarded

open Guarded

/-! ## Forms -/

/-- Where a dimension of a variable is found. -/
inductive Program.Slot where
  /-- At a position among the sizes; one that holds text has a place for its end mark. -/
  | size (position : Nat) (terminated : Bool)
  /-- In the constant of the variable's own name. -/
  | width
  deriving DecidableEq, Repr

def Program.Slot.extent? (counts : List Count) (name : String) : Slot → Option Extent
  | .size position terminated => counts[position]?.map (⟨·, terminated⟩)
  | .width => some ⟨.constant (constantName name), true⟩

namespace Form

/-- The number of loops, if a width can be taken from the dimensions. -/
def loopDepth? (f : Form) : Option Nat :=
  match f.item with
  | .char => if 1 ≤ f.arity then some (f.arity - 1) else none
  | .number | .string => some f.arity

def slots : Form → List Slot
  | ⟨.single, .number, _⟩ => []
  | ⟨.single, .string, _⟩ => [.width]
  | ⟨.harray, .number, _⟩ | ⟨.varray, .number, _⟩ => [.size 0 false]
  | ⟨.harray, .string, _⟩ | ⟨.varray, .string, _⟩ => [.size 0 false, .width]
  | ⟨.harray, .char, _⟩ => [.size 0 true]
  | ⟨.matrix, .number, _⟩ => [.size 0 false, .size 1 false]
  | ⟨.matrix, .string, _⟩ => [.size 0 false, .size 1 false, .width]
  | ⟨.matrix, .char, _⟩ => [.size 0 false, .size 1 true]

def extents? (f : Form) (counts : List Count) (name : String) : Option (List Extent) :=
  f.slots.mapM (Slot.extent? counts name)

def declarations? (f : Form) (counts : List Count) (names : List String) :
    Option (List Declaration) := do
  let declared ← names.mapM fun name => return ⟨name, ← f.extents? counts name⟩
  match f.layout, f.item with
  | .single, .number => return [⟨f.base, declared⟩]
  | _, _ => return declared.map fun v => ⟨f.base, [v]⟩

def loops? (f : Form) (sizes : List Size) : Option (List Loop) := do
  (List.range (← f.loopDepth?)).mapM fun position =>
    return ⟨← [Index.i, Index.j][position]?, ← sizes[position]?⟩

def readStatement? (f : Form) (sizes : List Size) (names : List String) :
    Option ReadStatement := do
  return ⟨← f.loops? sizes, names.map fun name => (f.conversion, f.target name)⟩

end Form

/-! ## Definitions, programs and reports -/

def Definition.declarations? (constants : List Constant) (d : Definition) :
    Guarded (List Declaration) := do
  let form ← step d.form
  let counts ← step (d.sizes.mapM (Size.resolve constants))
  ask (form.declarations? counts d.names)

def Definition.readStatement? (d : Definition) : Guarded ReadStatement := do
  let form ← step d.form
  ask (form.readStatement? d.sizes d.names)

def Program.declarationsOf? (constants : List Constant) (ds : List Definition) :
    Guarded (List Declaration) := do
  return (← ds.mapM (Definition.declarations? constants)).flatten

def Program.readStatementsOf? (ds : List Definition) : Guarded (List ReadStatement) :=
  ds.mapM Definition.readStatement?

def Program.ofDefinitions? (constants : List Constant) (ds : List Definition) :
    Guarded Program := do
  let declarations ← declarationsOf? constants ds
  let reads ← readStatementsOf? ds
  return ⟨constants, declarations, reads⟩

def Program.generate? (extractor : Extractor) (ds : List Definition) (description : String) :
    Guarded String := do
  let constants ← step (extractor description)
  let program ← ofDefinitions? constants ds
  return program.text

def Definition.findings? (constants : List Constant) (index : Nat) (d : Definition) :
    Option Report := do
  match ← (d.declarations? constants *> d.readStatement?).run with
  | .ok _ => return (d.missingWidths constants).map (⟨.warning, some index, ·⟩)
  | .error fault => return [⟨.error, some index, fault⟩]

def Report.check? (extractor : Extractor) (ds : List Definition) (description : String) :
    Option Report :=
  match extractor description with
  | .ok constants => do return (← (ds.mapIdx (Definition.findings? constants)).mapM id).flatten
  | .error fault => some [⟨.error, none, fault⟩]

/-! ## Nothing is stuck -/

namespace Form

variable {f : Form} {counts : List Count} {sizes : List Size}

private theorem one_le_arity_of_char (f : Form) (hitem : f.item = .char) : 1 ≤ f.arity := by
  obtain ⟨layout, item, holds⟩ := f
  obtain rfl : item = .char := hitem
  cases layout with
  | single => exact absurd holds (by decide)
  | varray => exact absurd holds (by decide)
  | harray => exact Nat.le_refl 1
  | matrix => exact Nat.le_succ 1

theorem loopDepth?_eq (f : Form) : f.loopDepth? = some f.loopDepth := by
  unfold loopDepth? loopDepth
  cases hitem : f.item with
  | char => exact if_pos (f.one_le_arity_of_char hitem)
  | number => rfl
  | string => rfl

theorem position_lt_arity {position : Nat} {terminated : Bool}
    (h : .size position terminated ∈ f.slots) : position < f.arity := by
  unfold slots at h
  split at h
  all_goals
    simp only [List.mem_cons, List.not_mem_nil, or_false, Slot.size.injEq, reduceCtorEq] at h
  all_goals
    simp only [arity, Layout.arity]
    omega

theorem extents?_eq (hcounts : counts.length = f.arity) (name : String) :
    f.extents? counts name = some (f.extents counts name) := by
  obtain ⟨layout, item, holds⟩ := f
  cases layout with
  | single =>
    obtain rfl := List.length_eq_zero_iff.1 hcounts
    cases item with
    | number => rfl
    | string => rfl
    | char => exact absurd holds (by decide)
  | harray =>
    obtain ⟨c, rfl⟩ := List.length_eq_one_iff.1 hcounts
    cases item <;> rfl
  | varray =>
    obtain ⟨c, rfl⟩ := List.length_eq_one_iff.1 hcounts
    cases item with
    | number => rfl
    | string => rfl
    | char => exact absurd holds (by decide)
  | matrix =>
    obtain ⟨c, c', rfl⟩ := List.length_eq_two.1 hcounts
    cases item <;> rfl

/-- A matrix with one count alone is stuck at the position of the other. -/
example : (Form.mk .matrix .number rfl).extents? [.literal 3] "A" = none := by decide

theorem declarations?_eq (hcounts : counts.length = f.arity) (names : List String) :
    f.declarations? counts names = some (f.declarations counts names) := by
  have hdeclared : (names.mapM fun name => do
      return (⟨name, ← f.extents? counts name⟩ : Variable)) =
        some (names.map fun name => ⟨name, f.extents counts name⟩) := by
    refine mapM_eq_some_map fun name _ => ?_
    rw [extents?_eq hcounts]
    rfl
  rw [declarations?, hdeclared]
  unfold declarations
  cases f.layout <;> cases f.item <;> rfl

/-- No loop is lost where neither the variables nor the sizes end before the loops do. -/
private theorem mapM_loop_eq {indices : List Index} {depth : Nat}
    (hindices : depth ≤ indices.length) (hsizes : depth ≤ sizes.length) :
    ((List.range depth).mapM fun position => do
      return (⟨← indices[position]?, ← sizes[position]?⟩ : Loop)) =
        some ((indices.take depth).zipWith Loop.mk sizes) := by
  rw [mapM_eq_some_iff]
  apply List.ext_getElem
  · simp only [List.length_map, List.length_range, List.length_zipWith, List.length_take]
    omega
  · intro position hposition _
    have hdepth : position < depth := by simpa using hposition
    have hindex : indices[position]? = some indices[position] :=
      List.getElem?_eq_getElem (Nat.lt_of_lt_of_le hdepth hindices)
    have hsize : sizes[position]? = some sizes[position] :=
      List.getElem?_eq_getElem (Nat.lt_of_lt_of_le hdepth hsizes)
    simp [hindex, hsize]

theorem loops?_eq (hsizes : sizes.length = f.arity) :
    f.loops? sizes = some (f.indices.zipWith Loop.mk sizes) := by
  have hdepth : f.loopDepth ≤ sizes.length := hsizes ▸ f.loopDepth_le_arity
  have hindices : f.loopDepth ≤ [Index.i, Index.j].length :=
    Nat.le_trans f.loopDepth_le_arity f.arity_le_two
  rw [loops?, loopDepth?_eq]
  exact mapM_loop_eq hindices hdepth

theorem readStatement?_eq (hsizes : sizes.length = f.arity) (names : List String) :
    f.readStatement? sizes names = some (f.readStatement sizes names) := by
  rw [readStatement?, loops?_eq hsizes]
  rfl

end Form

namespace Definition

variable {d : Definition} {f : Form}

private theorem length_counts_of_form (hform : d.form = .ok f) {constants : List Constant}
    {counts : List Count} (hcounts : d.sizes.mapM (Size.resolve constants) = .ok counts) :
    counts.length = f.arity := by
  rw [(Size.mapM_resolve_eq_ok_iff.1 hcounts).1, List.length_map, length_sizes_of_form hform]

theorem comesTo_declarations (constants : List Constant) (d : Definition) :
    (d.declarations? constants).ComesTo (d.declarations constants) := by
  refine (comesTo_step d.form).bind fun f hform => ?_
  refine (comesTo_step _).bind fun counts hcounts => ?_
  exact comesTo_ask (Form.declarations?_eq (length_counts_of_form hform hcounts) d.names)

theorem comesTo_readStatement (d : Definition) : d.readStatement?.ComesTo d.readStatement := by
  refine (comesTo_step d.form).bind fun f hform => ?_
  exact comesTo_ask (Form.readStatement?_eq (length_sizes_of_form hform) d.names)

theorem findings?_eq (constants : List Constant) (index : Nat) (d : Definition) :
    d.findings? constants index = some (d.findings constants index) := by
  have hrun : (d.declarations? constants *> d.readStatement?).ComesTo
      (d.declarations constants *> d.readStatement) :=
    (comesTo_declarations constants d).bind fun _ _ => comesTo_readStatement d
  rw [findings?, hrun, findings]
  cases d.declarations constants *> d.readStatement with
  | error fault => rfl
  | ok r => rfl

end Definition

namespace Program

theorem comesTo_declarationsOf (constants : List Constant) (ds : List Definition) :
    (declarationsOf? constants ds).ComesTo (declarationsOf constants ds) := by
  refine (ComesTo.mapM fun d _ => Definition.comesTo_declarations constants d).bind fun _ _ => ?_
  exact comesTo_pure _

theorem comesTo_readStatementsOf (ds : List Definition) :
    (readStatementsOf? ds).ComesTo (readStatementsOf ds) :=
  ComesTo.mapM fun d _ => Definition.comesTo_readStatement d

theorem comesTo_ofDefinitions (constants : List Constant) (ds : List Definition) :
    (ofDefinitions? constants ds).ComesTo (ofDefinitions constants ds) := by
  refine (comesTo_declarationsOf constants ds).bind fun declarations _ => ?_
  refine (comesTo_readStatementsOf ds).bind fun reads _ => ?_
  exact comesTo_pure _

theorem comesTo_generate (extractor : Extractor) (ds : List Definition) (description : String) :
    (generate? extractor ds description).ComesTo (generate extractor ds description) := by
  refine (comesTo_step (extractor description)).bind fun constants _ => ?_
  refine (comesTo_ofDefinitions constants ds).bind fun p _ => ?_
  exact comesTo_pure _

end Program

theorem Report.check?_eq (extractor : Extractor) (ds : List Definition) (description : String) :
    check? extractor ds description = some (check extractor ds description) := by
  rw [check?, check]
  cases extractor description with
  | error fault => rfl
  | ok constants =>
    have hfindings : (ds.mapIdx (Definition.findings? constants)).mapM id =
        some (ds.mapIdx (Definition.findings constants)) := by
      rw [mapM_eq_some_iff, List.map_id]
      apply List.ext_getElem?
      intro index
      rw [List.getElem?_map, List.getElem?_mapIdx, List.getElem?_mapIdx]
      cases ds[index]? with
      | none => rfl
      | some d => exact congrArg some (Definition.findings?_eq constants index d)
    simp only [hfindings]
    rfl

/-- Whatever definitions and constants there are, no declaration, no input statement, no program
and no check is stuck at a position that a list does not have or at a width that no dimension
gives, and each comes to the outcome of the functions that know no positions. The positions that a
form asks for are below the number of counts, and no loop is lost for want of a variable or a
size. -/
theorem Program.never_stuck (extractor : Extractor) (constants : List Constant)
    (ds : List Definition) (description : String) :
    (declarationsOf? constants ds).run = some (declarationsOf constants ds) ∧
    (readStatementsOf? ds).run = some (readStatementsOf ds) ∧
    (generate? extractor ds description).run = some (generate extractor ds description) ∧
    Report.check? extractor ds description = some (Report.check extractor ds description) ∧
    (∀ f : Form, f.loopDepth? = some f.loopDepth ∧ (f.item = .char → 1 ≤ f.arity)) ∧
    ∀ (d : Definition) (f : Form), d.form = .ok f →
      (∀ counts, d.sizes.mapM (Size.resolve constants) = .ok counts →
        ∀ position terminated, .size position terminated ∈ f.slots → position < counts.length) ∧
      f.loopDepth ≤ d.sizes.length ∧ f.loopDepth ≤ [Index.i, Index.j].length ∧
      (f.readStatement d.sizes d.names).loops.length = f.loopDepth := by
  refine ⟨comesTo_declarationsOf constants ds, comesTo_readStatementsOf ds,
    comesTo_generate extractor ds description, Report.check?_eq extractor ds description,
    fun f => ⟨f.loopDepth?_eq, f.one_le_arity_of_char⟩, fun d f hform => ?_⟩
  have hsizes := Definition.length_sizes_of_form hform
  refine ⟨fun counts hcounts position terminated hslot => ?_, ?_, ?_, ?_⟩
  · rw [Definition.length_counts_of_form hform hcounts]
    exact Form.position_lt_arity hslot
  · rw [hsizes]
    exact f.loopDepth_le_arity
  · exact Nat.le_trans f.loopDepth_le_arity f.arity_le_two
  · exact f.length_loops hsizes d.names

/-- Rows of characters ask for both their sizes, and are run over by one loop alone. -/
theorem Program.never_stuck_rows :
    let constants : List Constant := [⟨"H_MAX", 50⟩]
    let f : Form := ⟨.matrix, .char, rfl⟩
    let d : Definition := ⟨.matrix, .char, ["S"], [.symbol "H", .literal 3]⟩
    let counts : List Count := [.constant "H_MAX", .literal 3]
    d.form = .ok f ∧ d.sizes.mapM (Size.resolve constants) = .ok counts ∧
    f.slots = [.size 0 false, .size 1 true] ∧ 1 < counts.length ∧
    (f.readStatement d.sizes d.names).loops.length = f.loopDepth ∧
    (declarationsOf? constants [d, ⟨.matrix, .char, ["T"], []⟩]).run =
      some (.error (.sizeArity .matrix 2 0)) := by
  intro constants f d counts
  have hform : d.form = .ok f := by rfl
  have hcounts : d.sizes.mapM (Size.resolve constants) = .ok counts := by decide +kernel
  obtain ⟨hdeclarations, -, -, -, -, hpositions⟩ := never_stuck Bound.extract constants
    [d, ⟨.matrix, .char, ["T"], []⟩] ""
  obtain ⟨hslots, -, -, hloops⟩ := hpositions d f hform
  refine ⟨hform, hcounts, rfl, hslots counts hcounts 1 true (by decide), hloops, ?_⟩
  rw [hdeclarations]
  decide +kernel

end ContestInput

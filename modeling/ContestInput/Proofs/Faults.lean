import ContestInput.Proofs.Program.References
/-!
# The fault that is told

Several things can be wrong with a definition at once. They have an order, and what is told is the
first that applies: the names, then the sizes, then the pair of layout and item, and at last a
symbol without its constant. Of several definitions the first with a fault is the one told of.
-/

namespace ContestInput

open Fallible

/-- The fault is of the first kind in the list that has any fault at all. -/
inductive FirstOf : List (Fault → Prop) → Fault → Prop where
  | here {kind : Fault → Prop} {kinds : List (Fault → Prop)} {fault : Fault} : kind fault →
      FirstOf (kind :: kinds) fault
  | later {kind : Fault → Prop} {kinds : List (Fault → Prop)} {fault : Fault} :
      (∀ f, ¬ kind f) → FirstOf kinds fault → FirstOf (kind :: kinds) fault

def Fault.IsUnresolved (fault : Fault) : Prop :=
  ∃ symbol constant, fault = .unresolvedSize symbol constant

namespace Definition

/-- What can be wrong with the names and the number of sizes. A name that comes twice is told where
it comes again, so the names in front of it are all different. -/
def structuralFaults (d : Definition) : List (Fault → Prop) :=
  [fun fault => d.names = [] ∧ fault = .emptyNames d.layout,
   fun fault => ((d.layout = .harray ∨ d.layout = .matrix) ∧ d.names.length ≠ 1) ∧
     fault = .nameCount d.layout d.names.length,
   fun fault => ∃ before name after, d.names = before ++ name :: after ∧ before.Nodup ∧
     name ∈ before ∧ fault = .duplicateName name,
   fun fault => d.sizes.length ≠ d.layout.arity ∧
     fault = .sizeArity d.layout d.layout.arity d.sizes.length]

def formFaults (d : Definition) : List (Fault → Prop) :=
  d.structuralFaults ++
    [fun fault => ((d.layout = .single ∨ d.layout = .varray) ∧ d.item = .char) ∧
      fault = .unsupportedCombination d.layout d.item]

/-- What can be wrong with a definition, in the order in which it is told. -/
def faults (constants : List Constant) (d : Definition) : List (Fault → Prop) :=
  d.formFaults ++
    [fun fault => ∃ before symbol after, d.sizes = before ++ .symbol symbol :: after ∧
      (∀ s, .symbol s ∈ before → constantName s ∈ constants.map (·.name)) ∧
      constantName symbol ∉ constants.map (·.name) ∧
      fault = .unresolvedSize symbol (constantName symbol)]

/-- The fault of a definition, the first that applies to it. -/
def HasFault (constants : List Constant) (d : Definition) (fault : Fault) : Prop :=
  FirstOf (d.faults constants) fault

end Definition

/-! ## Steps in order of precedence -/

section Steps

variable {α β : Type} {kind : Fault → Prop} {kinds kinds' : List (Fault → Prop)} {fault : Fault}

theorem firstOf_cons :
    FirstOf (kind :: kinds) fault ↔ kind fault ∨ (∀ f, ¬ kind f) ∧ FirstOf kinds fault := by
  constructor
  · intro h
    cases h with
    | here hkind => exact .inl hkind
    | later hnone hrest => exact .inr ⟨hnone, hrest⟩
  · rintro (hkind | ⟨hnone, hrest⟩)
    · exact .here hkind
    · exact .later hnone hrest

theorem not_firstOf_nil : ¬ FirstOf [] fault := by
  intro h
  cases h

private theorem forall_not_firstOf_cons : (∀ f, ¬ FirstOf (kind :: kinds) f) ↔
    (∀ f, ¬ kind f) ∧ ∀ f, ¬ FirstOf kinds f := by
  simp only [firstOf_cons, not_or, forall_and, not_and]
  constructor
  · rintro ⟨hkind, hrest⟩
    exact ⟨hkind, fun f => hrest f hkind⟩
  · rintro ⟨hkind, hrest⟩
    exact ⟨hkind, fun f _ => hrest f⟩

theorem firstOf_append : FirstOf (kinds ++ kinds') fault ↔
    FirstOf kinds fault ∨ (∀ f, ¬ FirstOf kinds f) ∧ FirstOf kinds' fault := by
  induction kinds with
  | nil => simp [not_firstOf_nil]
  | cons kind kinds ih =>
    rw [List.cons_append, firstOf_cons, ih, firstOf_cons, forall_not_firstOf_cons, and_or_left,
      or_assoc, and_assoc]

theorem forall_not_firstOf_iff :
    (∀ f, ¬ FirstOf kinds f) ↔ ∀ kind ∈ kinds, ∀ f, ¬ kind f := by
  induction kinds with
  | nil => simp [not_firstOf_nil]
  | cons kind kinds ih => rw [forall_not_firstOf_cons, ih, List.forall_mem_cons]

theorem FirstOf.exists_kind (h : FirstOf kinds fault) : ∃ kind ∈ kinds, kind fault := by
  induction h with
  | here hkind => exact ⟨_, List.mem_cons_self, hkind⟩
  | later _ _ ih =>
    obtain ⟨kind, hmem, hkind⟩ := ih
    exact ⟨kind, List.mem_cons_of_mem _ hmem, hkind⟩

private theorem ite_eq_error_iff_firstOf {condition : Prop} [Decidable condition] {reason : Fault}
    {rest : Except Fault α}
    (hrest : ¬ condition → (rest = .error fault ↔ FirstOf kinds fault)) :
    (if condition then .error reason else rest) = .error fault ↔
      FirstOf ((fun f => condition ∧ f = reason) :: kinds) fault := by
  rw [firstOf_cons]
  by_cases h : condition
  · simp [h, eq_comm]
  · simp [h, hrest h]

private theorem exists_ok_iff_of_error {x : Except Fault α}
    (hx : ∀ f, x = .error f ↔ FirstOf kinds f) : (∃ a, x = .ok a) ↔ ∀ f, ¬ FirstOf kinds f := by
  simp only [← hx]
  cases x with
  | error e => simp
  | ok a => simp

private theorem bind_eq_error_iff_firstOf {x : Except Fault α} {f : α → Except Fault β}
    (hx : ∀ e, x = .error e ↔ FirstOf kinds e)
    (hf : ∀ a, x = .ok a → (f a = .error fault ↔ FirstOf kinds' fault)) :
    x >>= f = .error fault ↔ FirstOf (kinds ++ kinds') fault := by
  rw [bind_eq_error_iff, firstOf_append, hx, ← exists_ok_iff_of_error hx]
  constructor
  · rintro (h | ⟨a, ha, h⟩)
    · exact .inl h
    · exact .inr ⟨⟨a, ha⟩, (hf a ha).1 h⟩
  · rintro (h | ⟨⟨a, ha⟩, h⟩)
    · exact .inl h
    · exact .inr ⟨a, ha, (hf a ha).2 h⟩

end Steps

/-! ## The steps of a definition -/

private theorem Layout.oneName_eq_true_iff {layout : Layout} :
    layout.oneName = true ↔ layout = .harray ∨ layout = .matrix := by
  cases layout <;> simp [Layout.oneName]

private theorem Layout.not_holds_iff {layout : Layout} {item : Item} :
    ¬ layout.holds item = true ↔ (layout = .single ∨ layout = .varray) ∧ item = .char := by
  cases layout <;> cases item <;> simp [Layout.holds]

namespace Size

variable {constants : List Constant} {size : Size} {sizes : List Size} {fault : Fault}

theorem exists_resolve_iff : (∃ count, size.resolve constants = .ok count) ↔
    ∀ name, size = .symbol name → constantName name ∈ constants.map (·.name) := by
  simp only [resolve_eq_ok_iff, Constant.declares_eq_decide, decide_eq_true_eq]
  simp

theorem resolve_eq_error_iff : size.resolve constants = .error fault ↔
    ∃ name, size = .symbol name ∧ constantName name ∉ constants.map (·.name) ∧
      fault = .unresolvedSize name (constantName name) := by
  cases size with
  | literal value => simp [resolve]
  | symbol name =>
    simp only [resolve, Constant.declares_eq_decide, decide_eq_true_eq]
    by_cases h : constantName name ∈ constants.map (·.name)
    · rw [if_pos h]
      constructor
      · intro hok
        exact absurd hok (by simp)
      · rintro ⟨_, heq, hname, -⟩
        obtain rfl := symbol.inj heq
        exact absurd h hname
    · rw [if_neg h, Except.error.injEq]
      constructor
      · rintro rfl
        exact ⟨name, rfl, h, rfl⟩
      · rintro ⟨_, heq, -, rfl⟩
        rw [symbol.inj heq]

theorem mapM_resolve_eq_error_iff : sizes.mapM (resolve constants) = .error fault ↔
    ∃ before name after, sizes = before ++ .symbol name :: after ∧
      (∀ s, .symbol s ∈ before → constantName s ∈ constants.map (·.name)) ∧
      constantName name ∉ constants.map (·.name) ∧
      fault = .unresolvedSize name (constantName name) := by
  have hbefore (before : List Size) :
      (∀ size ∈ before, ∃ count, size.resolve constants = .ok count) ↔
        ∀ s, .symbol s ∈ before → constantName s ∈ constants.map (·.name) := by
    simp only [exists_resolve_iff]
    constructor
    · intro h s hs
      exact h _ hs s rfl
    · rintro h size hsize name rfl
      exact h name hsize
  simp only [mapM_eq_error_iff, hbefore, resolve_eq_error_iff]
  constructor
  · rintro ⟨before, size, after, rfl, hresolved, name, rfl, hname, rfl⟩
    exact ⟨before, name, after, rfl, hresolved, hname, rfl⟩
  · rintro ⟨before, name, after, rfl, hresolved, hname, rfl⟩
    exact ⟨before, _, after, rfl, hresolved, name, rfl, hname, rfl⟩

end Size

namespace Definition

variable {constants : List Constant} {d : Definition} {fault : Fault}

theorem duplicate_iff : (∃ before name after, d.names = before ++ name :: after ∧ before.Nodup ∧
      name ∈ before ∧ fault = .duplicateName name) ↔
    ∃ name, firstRepeated? [] d.names = some name ∧ fault = .duplicateName name := by
  simp only [firstRepeated?_eq_some_iff, firstRepeated?_eq_none_iff, List.not_mem_nil, or_false,
    not_false_iff, implies_true, and_true]
  constructor
  · rintro ⟨before, name, after, heq, hnodup, hname, rfl⟩
    exact ⟨name, ⟨before, after, heq, hnodup, hname⟩, rfl⟩
  · rintro ⟨name, ⟨before, after, heq, hnodup, hname⟩, rfl⟩
    exact ⟨before, name, after, heq, hnodup, hname, rfl⟩

theorem validate_eq_error_iff :
    d.validate = .error fault ↔ FirstOf d.structuralFaults fault := by
  rw [validate, structuralFaults]
  simp only [List.isEmpty_iff, Bool.and_eq_true, decide_eq_true_eq, Layout.oneName_eq_true_iff]
  refine ite_eq_error_iff_firstOf fun _ => ite_eq_error_iff_firstOf fun _ => ?_
  rw [firstOf_cons, duplicate_iff]
  simp only [duplicate_iff]
  cases hrepeated : firstRepeated? [] d.names with
  | some name => simp [eq_comm]
  | none =>
    simp only [reduceCtorEq, false_and, exists_false, not_false_eq_true, implies_true, true_and,
      false_or]
    refine ite_eq_error_iff_firstOf fun _ => ?_
    simp [not_firstOf_nil]

theorem form_eq_error_iff : d.form = .error fault ↔ FirstOf d.formFaults fault := by
  refine bind_eq_error_iff_firstOf (fun _ => validate_eq_error_iff) fun _ _ => ?_
  rw [Form.of, firstOf_cons, ← Layout.not_holds_iff]
  by_cases h : d.layout.holds d.item = true
  · simp [h, not_firstOf_nil]
  · simp [h, not_firstOf_nil, eq_comm]

theorem declarations_eq_error_iff :
    d.declarations constants = .error fault ↔ d.HasFault constants fault := by
  refine bind_eq_error_iff_firstOf (fun _ => form_eq_error_iff) fun form _ => ?_
  rw [bind_pure_eq_error_iff, Size.mapM_resolve_eq_error_iff, firstOf_cons]
  simp [not_firstOf_nil]

theorem not_isUnresolved_of_formFaults (h : FirstOf d.formFaults fault) :
    ¬ fault.IsUnresolved := by
  obtain ⟨kind, hmem, hkind⟩ := h.exists_kind
  simp only [formFaults, structuralFaults, List.cons_append, List.nil_append, List.mem_cons,
    List.not_mem_nil, or_false] at hmem
  rintro ⟨symbol, constant, rfl⟩
  rcases hmem with rfl | rfl | rfl | rfl | rfl
  all_goals simp at hkind

/-- A statement that reads has the fault of its declaration, unless only a constant is missing. -/
theorem readStatement_eq_error_iff_hasFault (constants : List Constant) :
    d.readStatement = .error fault ↔ d.HasFault constants fault ∧ ¬ fault.IsUnresolved := by
  rw [readStatement_eq_error_iff, form_eq_error_iff, HasFault, faults, firstOf_append]
  constructor
  · intro h
    exact ⟨.inl h, not_isUnresolved_of_formFaults h⟩
  · rintro ⟨h | ⟨-, h⟩, hresolved⟩
    · exact h
    · obtain ⟨kind, hmem, hkind⟩ := h.exists_kind
      obtain rfl := List.mem_singleton.1 hmem
      obtain ⟨-, symbol, -, -, -, -, rfl⟩ := hkind
      exact absurd ⟨symbol, _, rfl⟩ hresolved

theorem exists_declarations_iff : (∃ lines, d.declarations constants = .ok lines) ↔
    ∀ f, ¬ d.HasFault constants f :=
  exists_ok_iff_of_error fun _ => declarations_eq_error_iff

theorem exists_readStatement_iff (constants : List Constant) :
    (∃ r, d.readStatement = .ok r) ↔ ∀ f, d.HasFault constants f → f.IsUnresolved := by
  have herror (f : Fault) : d.readStatement = .error f ↔ _ :=
    readStatement_eq_error_iff_hasFault constants
  cases h : d.readStatement with
  | ok r =>
    simp only [h, reduceCtorEq, false_iff, not_and, not_not] at herror
    exact ⟨fun _ => herror, fun _ => ⟨r, rfl⟩⟩
  | error e =>
    obtain ⟨hfault, hresolved⟩ := (herror e).1 h
    exact ⟨fun ⟨r, hr⟩ => absurd hr (by simp), fun hall => absurd (hall e hfault) hresolved⟩

end Definition

namespace Program

variable {constants : List Constant} {ds : List Definition} {fault : Fault}

theorem declarationsOf_eq_error_iff : declarationsOf constants ds = .error fault ↔
    ∃ before d after, ds = before ++ d :: after ∧ (∀ b ∈ before, ∀ f, ¬ b.HasFault constants f) ∧
      d.HasFault constants fault := by
  rw [declarationsOf, bind_pure_eq_error_iff, mapM_eq_error_iff]
  simp only [Definition.exists_declarations_iff, Definition.declarations_eq_error_iff]

theorem readStatementsOf_eq_error_iff (constants : List Constant) :
    readStatementsOf ds = .error fault ↔ ∃ before d after, ds = before ++ d :: after ∧
      (∀ b ∈ before, ∀ f, b.HasFault constants f → f.IsUnresolved) ∧
        d.HasFault constants fault ∧ ¬ fault.IsUnresolved := by
  rw [readStatementsOf, mapM_eq_error_iff]
  simp only [Definition.exists_readStatement_iff constants,
    Definition.readStatement_eq_error_iff_hasFault constants]

/-- The declarations of definitions fail with the fault of the first definition that has one, and
are written if nothing that can be wrong is wrong with any of them. The statements that read fail
with the first fault that is not about a missing constant. -/
theorem first_fault_told (constants : List Constant) (ds : List Definition) :
    (∀ fault, declarationsOf constants ds = .error fault ↔ ∃ before d after,
      ds = before ++ d :: after ∧ (∀ b ∈ before, ∀ f, ¬ b.HasFault constants f) ∧
        d.HasFault constants fault) ∧
    ((∃ lines, declarationsOf constants ds = .ok lines) ↔
      ∀ d ∈ ds, ∀ kind ∈ d.faults constants, ∀ f, ¬ kind f) ∧
    (∀ fault, readStatementsOf ds = .error fault ↔ ∃ before d after,
      ds = before ++ d :: after ∧ (∀ b ∈ before, ∀ f, b.HasFault constants f → f.IsUnresolved) ∧
        d.HasFault constants fault ∧ ¬ fault.IsUnresolved) ∧
    ((∃ reads, readStatementsOf ds = .ok reads) ↔
      ∀ d ∈ ds, ∀ f, d.HasFault constants f → f.IsUnresolved) := by
  refine ⟨fun fault => declarationsOf_eq_error_iff, ?_,
    fun fault => readStatementsOf_eq_error_iff constants, ?_⟩
  · rw [declarationsOf, exists_bind_pure_eq_ok_iff, exists_mapM_eq_ok_iff]
    simp only [Definition.exists_declarations_iff, Definition.HasFault, forall_not_firstOf_iff]
  · rw [readStatementsOf, exists_mapM_eq_ok_iff]
    simp only [Definition.exists_readStatement_iff constants]

end Program

end ContestInput

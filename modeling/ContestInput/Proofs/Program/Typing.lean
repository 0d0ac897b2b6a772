import ContestInput.Proofs.Program.Input
import ContestInput.Proofs.Program.Storage
/-!
# The types of what is read into

The type that a declaration gives to a variable decides what its subscripts are and what an
address of it points to. An input statement passes one address for each name, and by the name's
own declaration that is the address of a number where numbers are read, and of a text with a
place for its end mark where words are read.
-/

namespace ContestInput.Program

/-! ## Types -/

inductive ObjectType where
  | base (b : BaseType)
  | array (element : ObjectType) (extent : Extent)
  | pointer (target : ObjectType)
  deriving DecidableEq, Repr

namespace ObjectType

def declared (b : BaseType) (extents : List Extent) : ObjectType :=
  extents.foldr (fun extent element => .array element extent) (.base b)

/-- The type of a value. Where an array is used as one, it is the address of its first element. -/
def decay : ObjectType → ObjectType
  | .array element _ => .pointer element
  | t => t

/-- What an address points to. -/
def target? : ObjectType → Option ObjectType
  | .pointer t => some t
  | _ => none

def subscripted? (t : ObjectType) (indices : List Index) : Option ObjectType :=
  indices.foldlM (fun t _ => t.decay.target?) t

end ObjectType

/-- The type of the value that is passed for a target, where the variable has the type `t`. -/
def Target.type? (t : ObjectType) : Target → Option ObjectType
  | .element _ indices => (t.subscripted? indices).map .pointer
  | .buffer _ indices => (t.subscripted? indices).map ObjectType.decay
  | .offset _ _ => t.decay.target?.map .pointer

/-- The read goes by the variables of the loops to the value of a variable that is declared with
this type and these dimensions. -/
structure WellTyped (base : BaseType) (extents : List Extent) (loops : List Loop)
    (read : Conversion × Target) : Prop where
  indices : read.2.indices = loops.map (·.index)
  bounds : extents.take loops.length = loops.map fun l => ⟨l.bound.count, false⟩
  number : base = .int → extents.drop loops.length = [] ∧ read.1 = .decimal ∧
    read.2.type? (.declared base extents) = some (.pointer (.base .int))
  text : base = .char → (∃ width, extents.drop loops.length = [⟨width, true⟩]) ∧
    read.1 = .word ∧ read.2.type? (.declared base extents) = some (.pointer (.base .char))

/-- The statement reads each name of the definition once, at the place that the lines declare. -/
structure Agrees (d : Definition) (lines : List Declaration) (r : ReadStatement) : Prop where
  indices : r.loops.map (·.index) = [Index.i, Index.j].take r.loops.length
  bounds : r.loops.map (·.bound) = d.sizes.take r.loops.length
  names : r.reads.map (·.2.name) = d.names
  wellTyped : ∀ name ∈ d.names, ∃ base extents,
    (∀ b es, Declares lines name b es ↔ b = base ∧ es = extents) ∧
      ∀ read ∈ r.reads, read.2.name = name → WellTyped base extents r.loops read

namespace ObjectType

/-- Each subscript takes one dimension away. -/
theorem subscripted?_declared (b : BaseType) {extents widths : List Extent} {indices : List Index}
    (h : indices.length = extents.length) :
    (declared b (extents ++ widths)).subscripted? indices = some (declared b widths) := by
  induction indices generalizing extents with
  | nil =>
    obtain rfl := List.eq_nil_of_length_eq_zero h.symm
    rfl
  | cons index indices ih =>
    cases extents with
    | nil => exact absurd h (by simp)
    | cons extent extents => exact ih (Nat.succ.inj h)

end ObjectType

private theorem Target.type?_offset (t : ObjectType) (name : String) (index : Index) :
    (offset name index).type? t = (element name [index]).type? t := by
  rw [type?, type?, ObjectType.subscripted?, List.foldlM_cons]
  simp only [List.foldlM_nil, bind_pure]

end ContestInput.Program

namespace ContestInput

open Program

namespace Form

variable {f : Form} {counts : List Count} {sizes : List Size}

private theorem length_take_loopDepth (h : counts.length = f.arity) :
    (counts.take f.loopDepth).length = f.loopDepth := by
  rw [List.length_take, h]
  exact Nat.min_eq_left f.loopDepth_le_arity

theorem type?_target (h : counts.length = f.arity) (name : String) :
    (f.target name).type? (.declared f.base (f.extents counts name)) =
      some (.pointer (.base f.base)) := by
  obtain ⟨widths, hextents, hint, hchar⟩ := f.exists_extents h name
  have hsubscripted : (ObjectType.declared f.base (f.extents counts name)).subscripted? f.indices =
      some (.declared f.base widths) := by
    rw [hextents]
    apply ObjectType.subscripted?_declared
    rw [List.length_map, length_take_loopDepth h, length_indices]
  have hnumber (hitem : f.item = .number) : widths = [] := hint (base_eq_int_iff.2 hitem)
  have htext (hitem : f.item ≠ .number) : ∃ width, widths = [⟨width, true⟩] :=
    hchar (base_eq_char_iff.2 hitem)
  unfold target
  split
  · rename_i index hitem hindices
    rw [Target.type?_offset, Target.type?, ← hindices, hsubscripted, hnumber hitem]
    rfl
  · rename_i indices hitem _
    rw [Target.type?, hsubscripted, hnumber hitem]
    rfl
  · rename_i hitem
    obtain ⟨width, rfl⟩ := htext (by simp [hitem])
    rw [Target.type?, hsubscripted]
    rfl
  · rename_i hitem
    obtain ⟨width, rfl⟩ := htext (by simp [hitem])
    rw [Target.type?, hsubscripted]
    rfl

private theorem conversion_of_base (f : Form) :
    (f.base = .int → f.conversion = .decimal) ∧ (f.base = .char → f.conversion = .word) := by
  rw [base_eq_int_iff, base_eq_char_iff, conversion]
  cases f.item <;> simp

theorem wellTyped_target (f : Form) (hsizes : sizes.length = f.arity) (names : List String)
    (name : String) :
    WellTyped f.base (f.extents (sizes.map Size.count) name) (f.readStatement sizes names).loops
      (f.conversion, f.target name) := by
  have hcounts : (sizes.map Size.count).length = f.arity := by rw [List.length_map, hsizes]
  obtain ⟨hindices, hbounds⟩ := f.loops_readStatement hsizes names
  have hlength := f.length_loops hsizes names
  have htype := type?_target hcounts name
  obtain ⟨widths, hextents, hint, hchar⟩ := f.exists_extents hcounts name
  have htaken : ((sizes.map Size.count).take f.loopDepth).map (Extent.mk · false) =
      (f.readStatement sizes names).loops.map fun l => ⟨l.bound.count, false⟩ := by
    rw [← List.map_take, ← hbounds, List.map_map, List.map_map]
    rfl
  have hdrop : (f.extents (sizes.map Size.count) name).drop f.loopDepth = widths := by
    rw [hextents]
    exact List.drop_left' (by rw [List.length_map, length_take_loopDepth hcounts])
  refine ⟨(f.target_indices name).trans hindices.symm, ?_, ?_, ?_⟩
  · rw [hlength, ← htaken, hextents]
    exact List.take_left' (by rw [List.length_map, length_take_loopDepth hcounts])
  · intro hbase
    rw [hlength, hdrop]
    exact ⟨hint hbase, f.conversion_of_base.1 hbase, hbase ▸ htype⟩
  · intro hbase
    rw [hlength, hdrop]
    exact ⟨hchar hbase, f.conversion_of_base.2 hbase, hbase ▸ htype⟩

end Form

namespace Definition

variable {constants : List Constant} {d : Definition} {lines : List Declaration}

theorem agrees_readStatement (h : d.declarations constants = .ok lines) {f : Form}
    (hform : d.form = .ok f) : Agrees d lines (f.readStatement d.sizes d.names) := by
  have hsizes := length_sizes_of_form hform
  have hlength := f.length_loops hsizes d.names
  obtain ⟨hindices, hbounds⟩ := f.loops_readStatement hsizes d.names
  refine ⟨?_, ?_, ?_, ?_⟩
  · rw [hindices, hlength]
    rfl
  · rw [hbounds, hlength]
  · have hread : (fun read => read.2.name) ∘ (fun name => (f.conversion, f.target name)) = id :=
      funext f.target_name
    rw [Form.readStatement, List.map_map, hread, List.map_id]
  · intro name hname
    refine ⟨f.base, f.extents (d.sizes.map Size.count) name, ?_, ?_⟩
    · intro b es
      rw [declares_iff h hform]
      exact and_iff_right hname
    · intro read hread hreads
      obtain ⟨x, -, rfl⟩ := List.mem_map.1 hread
      obtain rfl : x = name := (f.target_name x).symm.trans hreads
      exact f.wellTyped_target hsizes d.names x

/-- With identifiers for names and symbols, what a definition declares and what it reads are read
back from their lines, there is one loop for each dimension that is run over, and every variable
is read as it was declared. -/
theorem statement_agrees_with_declarations
    (hnames : ∀ name ∈ d.names, isIdentifier name = true)
    (hsymbols : ∀ name, .symbol name ∈ d.sizes → isIdentifier name = true)
    (h : d.declarations constants = .ok lines) :
    ∃ f r, d.form = .ok f ∧ d.readStatement = .ok r ∧ r.loops.length = f.loopDepth ∧
      (lines.map Declaration.text).mapM Declaration.ofText? = some lines ∧
      ReadStatement.ofText? r.text = some r ∧ Agrees d lines r := by
  obtain ⟨f, hform, -⟩ := declarations_eq_ok_iff.1 h
  have hread : d.readStatement = .ok (f.readStatement d.sizes d.names) :=
    readStatement_eq_ok_iff.2 ⟨f, hform, rfl⟩
  have hlines := isReadable_of_declarations h hnames hsymbols
  refine ⟨f, f.readStatement d.sizes d.names, hform, hread,
    f.length_loops (length_sizes_of_form hform) d.names, ?_, ?_, agrees_readStatement h hform⟩
  · exact Fallible.mapM_map_eq_some fun line hline => Declaration.ofText?_text (hlines line hline)
  · exact ReadStatement.ofText?_text (isReadable_of_readStatement hread hnames hsymbols)

theorem statement_agrees_with_declarations_matrix :
    let d : Definition := ⟨.matrix, .string, ["S"], [.symbol "R", .literal 3]⟩
    let lines : List Declaration := [⟨.char,
      [⟨"S", [⟨.constant "R_MAX", false⟩, ⟨.literal 3, false⟩, ⟨.constant "S_MAX", true⟩]⟩]⟩]
    (∀ name ∈ d.names, isIdentifier name = true) ∧
    (∀ name, .symbol name ∈ d.sizes → isIdentifier name = true) ∧
    d.declarations [⟨"R_MAX", 100⟩] = .ok lines ∧
    ∃ f r, d.form = .ok f ∧ d.readStatement = .ok r ∧ r.loops.length = f.loopDepth ∧
      (lines.map Declaration.text).mapM Declaration.ofText? = some lines ∧
      ReadStatement.ofText? r.text = some r ∧ Agrees d lines r := by
  intro d lines
  have hnames : ∀ name ∈ d.names, isIdentifier name = true := by decide
  have hsymbols : ∀ name, .symbol name ∈ d.sizes → isIdentifier name = true := by
    intro name hname
    obtain rfl : name = "R" := by simpa [d] using hname
    decide
  have h : d.declarations [⟨"R_MAX", 100⟩] = .ok lines := by decide +kernel
  exact ⟨hnames, hsymbols, h, statement_agrees_with_declarations hnames hsymbols h⟩

end Definition

end ContestInput

import ContestInput.Proofs.Form
import ContestInput.Proofs.Program.Lines
/-!
# What the input statement of a definition reads

The statement of a definition has one loop for each dimension that is run over, with the size of
that dimension for a bound, and reads each name once, at the variables of all its loops.
-/

namespace ContestInput

open Program Fallible

namespace Form

variable {f : Form} {sizes : List Size} {names : List String}

theorem loopDepth_le_arity (f : Form) : f.loopDepth ≤ f.arity := by
  unfold loopDepth
  split <;> omega

theorem arity_le_two (f : Form) : f.arity ≤ 2 := by
  unfold arity Layout.arity
  split <;> omega

theorem length_indices (f : Form) : f.indices.length = f.loopDepth := by
  have hdepth : f.loopDepth ≤ 2 := Nat.le_trans f.loopDepth_le_arity f.arity_le_two
  rw [indices, List.length_take]
  exact Nat.min_eq_left hdepth

theorem nodup_indices (f : Form) : f.indices.Nodup :=
  List.Nodup.sublist (List.take_sublist _ _) (by decide)

private theorem map_zipWith_loop {indices : List Index} (h : indices.length ≤ sizes.length) :
    (indices.zipWith Loop.mk sizes).map (·.index) = indices ∧
      (indices.zipWith Loop.mk sizes).map (·.bound) = sizes.take indices.length := by
  induction indices generalizing sizes with
  | nil => simp
  | cons index indices ih =>
    cases sizes with
    | nil => simp at h
    | cons size sizes =>
      obtain ⟨hindices, hbounds⟩ := @ih sizes (by simpa using h)
      simp [hindices, hbounds]

theorem loops_readStatement (f : Form) (hsizes : sizes.length = f.arity) (names : List String) :
    (f.readStatement sizes names).loops.map (·.index) = f.indices ∧
      (f.readStatement sizes names).loops.map (·.bound) = sizes.take f.loopDepth := by
  have hlength : f.indices.length ≤ sizes.length := by
    rw [length_indices, hsizes]
    exact f.loopDepth_le_arity
  rw [← length_indices]
  exact map_zipWith_loop hlength

theorem length_loops (f : Form) (hsizes : sizes.length = f.arity) (names : List String) :
    (f.readStatement sizes names).loops.length = f.loopDepth := by
  rw [← length_indices, ← (f.loops_readStatement hsizes names).1, List.length_map]

theorem bound_mem_sizes (hsizes : sizes.length = f.arity) {l : Loop}
    (h : l ∈ (f.readStatement sizes names).loops) : l.bound ∈ sizes := by
  have hmem : l.bound ∈ (f.readStatement sizes names).loops.map (·.bound) := List.mem_map_of_mem h
  rw [(f.loops_readStatement hsizes names).2] at hmem
  exact List.mem_of_mem_take hmem

theorem target_name (f : Form) (name : String) : (f.target name).name = name := by
  unfold target
  split <;> rfl

theorem target_indices (f : Form) (name : String) : (f.target name).indices = f.indices := by
  unfold target
  split
  · rename_i index hindices
    exact hindices.symm
  · rfl
  · rfl
  · rfl

end Form

namespace Definition

variable {d : Definition} {f : Form} {r : ReadStatement}

theorem readStatement_eq_ok_iff : d.readStatement = .ok r ↔
    ∃ f, d.form = .ok f ∧ r = f.readStatement d.sizes d.names := by
  rw [readStatement, bind_eq_ok_iff]
  refine exists_congr fun f => and_congr_right fun _ => ?_
  rw [pure_eq_ok_iff]
  exact eq_comm

theorem length_sizes_of_form (h : d.form = .ok f) : d.sizes.length = f.arity := by
  obtain ⟨hvalid, hlayout, -⟩ := form_eq_ok_iff.1 h
  rw [hvalid.arity, Form.arity, hlayout]

/-- The dimensions that are not the width of a text. -/
def loopSizes (d : Definition) : List Size :=
  if d.item = .char then d.sizes.dropLast else d.sizes

theorem loopSizes_eq (hform : d.form = .ok f) : d.loopSizes = d.sizes.take f.loopDepth := by
  have hsizes := length_sizes_of_form hform
  obtain ⟨-, -, hitem⟩ := form_eq_ok_iff.1 hform
  rw [loopSizes, ← hitem, Form.loopDepth]
  cases f.item with
  | char => rw [if_pos rfl, List.dropLast_eq_take, hsizes]
  | number => rw [if_neg (by simp), List.take_of_length_le (Nat.le_of_eq hsizes)]
  | string => rw [if_neg (by simp), List.take_of_length_le (Nat.le_of_eq hsizes)]

theorem isReadable_of_readStatement (h : d.readStatement = .ok r)
    (hnames : ∀ name ∈ d.names, isIdentifier name = true)
    (hsymbols : ∀ name, .symbol name ∈ d.sizes → isIdentifier name = true) : r.IsReadable := by
  obtain ⟨f, hform, rfl⟩ := readStatement_eq_ok_iff.1 h
  have hvalid := (form_eq_ok_iff.1 hform).1
  refine ⟨by simpa [Form.readStatement] using hvalid.names_ne_nil, ?_, ?_⟩
  · intro read hread
    obtain ⟨name, hname, rfl⟩ := List.mem_map.1 hread
    rw [Form.target_name]
    exact hnames name hname
  · intro l hl name hbound
    exact hsymbols name (hbound ▸ Form.bound_mem_sizes (length_sizes_of_form hform) hl)

end Definition

end ContestInput

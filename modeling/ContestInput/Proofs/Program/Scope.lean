import ContestInput.Proofs.Program.Input
import ContestInput.Proofs.Program.Source
/-!
# The scope of a program's names

A program uses names for constants, variables and the variables of its loops, and all of them share
the scope of the file or of a function inside it. A check judges each definition by itself, so it
keeps the names of one definition apart and leaves open how definitions, constants and loops stand
to each other. What is left open is told here: a program without findings is well scoped exactly if
its definitions are coherent.
-/

namespace ContestInput

open Fallible

/-! ## Lists that agree item by item -/

section Agreement

variable {α β : Type} {R : α → β → Prop} {as : List α} {bs : List β}

private theorem forall_mem_iff_of_forall₂ {P : α → Prop} {Q : β → Prop} (h : List.Forall₂ R as bs)
    (hiff : ∀ a b, R a b → (P a ↔ Q b)) : (∀ a ∈ as, P a) ↔ ∀ b ∈ bs, Q b := by
  induction h with
  | nil => simp
  | cons hab _ ih => rw [List.forall_mem_cons, List.forall_mem_cons, hiff _ _ hab, ih]

private theorem exists_mem_iff_of_forall₂ {P : α → Prop} {Q : β → Prop} (h : List.Forall₂ R as bs)
    (hiff : ∀ a b, R a b → (P a ↔ Q b)) : (∃ a ∈ as, P a) ↔ ∃ b ∈ bs, Q b := by
  induction h with
  | nil => simp
  | cons hab _ ih => rw [List.exists_mem_cons_iff, List.exists_mem_cons_iff, hiff _ _ hab, ih]

private theorem forall_getElem?_iff_of_forall₂ {P : Nat → α → Prop} {Q : Nat → β → Prop}
    (h : List.Forall₂ R as bs) (hiff : ∀ k a b, R a b → (P k a ↔ Q k b)) :
    (∀ k a, as[k]? = some a → P k a) ↔ ∀ k b, bs[k]? = some b → Q k b := by
  induction h generalizing P Q with
  | nil => simp
  | cons hab _ ih =>
    -- Position 0 is the head's, and position k + 1 is position k of the tail.
    rw [← Nat.and_forall_add_one, ← Nat.and_forall_add_one (p := fun k => ∀ b, _ → Q k b)]
    simp only [List.getElem?_cons_zero, List.getElem?_cons_succ, Option.some.injEq, forall_eq']
    exact and_congr (hiff 0 _ _ hab) (ih fun k => hiff (k + 1))

end Agreement

/-! ## Names in programs -/

def Size.symbol? : Size → Option String
  | .literal _ => none
  | .symbol name => some name

private theorem Size.symbol?_eq_some_iff {size : Size} {name : String} :
    size.symbol? = some name ↔ size = .symbol name := by
  cases size <;> simp [symbol?]

namespace Program

def declaredNames (p : Program) : List String :=
  (p.declarations.flatMap (·.declared)).map (·.name)

namespace ReadStatement

def names (r : ReadStatement) : List String :=
  r.reads.map (·.2.name)

def bounds (r : ReadStatement) : List String :=
  (r.loops.map (·.bound)).filterMap Size.symbol?

def indices (r : ReadStatement) : List String :=
  (r.loops.map (·.index)).map Index.text

/-- The statement reads the variable as a single number, outside of any loop. -/
def ReadsNumber (r : ReadStatement) (name : String) : Prop :=
  r.loops = [] ∧ (.decimal, .element name []) ∈ r.reads

end ReadStatement

/-- Every name of a program stands for one thing, and the bounds of loops are known in time. -/
structure WellScoped (p : Program) : Prop where
  /-- No variable is declared twice. -/
  nodup : p.declaredNames.Nodup
  notMem_constants : ∀ name ∈ p.declaredNames, name ∉ p.constants.map (·.name)
  /-- A statement further up reads the number. -/
  bounds_read : ∀ k r, p.reads[k]? = some r → ∀ name ∈ r.bounds,
    ∃ r' ∈ p.reads.take k, r'.ReadsNumber name
  /-- No loop variable hides a variable that is read, or a bound. -/
  notMem_indices : ∀ r ∈ p.reads, ∀ name ∈ r.names ++ r.bounds, name ∉ r.indices

/-- The text is the template with the lines of the program at its markers, and the declarations and
input statements are read back from their lines. -/
structure IsSource (p : Program) (text : String) : Prop where
  eq_block : text = Template.block (Template.lines (Template.block (p.constants.map Constant.line))
    (Template.block (p.declarations.map Declaration.text))
    (Template.block (p.reads.map fun read => "  " ++ read.text)))
  declarations : ∀ line ∈ p.declarations, Declaration.ofText? line.text = some line
  reads : ∀ r ∈ p.reads, ReadStatement.ofText? r.text = some r

end Program

open Program

/-! ## Names in definitions -/

namespace Definition

/-- The names among the dimensions that are not the width of a text. -/
def loopSymbols (d : Definition) : List String :=
  d.loopSizes.filterMap Size.symbol?

def loopIndices (d : Definition) : List String :=
  ([Index.i, Index.j].take d.loopSizes.length).map Index.text

/-- The definition has the number among its single numbers. -/
def HasNumber (d : Definition) (name : String) : Prop :=
  d.layout = .single ∧ d.item = .number ∧ name ∈ d.names

/-- Definitions stand to each other, and to constants and loop variables, as the names of a program
need it. -/
structure Coherent (constants : List Constant) (ds : List Definition) : Prop where
  disjoint : ds.Pairwise fun d d' => d.names.Disjoint d'.names
  notMem_constants : ∀ d ∈ ds, ∀ name ∈ d.names, name ∉ constants.map (·.name)
  counted : ∀ k d, ds[k]? = some d → ∀ name ∈ d.loopSymbols, ∃ d' ∈ ds.take k, d'.HasNumber name
  notMem_indices : ∀ d ∈ ds, ∀ name ∈ d.names ++ d.loopSymbols, name ∉ d.loopIndices

variable {constants : List Constant} {d : Definition} {f : Form} {lines : List Declaration}
  {r : ReadStatement}

private theorem mem_sizes_of_mem_loopSymbols {name : String} (h : name ∈ d.loopSymbols) :
    .symbol name ∈ d.sizes := by
  obtain ⟨size, hsize, hname⟩ := List.mem_filterMap.1 h
  rw [← Size.symbol?_eq_some_iff.1 hname]
  rw [loopSizes] at hsize
  split at hsize
  · exact List.mem_of_mem_dropLast hsize
  · exact hsize

theorem declaredNames_of_declarations (h : d.declarations constants = .ok lines) :
    (lines.flatMap (·.declared)).map (·.name) = d.names := by
  obtain ⟨f, -, rfl, -⟩ := declarations_eq_ok_iff.1 h
  rw [Form.flatMap_declared, List.map_map]
  exact List.map_id' _

theorem names_of_readStatement (h : d.readStatement = .ok r) : r.names = d.names := by
  obtain ⟨f, -, rfl⟩ := readStatement_eq_ok_iff.1 h
  rw [ReadStatement.names, Form.readStatement, List.map_map]
  simp only [Function.comp_def, Form.target_name, List.map_id']

theorem bounds_of_readStatement (h : d.readStatement = .ok r) : r.bounds = d.loopSymbols := by
  obtain ⟨f, hform, rfl⟩ := readStatement_eq_ok_iff.1 h
  rw [ReadStatement.bounds, (f.loops_readStatement (length_sizes_of_form hform) _).2, loopSymbols,
    loopSizes_eq hform]

theorem indices_of_readStatement (h : d.readStatement = .ok r) : r.indices = d.loopIndices := by
  obtain ⟨f, hform, rfl⟩ := readStatement_eq_ok_iff.1 h
  have hsizes := length_sizes_of_form hform
  have hlength : d.loopSizes.length = f.loopDepth := by
    rw [loopSizes_eq hform, List.length_take, hsizes]
    exact Nat.min_eq_left f.loopDepth_le_arity
  rw [ReadStatement.indices, (f.loops_readStatement hsizes _).1, loopIndices, hlength]
  rfl

theorem readsNumber_iff (h : d.readStatement = .ok r) {name : String} :
    r.ReadsNumber name ↔ d.HasNumber name := by
  obtain ⟨f, hform, rfl⟩ := readStatement_eq_ok_iff.1 h
  obtain ⟨-, hlayout, hitem⟩ := form_eq_ok_iff.1 hform
  have hloops : (f.readStatement d.sizes d.names).loops = [] ↔ f.loopDepth = 0 := by
    rw [← f.length_loops (length_sizes_of_form hform) d.names, List.length_eq_zero_iff]
  rw [ReadStatement.ReadsNumber, hloops, HasNumber, ← hlayout, ← hitem]
  constructor
  · rintro ⟨hdepth, hread⟩
    obtain ⟨v, hv, heq⟩ := List.mem_map.1 hread
    obtain ⟨hconversion, htarget⟩ := Prod.mk.inj heq
    obtain rfl : v = name := by rw [← f.target_name v, htarget, Target.name]
    have hnumber : f.item = .number := by
      unfold Form.conversion at hconversion
      cases hf : f.item <;> simp [hf] at hconversion ⊢
    have harity : f.layout.arity = 0 := by
      rw [Form.loopDepth, hnumber] at hdepth
      exact hdepth
    have hsingle : f.layout = .single := by
      cases hf : f.layout <;> simp [hf, Layout.arity] at harity ⊢
    exact ⟨hsingle, hnumber, hv⟩
  · rintro ⟨hsingle, hnumber, hname⟩
    have hdepth : f.loopDepth = 0 := by
      rw [Form.loopDepth, hnumber, Form.arity, hsingle]
      rfl
    refine ⟨hdepth, List.mem_map.2 ⟨name, hname, ?_⟩⟩
    rw [Form.conversion, Form.target, Form.indices, hdepth, hnumber]
    rfl

end Definition

/-! ## The scope of generated programs -/

namespace Program

variable {constants : List Constant} {ds : List Definition} {p : Program}

theorem declaredNames_eq (h : ofDefinitions constants ds = .ok p) :
    p.declaredNames = ds.flatMap (·.names) := by
  obtain ⟨groups, hflatten, hgroups⟩ := exists_groups_of_ofDefinitions h
  rw [declaredNames, hflatten]
  clear h hflatten
  induction hgroups with
  | nil => rfl
  | cons hd _ ih =>
    rw [List.flatten_cons, List.flatMap_append, List.map_append, List.flatMap_cons,
      Definition.declaredNames_of_declarations hd, ih]

theorem nodup_declaredNames_iff (h : ofDefinitions constants ds = .ok p) :
    p.declaredNames.Nodup ↔
      (∀ d ∈ ds, d.names.Nodup) ∧ ds.Pairwise fun d d' => d.names.Disjoint d'.names := by
  rw [declaredNames_eq h, List.nodup_flatMap]

theorem forall_declaredNames_iff {P : String → Prop} (h : ofDefinitions constants ds = .ok p) :
    (∀ name ∈ p.declaredNames, P name) ↔ ∀ d ∈ ds, ∀ name ∈ d.names, P name := by
  rw [declaredNames_eq h]
  exact List.forall_mem_flatMap

theorem bounds_read_iff (h : ofDefinitions constants ds = .ok p) :
    (∀ k r, p.reads[k]? = some r → ∀ name ∈ r.bounds, ∃ r' ∈ p.reads.take k, r'.ReadsNumber name) ↔
      ∀ k d, ds[k]? = some d → ∀ name ∈ d.loopSymbols, ∃ d' ∈ ds.take k, d'.HasNumber name := by
  have hreads := mapM_eq_ok_iff.1 (ofDefinitions_eq_ok_iff.1 h).2.2
  refine (forall_getElem?_iff_of_forall₂ hreads fun k d r hr => ?_).symm
  rw [Definition.bounds_of_readStatement hr]
  refine forall₂_congr fun name _ => ?_
  exact exists_mem_iff_of_forall₂ (List.forall₂_take k hreads) fun d' r' hr' =>
    (Definition.readsNumber_iff hr').symm

theorem notMem_indices_iff (h : ofDefinitions constants ds = .ok p) :
    (∀ r ∈ p.reads, ∀ name ∈ r.names ++ r.bounds, name ∉ r.indices) ↔
      ∀ d ∈ ds, ∀ name ∈ d.names ++ d.loopSymbols, name ∉ d.loopIndices := by
  have hreads := mapM_eq_ok_iff.1 (ofDefinitions_eq_ok_iff.1 h).2.2
  refine (forall_mem_iff_of_forall₂ hreads fun d r hr => ?_).symm
  rw [Definition.names_of_readStatement hr, Definition.bounds_of_readStatement hr,
    Definition.indices_of_readStatement hr]

theorem nodup_names (h : ofDefinitions constants ds = .ok p) : ∀ d ∈ ds, d.names.Nodup := by
  intro d hd
  obtain ⟨r, hr⟩ := exists_ok_of_mapM_eq_ok (ofDefinitions_eq_ok_iff.1 h).2.2 hd
  obtain ⟨f, hform, -⟩ := Definition.readStatement_eq_ok_iff.1 hr
  exact (Definition.form_eq_ok_iff.1 hform).1.nodup

theorem constantName_mem_of_mem_bounds (h : ofDefinitions constants ds = .ok p) :
    ∀ r ∈ p.reads, ∀ name ∈ r.bounds, constantName name ∈ p.constants.map (·.name) := by
  intro r hr name hname
  obtain ⟨d, hd, hread⟩ := exists_of_mem_of_mapM_eq_ok (ofDefinitions_eq_ok_iff.1 h).2.2 hr
  obtain ⟨groups, -, hgroups⟩ := exists_groups_of_ofDefinitions h
  obtain ⟨lines, hlines⟩ := exists_ok_of_mapM_eq_ok (mapM_eq_ok_iff.2 hgroups) hd
  obtain ⟨-, -, -, hdeclared⟩ := Definition.declarations_eq_ok_iff.1 hlines
  rw [Definition.bounds_of_readStatement hread] at hname
  have hconstant := hdeclared name (Definition.mem_sizes_of_mem_loopSymbols hname)
  rwa [Constant.declares_eq_decide, decide_eq_true_eq] at hconstant

/-- A program is well scoped exactly if the definitions that it is written for are coherent. -/
theorem wellScoped_iff_coherent (h : ofDefinitions constants ds = .ok p) :
    p.WellScoped ↔ Definition.Coherent p.constants ds := by
  have hnodup : p.declaredNames.Nodup ↔
      ds.Pairwise fun d d' => d.names.Disjoint d'.names :=
    (nodup_declaredNames_iff h).trans (and_iff_right (nodup_names h))
  constructor
  · intro hscoped
    exact ⟨hnodup.1 hscoped.nodup, (forall_declaredNames_iff h).1 hscoped.notMem_constants,
      (bounds_read_iff h).1 hscoped.bounds_read, (notMem_indices_iff h).1 hscoped.notMem_indices⟩
  · intro hcoherent
    exact ⟨hnodup.2 hcoherent.disjoint, (forall_declaredNames_iff h).2 hcoherent.notMem_constants,
      (bounds_read_iff h).2 hcoherent.counted, (notMem_indices_iff h).2 hcoherent.notMem_indices⟩

theorem isReadable_declarations (hnames : ∀ d ∈ ds, ∀ name ∈ d.names, isIdentifier name = true)
    (hsymbols : ∀ d ∈ ds, ∀ name, .symbol name ∈ d.sizes → isIdentifier name = true)
    (h : ofDefinitions constants ds = .ok p) : ∀ line ∈ p.declarations, line.IsReadable := by
  intro line hline
  obtain ⟨groups, hflatten, hgroups⟩ := exists_groups_of_ofDefinitions h
  rw [hflatten] at hline
  obtain ⟨lines, hlines, hline⟩ := List.mem_flatten.1 hline
  obtain ⟨d, hd, hdlines⟩ := exists_of_mem_of_mapM_eq_ok (mapM_eq_ok_iff.2 hgroups) hlines
  exact Definition.isReadable_of_declarations hdlines (hnames d hd) (hsymbols d hd) line hline

theorem isSource_text {description : String}
    (hnames : ∀ d ∈ ds, ∀ name ∈ d.names, isIdentifier name = true)
    (hsymbols : ∀ d ∈ ds, ∀ name, .symbol name ∈ d.sizes → isIdentifier name = true)
    (hconstants : Bound.extract description = .ok p.constants)
    (h : ofDefinitions p.constants ds = .ok p) : p.IsSource p.text := by
  have hreadable := isReadable_declarations hnames hsymbols h
  refine ⟨?_, fun line hline => Declaration.ofText?_text (hreadable line hline), fun r hr => ?_⟩
  · exact text_eq_block_lines (fun k hk => slashless_constant hconstants hk)
      fun line hline => (hreadable line hline).slashless
  · obtain ⟨d, hd, hread⟩ := exists_of_mem_of_mapM_eq_ok (ofDefinitions_eq_ok_iff.1 h).2.2 hr
    exact ReadStatement.ofText?_text
      (Definition.isReadable_of_readStatement hread (hnames d hd) (hsymbols d hd))

end Program

namespace Report

variable {ds : List Definition} {description : String}

theorem exists_generate_of_check_eq_nil {extractor : Extractor}
    (h : check extractor ds description = []) :
    ∃ text, Program.generate extractor ds description = .ok text := by
  apply isValid_check_iff.1
  rw [h]
  rfl

/-- A check without findings keeps the names of each definition apart and finds a constant for every
name that bounds a loop. The program is then well scoped exactly if its definitions are coherent,
which no check looks at. -/
theorem check_nil_wellScoped_iff
    (hnames : ∀ d ∈ ds, ∀ name ∈ d.names, isIdentifier name = true)
    (hsymbols : ∀ d ∈ ds, ∀ name, .symbol name ∈ d.sizes → isIdentifier name = true)
    (h : check Bound.extract ds description = []) :
    ∃ (p : Program) (text : String), Program.generate Bound.extract ds description = .ok text ∧
      Bound.extract description = .ok p.constants ∧
      Program.ofDefinitions p.constants ds = .ok p ∧ p.IsSource text ∧
      (∀ d ∈ ds, d.names.Nodup) ∧
      (∀ r ∈ p.reads, ∀ name ∈ r.bounds, constantName name ∈ p.constants.map (·.name)) ∧
      (p.WellScoped ↔ Definition.Coherent p.constants ds) := by
  obtain ⟨text, htext⟩ := exists_generate_of_check_eq_nil h
  obtain ⟨p, -, hconstants, hp, rfl, -⟩ := exists_groups_of_generate htext
  exact ⟨p, p.text, htext, hconstants, hp, isSource_text hnames hsymbols hconstants hp,
    nodup_names hp, constantName_mem_of_mem_bounds hp, wellScoped_iff_coherent hp⟩

theorem check_nil_wellScoped_iff_grid :
    let ds : List Definition := [⟨.single, .number, ["H", "W"], []⟩,
      ⟨.matrix, .number, ["A"], [.symbol "H", .symbol "W"]⟩]
    (∀ d ∈ ds, ∀ name ∈ d.names, isIdentifier name = true) ∧
      (∀ d ∈ ds, ∀ name, .symbol name ∈ d.sizes → isIdentifier name = true) ∧
      check Bound.extract ds "1 ≤ H ≤ 50, 1 ≤ W ≤ 10^2" = [] ∧
      Definition.Coherent [⟨"H_MAX", 50⟩, ⟨"W_MAX", 100⟩] ds ∧
      ∃ (p : Program) (text : String),
        Program.generate Bound.extract ds "1 ≤ H ≤ 50, 1 ≤ W ≤ 10^2" = .ok text ∧
        Bound.extract "1 ≤ H ≤ 50, 1 ≤ W ≤ 10^2" = .ok p.constants ∧
        Program.ofDefinitions p.constants ds = .ok p ∧ p.IsSource text ∧
        (∀ d ∈ ds, d.names.Nodup) ∧
        (∀ r ∈ p.reads, ∀ name ∈ r.bounds, constantName name ∈ p.constants.map (·.name)) ∧
        (p.WellScoped ↔ Definition.Coherent p.constants ds) := by
  intro ds
  have hnames : ∀ d ∈ ds, ∀ name ∈ d.names, isIdentifier name = true := by decide
  have hsymbols : ∀ d ∈ ds, ∀ name, .symbol name ∈ d.sizes → isIdentifier name = true := by
    intro d hd name hname
    have hcases : name = "H" ∨ name = "W" := by
      simp only [ds, List.mem_cons, List.not_mem_nil, or_false] at hd
      rcases hd with rfl | rfl
      · exact absurd hname (by simp)
      · simpa using hname
    rcases hcases with rfl | rfl <;> decide
  have h : check Bound.extract ds "1 ≤ H ≤ 50, 1 ≤ W ≤ 10^2" = [] := by decide +kernel
  have hcoherent : Definition.Coherent [⟨"H_MAX", 50⟩, ⟨"W_MAX", 100⟩] ds := by
    refine ⟨by simp [ds, List.Disjoint], by decide, fun k d hk name hname => ?_, by decide⟩
    match k, hk with
    | 0, hk =>
      obtain rfl := Option.some.inj hk
      exact absurd hname List.not_mem_nil
    | 1, hk =>
      obtain rfl := Option.some.inj hk
      exact ⟨_, List.mem_cons_self, rfl, rfl, hname⟩
  exact ⟨hnames, hsymbols, h, hcoherent, check_nil_wellScoped_iff hnames hsymbols h⟩

/-- Two definitions of one variable are each without findings, and the variable is declared
twice. -/
theorem check_nil_not_wellScoped :
    let ds : List Definition := [⟨.single, .number, ["N"], []⟩, ⟨.single, .number, ["N"], []⟩]
    let p : Program := ⟨[], [⟨.int, [⟨"N", []⟩]⟩, ⟨.int, [⟨"N", []⟩]⟩],
      [⟨[], [(.decimal, .element "N" [])]⟩, ⟨[], [(.decimal, .element "N" [])]⟩]⟩
    (∀ d ∈ ds, d.sizes = [] ∧ ∀ name ∈ d.names, isIdentifier name = true) ∧
      check Bound.extract ds "" = [] ∧ Program.ofDefinitions [] ds = .ok p ∧
      Program.generate Bound.extract ds "" = .ok p.text ∧ ¬ p.WellScoped := by
  intro ds p
  have hconstants : Bound.extract "" = .ok [] := by decide +kernel
  have hp : Program.ofDefinitions [] ds = .ok p := by decide +kernel
  refine ⟨by decide, by decide +kernel, hp, ?_, fun h => absurd h.nodup (by decide)⟩
  exact bind_eq_ok_iff.2 ⟨[], hconstants, bind_eq_ok_iff.2 ⟨p, hp, pure_eq_ok_iff.2 rfl⟩⟩

end Report

end ContestInput

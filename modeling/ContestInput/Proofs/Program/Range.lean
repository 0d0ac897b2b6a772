import ContestInput.Proofs.Program.Source
/-!
# The range of emitted constants

A description may bound a variable by any number of 64 bits, and the line of its constant declares
an `int`. With 32 bits for an `int`, the constant has the value of the bound exactly if the bound is
below `2 ^ 31`. Larger bounds are emitted as well, and no check tells of them.
-/

namespace ContestInput

open Fallible

namespace Program

/-! ## Values of `int` -/

/-- What an `int` of 32 bits holds once a number is written to it: the number modulo `2 ^ 32`, in
two's complement. -/
def asInt (n : Nat) : Int :=
  (BitVec.ofNat 32 n).toInt

theorem asInt_eq_iff {n : Nat} : asInt n = n ↔ n < 2 ^ 31 := by
  rw [asInt, BitVec.toInt_ofNat']
  constructor
  · intro h
    have hlt : (n : Int).bmod (2 ^ 32) < (2 ^ 32 + 1) / 2 := Int.bmod_lt (by decide)
    omega
  · intro h
    exact Int.bmod_eq_of_le_mul_two (by omega) (by omega)

/-- A line that declares an `int` constant with a value in decimal digits. -/
structure IntLine where
  name : String
  digits : List Char
  deriving DecidableEq, Repr

namespace IntLine

def text (line : IntLine) : String :=
  "const int " ++ line.name ++ " = " ++ String.ofList line.digits ++ ";"

def value (line : IntLine) : Int :=
  asInt (Text.ofDigits line.digits)

def ofConstant (k : Constant) : IntLine :=
  ⟨k.name, Nat.toDigits 10 k.value.toNat⟩

private theorem text_ofConstant (k : Constant) : (ofConstant k).text = k.line := by
  rw [Constant.line_eq]
  rfl

/-- The line sets the name of a constant to its value in decimal, and the value is kept exactly if
it is below `2 ^ 31`. -/
structure Emits (line : IntLine) (k : Constant) : Prop where
  name : line.name = k.name
  digits : Text.ofDigits line.digits = k.value.toNat
  value_eq_iff : line.value = k.value.toNat ↔ k.value.toNat < 2 ^ 31

theorem emits_ofConstant (k : Constant) : (ofConstant k).Emits k := by
  have hdigits : Text.ofDigits (ofConstant k).digits = k.value.toNat := Text.ofDigits_toDigits _
  refine ⟨rfl, hdigits, ?_⟩
  rw [value, hdigits]
  exact asInt_eq_iff

end IntLine

/-! ## The place of the constants -/

namespace Template

variable {marker content : String}

private theorem fillMarker_append (hmarker : IsMarker marker) {before after : List String}
    (hafter : after ≠ []) (h : ∀ line ∈ before, ¬ Occurs marker line) :
    fillMarker marker content (block (before ++ after)) =
      block (before ++ [fillMarker marker content (block after)]) := by
  induction before with
  | nil => simp [block]
  | cons line before ih =>
    obtain ⟨hline, hbefore⟩ := List.forall_mem_cons.1 h
    rw [List.cons_append, List.cons_append, fillMarker, ← String.toList_inj, String.toList_ofList,
      toList_block_cons line (by simp [hafter]), toList_block_cons line (by simp),
      Text.replaceFirst_append_cons hmarker.one_line hline, ← ih hbefore, fillMarker,
      String.toList_ofList]

def front : List String :=
  (lines "" "" "").take 7

/-- Constants stand as they are behind the front of the template, whatever the declarations and
input statements are, if none of them holds a later marker. -/
private theorem exists_fill_eq {constants : List String} (declarations reads : List String)
    (h : ∀ line ∈ constants, ¬ Occurs declarationsMarker line ∧ ¬ Occurs readsMarker line) :
    ∃ rest, fill constants declarations reads = block (front ++ [block constants, rest]) := by
  have hfirst : ¬ Occurs declarationsMarker (block constants) :=
    not_occurs_block isMarker_declarationsMarker fun line hline => (h line hline).1
  have hsecond : ¬ Occurs readsMarker (block constants) :=
    not_occurs_block isMarker_readsMarker fun line hline => (h line hline).2
  have hbefore : ∀ line ∈ front ++ [block constants], ¬ Occurs readsMarker line := by
    intro line hline
    rcases List.mem_append.1 hline with hfront | hconstants
    · exact isMarker_readsMarker.new line (List.mem_of_mem_take hfront)
    · rwa [List.mem_singleton.1 hconstants]
  -- The constants go in first, so the declarations meet no marker of theirs before the line that
  -- the template has for them; the reads are then filled in behind all of this.
  let behind := (lines "" (block declarations) readsMarker).drop 8
  refine ⟨fillMarker readsMarker (block (reads.map indent)) (block behind), ?_⟩
  calc fill constants declarations reads
      = fillMarker readsMarker (block (reads.map indent))
          (block ((front ++ [block constants]) ++ behind)) := by
        rw [fill, fillMarker_text, fillMarker_declarations hfirst]
        rfl
    _ = block ((front ++ [block constants]) ++
          [fillMarker readsMarker (block (reads.map indent)) (block behind)]) :=
        fillMarker_append isMarker_readsMarker (by simp [behind, lines]) hbefore
    _ = _ := by rw [List.append_assoc]; rfl

end Template

/-! ## The constants of a program -/

variable {ds : List Definition} {description text : String}

theorem warnings_of_generate (h : generate Bound.extract ds description = .ok text) :
    ∀ diagnostic ∈ Report.check Bound.extract ds description,
      ∃ k ref, diagnostic = Report.warning k ref := by
  obtain ⟨p, groups, hconstants, -, -, -, hgroups⟩ := exists_groups_of_generate h
  rw [Report.check, hconstants]
  intro diagnostic hdiagnostic
  obtain ⟨k, -, ref, -, hwarning, -⟩ :=
    (Report.warnsOfUndeclared_ofDefinitions hgroups).sound diagnostic hdiagnostic
  exact ⟨k, ref, hwarning⟩

/-- A program has a line for each bound of its description, in the order of the text and right
behind the front of the template. Its constant has the value of the bound exactly if the bound is
below `2 ^ 31`. The others are emitted all the same, and a check has warnings of missing widths at
most. -/
theorem generate_keeps_bound_iff (h : generate Bound.extract ds description = .ok text) :
    ∃ (t : List Char) (spans : List Bound.Span) (constants : List Constant) (lines : List IntLine)
      (rest : String),
      Bound.Prepared description t ∧ Bound.Reading t 0 spans ∧
      List.Forall₂ Bound.Clause.Declares (spans.map (·.found.clause)) constants ∧
      Bound.extract description = .ok constants ∧
      List.Forall₂ IntLine.Emits lines constants ∧
      text = Template.block (Template.front ++ [Template.block (lines.map IntLine.text), rest]) ∧
      ∀ diagnostic ∈ Report.check Bound.extract ds description,
        ∃ k ref, diagnostic = Report.warning k ref := by
  obtain ⟨p, -, hconstants, -, htext, -⟩ := exists_groups_of_generate h
  obtain ⟨t, spans, ht, hr, hdeclares⟩ := Bound.exists_reading_of_extract hconstants
  have hmarkers : ∀ line ∈ p.constants.map Constant.line,
      ¬ Template.Occurs Template.declarationsMarker line ∧
        ¬ Template.Occurs Template.readsMarker line := by
    intro line hline
    obtain ⟨k, hk, rfl⟩ := List.mem_map.1 hline
    have hslash : Slashless k.line := slashless_constant hconstants hk
    exact ⟨Template.not_occurs_of_not_mem (by decide) hslash,
      Template.not_occurs_of_not_mem (by decide) hslash⟩
  obtain ⟨rest, hfill⟩ := Template.exists_fill_eq (p.declarations.map Declaration.text)
    (p.reads.map ReadStatement.text) hmarkers
  refine ⟨t, spans, p.constants, p.constants.map IntLine.ofConstant, rest, ht, hr, hdeclares,
    hconstants, ?_, ?_, warnings_of_generate h⟩
  · rw [List.forall₂_map_left_iff, List.forall₂_same]
    exact fun k _ => IntLine.emits_ofConstant k
  · have hlines : (p.constants.map IntLine.ofConstant).map IntLine.text =
        p.constants.map Constant.line := by
      rw [List.map_map]
      exact List.map_congr_left fun k _ => IntLine.text_ofConstant k
    rw [htext, Program.text, hfill, hlines]

theorem generate_keeps_bound_iff_limits :
    let ds : List Definition := [⟨.single, .number, ["N"], []⟩, ⟨.single, .string, ["S"], []⟩]
    let p : Program := ⟨[⟨"N_MAX", 2147483647⟩, ⟨"K_MAX", 2147483648⟩],
      [⟨.int, [⟨"N", []⟩]⟩, ⟨.char, [⟨"S", [⟨.constant "S_MAX", true⟩]⟩]⟩],
      [⟨[], [(.decimal, .element "N" [])]⟩, ⟨[], [(.word, .buffer "S" [])]⟩]⟩
    generate Bound.extract ds "N ≤ 2147483647, K ≤ 2^31" = .ok p.text ∧
    ∃ (t : List Char) (spans : List Bound.Span) (constants : List Constant) (lines : List IntLine)
      (rest : String),
      Bound.Prepared "N ≤ 2147483647, K ≤ 2^31" t ∧ Bound.Reading t 0 spans ∧
      List.Forall₂ Bound.Clause.Declares (spans.map (·.found.clause)) constants ∧
      Bound.extract "N ≤ 2147483647, K ≤ 2^31" = .ok constants ∧
      List.Forall₂ IntLine.Emits lines constants ∧
      p.text = Template.block (Template.front ++ [Template.block (lines.map IntLine.text), rest]) ∧
      ∀ diagnostic ∈ Report.check Bound.extract ds "N ≤ 2147483647, K ≤ 2^31",
        ∃ k ref, diagnostic = Report.warning k ref := by
  intro ds p
  have hconstants : Bound.extract "N ≤ 2147483647, K ≤ 2^31" = .ok p.constants := by
    decide +kernel
  have hp : ofDefinitions p.constants ds = .ok p := by decide +kernel
  have h : generate Bound.extract ds "N ≤ 2147483647, K ≤ 2^31" = .ok p.text :=
    bind_eq_ok_iff.2 ⟨p.constants, hconstants, bind_eq_ok_iff.2 ⟨p, hp, pure_eq_ok_iff.2 rfl⟩⟩
  exact ⟨h, generate_keeps_bound_iff h⟩

/-- A bound of three thousand million is emitted without a finding, and the constant is
negative. -/
theorem generate_changes_bound :
    let ds : List Definition := [⟨.single, .number, ["N"], []⟩,
      ⟨.harray, .number, ["A"], [.symbol "N"]⟩]
    let p : Program := ⟨[⟨"N_MAX", 3000000000⟩],
      [⟨.int, [⟨"N", []⟩]⟩, ⟨.int, [⟨"A", [⟨.constant "N_MAX", false⟩]⟩]⟩],
      [⟨[], [(.decimal, .element "N" [])]⟩, ⟨[⟨.i, .symbol "N"⟩], [(.decimal, .offset "A" .i)]⟩]⟩
    let line : IntLine := ⟨"N_MAX", "3000000000".toList⟩
    Bound.extract "1 ≤ N ≤ 3000000000" = .ok [⟨"N_MAX", 3000000000⟩] ∧
      generate Bound.extract ds "1 ≤ N ≤ 3000000000" = .ok p.text ∧
      p.constants.map Constant.line = [line.text] ∧ line.value = -1294967296 ∧
      Report.check Bound.extract ds "1 ≤ N ≤ 3000000000" = [] := by
  intro ds p line
  have hconstants : Bound.extract "1 ≤ N ≤ 3000000000" = .ok p.constants := by decide +kernel
  have hp : ofDefinitions p.constants ds = .ok p := by decide +kernel
  refine ⟨hconstants, ?_, by decide +kernel, by decide +kernel, by decide +kernel⟩
  exact bind_eq_ok_iff.2 ⟨p.constants, hconstants, bind_eq_ok_iff.2 ⟨p, hp, pure_eq_ok_iff.2 rfl⟩⟩

end Program

end ContestInput

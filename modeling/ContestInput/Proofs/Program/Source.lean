import ContestInput.Proofs.Bound.Names
import ContestInput.Proofs.Program.Input
import ContestInput.Proofs.Program.References
import ContestInput.Proofs.Program.Template
/-!
# The source text of a program

Markers have slashes in them and the lines of a program have none: neither the names of constants,
whatever the description is, nor declarations of identifiers. So the source text of a program is
the template with the program's own lines at the three markers.
-/

namespace ContestInput

open Fallible

theorem Constant.line_eq (k : Constant) :
    k.line = "const int " ++ k.name ++ " = " ++ toString k.value.toNat ++ ";" := by
  rw [Constant.line, Constant.text]
  simp only [String.append_assoc]

namespace Program

/-! ## Text without slashes -/

def Slashless (s : String) : Prop :=
  '/' ∉ s.toList

instance (s : String) : Decidable (Slashless s) :=
  inferInstanceAs (Decidable ('/' ∉ s.toList))

theorem Slashless.append {s t : String} (hs : Slashless s) (ht : Slashless t) :
    Slashless (s ++ t) := by
  rw [Slashless, String.toList_append, List.mem_append, not_or]
  exact ⟨hs, ht⟩

private theorem slashless_join {ss : List String} (h : ∀ s ∈ ss, Slashless s) :
    Slashless (String.join ss) := by
  rw [Slashless, String.toList_join, List.mem_flatMap]
  rintro ⟨s, hs, hslash⟩
  exact h s hs hslash

private theorem slashless_intercalate {separator : String} (hseparator : Slashless separator)
    {ss : List String} (h : ∀ s ∈ ss, Slashless s) : Slashless (separator.intercalate ss) := by
  rw [Slashless, String.toList_intercalate]
  induction ss with
  | nil => simp
  | cons s ss ih =>
    obtain ⟨hs, hss⟩ := List.forall_mem_cons.1 h
    cases ss with
    | nil => simpa [Slashless] using hs
    | cons s' ss =>
      rw [List.map_cons, List.map_cons, List.intercalate_cons_cons, List.mem_append,
        List.mem_append, not_or, not_or]
      exact ⟨⟨hs, hseparator⟩, ih hss⟩

private theorem slashless_of_isWord {s : String} (h : Token.IsWord s) : Slashless s := by
  intro hslash
  exact absurd (List.all_eq_true.1 h.2 _ hslash) (by decide)

/-! ## Lines without slashes -/

private theorem slashless_count {c : Count}
    (h : ∀ name, c = .constant name → isIdentifier name = true) : Slashless c.text := by
  cases c with
  | literal value => exact slashless_of_isWord (isWord_toString _)
  | constant name => exact slashless_of_isWord (Token.isWord_of_isIdentifier (h name rfl))

private theorem slashless_extent {e : Extent}
    (h : ∀ name, e.count = .constant name → isIdentifier name = true) : Slashless e.text := by
  have hmark : Slashless (if e.terminated then " + 1" else "") := by
    split <;> decide
  rw [Extent.text]
  exact (((by decide : Slashless "[").append (slashless_count h)).append hmark).append (by decide)

theorem Declaration.IsReadable.slashless {d : Declaration} (h : d.IsReadable) :
    Slashless d.text := by
  have hbase : Slashless d.base.text := slashless_of_isWord d.base.isWord_text
  have hdeclared : ∀ s ∈ d.declared.map Variable.text, Slashless s := by
    intro s hs
    obtain ⟨v, hv, rfl⟩ := List.mem_map.1 hs
    refine (slashless_of_isWord (Token.isWord_of_isIdentifier (h.names v hv))).append
      (slashless_join fun s hs => ?_)
    obtain ⟨e, he, rfl⟩ := List.mem_map.1 hs
    exact slashless_extent (h.constants v hv e he)
  rw [Declaration.text]
  exact ((hbase.append (by decide)).append
    (slashless_intercalate (by decide) hdeclared)).append (by decide)

theorem slashless_constant {description : String} {constants : List Constant}
    (h : Bound.extract description = .ok constants) {k : Constant} (hk : k ∈ constants) :
    Slashless k.line := by
  have hname : Slashless k.name := by
    intro hslash
    rcases Bound.mem_name_of_mem_extract h hk hslash with hword | hkelvin
    · exact absurd hword (by decide)
    · exact absurd hkelvin (by decide)
  have hvalue : Slashless (toString k.value.toNat) := slashless_of_isWord (isWord_toString _)
  rw [Constant.line, Constant.text]
  exact ((by decide : Slashless "const int ").append
    ((hname.append (by decide)).append hvalue)).append (by decide)

/-! ## The text of a program -/

private theorem slashless_block {α : Type} {line : α → String} {xs : List α}
    (h : ∀ x ∈ xs, Slashless (line x)) : Slashless (Template.block (xs.map line)) := by
  refine slashless_intercalate (by decide) fun s hs => ?_
  obtain ⟨x, hx, rfl⟩ := List.mem_map.1 hs
  exact h x hx

/-- A program whose constants and declarations have no slashes fills the template at its markers. -/
theorem text_eq_block_lines {p : Program} (hconstants : ∀ k ∈ p.constants, Slashless k.line)
    (hdeclarations : ∀ line ∈ p.declarations, Slashless line.text) :
    p.text = Template.block (Template.lines (Template.block (p.constants.map Constant.line))
      (Template.block (p.declarations.map Declaration.text))
      (Template.block (p.reads.map fun read => "  " ++ read.text))) := by
  have hfirst : Slashless (Template.block (p.constants.map Constant.line)) :=
    slashless_block hconstants
  have hsecond : Slashless (Template.block (p.declarations.map Declaration.text)) :=
    slashless_block hdeclarations
  rw [text, Template.fill, Template.fillMarker_text,
    Template.fillMarker_declarations (Template.not_occurs_of_not_mem (by decide) hfirst),
    Template.fillMarker_reads (Template.not_occurs_of_not_mem (by decide) hfirst)
      (Template.not_occurs_of_not_mem (by decide) hsecond), List.map_map]
  rfl

variable {ds : List Definition} {description text : String}

/-- The source text of identifiers and any description is the template with, at its markers and
nowhere else, a line for each extracted constant, the declarations of one definition after the
other, and an indented input statement for each definition. The lines of declarations and of input
statements are read back as what they were written for. -/
theorem generate_fills_template (hnames : ∀ d ∈ ds, ∀ name ∈ d.names, isIdentifier name = true)
    (hsymbols : ∀ d ∈ ds, ∀ name, .symbol name ∈ d.sizes → isIdentifier name = true)
    (h : generate Bound.extract ds description = .ok text) :
    ∃ (constants : List Constant) (groups : List (List Declaration)) (reads : List ReadStatement),
      Bound.extract description = .ok constants ∧
      List.Forall₂ (fun d lines => d.declarations constants = .ok lines) ds groups ∧
      List.Forall₂ (fun d read => d.readStatement = .ok read) ds reads ∧
      (∀ line ∈ groups.flatten, Declaration.ofText? line.text = some line) ∧
      (∀ read ∈ reads, ReadStatement.ofText? read.text = some read) ∧
      text = Template.block (Template.lines
        (Template.block (constants.map fun k =>
          "const int " ++ k.name ++ " = " ++ toString k.value.toNat ++ ";"))
        (Template.block (groups.flatten.map Declaration.text))
        (Template.block (reads.map fun read => "  " ++ read.text))) := by
  obtain ⟨p, groups, hconstants, hp, rfl, hgroups, hlines⟩ := exists_groups_of_generate h
  obtain ⟨-, -, hreads⟩ := ofDefinitions_eq_ok_iff.1 hp
  have hreadable : ∀ line ∈ p.declarations, line.IsReadable := by
    intro line hline
    rw [hgroups] at hline
    obtain ⟨lines, hmem, hline⟩ := List.mem_flatten.1 hline
    obtain ⟨d, hd, hdlines⟩ := exists_of_mem_of_mapM_eq_ok (mapM_eq_ok_iff.2 hlines) hmem
    exact Definition.isReadable_of_declarations hdlines (hnames d hd) (hsymbols d hd) line hline
  refine ⟨p.constants, groups, p.reads, hconstants, hlines, mapM_eq_ok_iff.1 hreads, ?_, ?_, ?_⟩
  · intro line hline
    exact Declaration.ofText?_text (hreadable line (hgroups ▸ hline))
  · intro read hread
    obtain ⟨d, hd, hdread⟩ := exists_of_mem_of_mapM_eq_ok hreads hread
    exact ReadStatement.ofText?_text
      (Definition.isReadable_of_readStatement hdread (hnames d hd) (hsymbols d hd))
  · rw [text_eq_block_lines (fun k hk => slashless_constant hconstants hk)
        fun line hline => (hreadable line hline).slashless,
      hgroups, funext Constant.line_eq]

/-- The source text where a long s bounds the width of a string. -/
theorem generate_fills_template_long_s :
    let ds : List Definition := [⟨.single, .number, ["n"], []⟩,
      ⟨.harray, .string, ["s"], [.symbol "n"]⟩]
    let text := "\n".intercalate
      ["#include <cstdio>", "", "using namespace std;", "",
       "#define REP(i,n)   for(int i=0; i<(int)(n); i++)",
       "#define FOR(i,b,e) for(int i=(b); i<=(int)(e); i++)", "",
       "const int N_MAX = 100000;", "const int S_MAX = 8;", "",
       "int n;", "char s[N_MAX][S_MAX + 1];", "",
       "void solve() \x7b", "  int ans = 0;", "  printf(\"%d\\n\", ans);", "\x7d", "",
       "void input() \x7b", "  scanf(\"%d\", &n);", "  REP(i, n) scanf(\"%s\", s[i]);", "\x7d", "",
       "int main() \x7b", "  input();", "  solve();", "  return 0;", "\x7d", ""]
    (∀ d ∈ ds, ∀ name ∈ d.names, isIdentifier name = true) ∧
      (∀ d ∈ ds, ∀ name, .symbol name ∈ d.sizes → isIdentifier name = true) ∧
      generate Bound.extract ds "1 ≤ n ≤ 10^5, 1 ≤ |ſ| ≤ 8" = .ok text ∧
      ∃ (constants : List Constant) (groups : List (List Declaration)) (reads : List ReadStatement),
        Bound.extract "1 ≤ n ≤ 10^5, 1 ≤ |ſ| ≤ 8" = .ok constants ∧
        List.Forall₂ (fun d lines => d.declarations constants = .ok lines) ds groups ∧
        List.Forall₂ (fun d read => d.readStatement = .ok read) ds reads ∧
        (∀ line ∈ groups.flatten, Declaration.ofText? line.text = some line) ∧
        (∀ read ∈ reads, ReadStatement.ofText? read.text = some read) ∧
        text = Template.block (Template.lines
          (Template.block (constants.map fun k =>
            "const int " ++ k.name ++ " = " ++ toString k.value.toNat ++ ";"))
          (Template.block (groups.flatten.map Declaration.text))
          (Template.block (reads.map fun read => "  " ++ read.text))) := by
  intro ds text
  have hnames : ∀ d ∈ ds, ∀ name ∈ d.names, isIdentifier name = true := by decide
  have hsymbols : ∀ d ∈ ds, ∀ name, .symbol name ∈ d.sizes → isIdentifier name = true := by
    intro d hd name hname
    obtain rfl : name = "n" := by
      simp only [ds, List.mem_cons, List.not_mem_nil, or_false] at hd
      rcases hd with rfl | rfl
      · exact absurd hname (by simp)
      · simpa using hname
    decide
  let p : Program := ⟨[⟨"N_MAX", 100000⟩, ⟨"S_MAX", 8⟩],
    [⟨.int, [⟨"n", []⟩]⟩,
     ⟨.char, [⟨"s", [⟨.constant "N_MAX", false⟩, ⟨.constant "S_MAX", true⟩]⟩]⟩],
    [⟨[], [(.decimal, .element "n" [])]⟩,
     ⟨[⟨.i, .symbol "n"⟩], [(.word, .buffer "s" [.i])]⟩]⟩
  have hconstants : Bound.extract "1 ≤ n ≤ 10^5, 1 ≤ |ſ| ≤ 8" = .ok p.constants := by
    decide +kernel
  have hp : ofDefinitions p.constants ds = .ok p := by decide +kernel
  have htext : p.text = text := by
    rw [text_eq_block_lines (by decide +kernel) (by decide +kernel)]
    decide +kernel
  have h : generate Bound.extract ds "1 ≤ n ≤ 10^5, 1 ≤ |ſ| ≤ 8" = .ok text :=
    bind_eq_ok_iff.2 ⟨p.constants, hconstants, bind_eq_ok_iff.2 ⟨p, hp, pure_eq_ok_iff.2 htext⟩⟩
  exact ⟨hnames, hsymbols, h, generate_fills_template hnames hsymbols h⟩

end Program

end ContestInput

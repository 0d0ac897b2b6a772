import ContestInput.Program.Template
import ContestInput.Proofs.Text.Search
/-!
# The filled template

The markers are filled one after the other, so a marker is also looked for in the lines that took
the place of an earlier one. As long as no such line holds a later marker, exactly the three marker
lines of the template give way, and every other line stays.
-/

namespace ContestInput.Program.Template

def Occurs (marker s : String) : Prop :=
  marker.toList <:+: s.toList

instance (marker s : String) : Decidable (Occurs marker s) :=
  inferInstanceAs (Decidable (marker.toList <:+: s.toList))

/-- A marker stands in one line, and in none that all programs have. -/
structure IsMarker (marker : String) : Prop where
  ne_empty : marker ≠ ""
  one_line : '\n' ∉ marker.toList
  new : ∀ line ∈ lines "" "" "", ¬ Occurs marker line

variable {marker content : String}

theorem not_occurs_of_not_mem {c : Char} {s : String} (hmarker : c ∈ marker.toList)
    (hs : c ∉ s.toList) : ¬ Occurs marker s :=
  fun h => hs (h.subset hmarker)

private theorem slash_not_mem_of_mem_lines : ∀ line ∈ lines "" "" "", '/' ∉ line.toList := by
  decide +kernel

/-- No line that all programs have holds a slash. -/
private theorem isMarker_of_slash_mem (hslash : '/' ∈ marker.toList)
    (hline : '\n' ∉ marker.toList) : IsMarker marker where
  ne_empty := by
    rintro rfl
    exact absurd hslash (by decide)
  one_line := hline
  new line h := not_occurs_of_not_mem hslash (slash_not_mem_of_mem_lines line h)

theorem isMarker_constantsMarker : IsMarker constantsMarker :=
  isMarker_of_slash_mem (by decide) (by decide)

theorem isMarker_declarationsMarker : IsMarker declarationsMarker :=
  isMarker_of_slash_mem (by decide) (by decide)

theorem isMarker_readsMarker : IsMarker readsMarker :=
  isMarker_of_slash_mem (by decide) (by decide)

/-! ## Lines as one text -/

theorem toList_block_cons (line : String) {ls : List String} (hls : ls ≠ []) :
    (block (line :: ls)).toList = line.toList ++ '\n' :: (block ls).toList := by
  obtain ⟨next, rest, rfl⟩ := List.exists_cons_of_ne_nil hls
  simp [block]

/-- A marker that stands in one line is found in a text just where it is found in a line. -/
theorem occurs_block_iff (hmarker : IsMarker marker) {ls : List String} :
    Occurs marker (block ls) ↔ ∃ line ∈ ls, Occurs marker line := by
  have hempty : ¬ Occurs marker "" := by
    intro h
    exact hmarker.ne_empty (String.toList_eq_nil_iff.1 (List.infix_nil.1 h))
  induction ls with
  | nil => simpa [block] using hempty
  | cons line ls ih =>
    cases ls with
    | nil => simp [block]
    | cons next rest =>
      rw [Occurs, toList_block_cons line (by simp),
        Text.isInfix_append_cons_iff hmarker.one_line, List.exists_mem_cons_iff]
      exact or_congr_right ih

theorem not_occurs_block (hmarker : IsMarker marker) {ls : List String}
    (h : ∀ line ∈ ls, ¬ Occurs marker line) : ¬ Occurs marker (block ls) := by
  rw [occurs_block_iff hmarker]
  rintro ⟨line, hline, hoccurs⟩
  exact h line hline hoccurs

/-- The first line that is a marker gives way, where no line in front of it holds the marker. -/
theorem fillMarker_block (hmarker : IsMarker marker) (before after : List String)
    (h : ∀ line ∈ before, ¬ Occurs marker line) :
    fillMarker marker content (block (before ++ marker :: after)) =
      block (before ++ content :: after) := by
  have hne : marker.toList ≠ [] := by
    rw [ne_eq, String.toList_eq_nil_iff]
    exact hmarker.ne_empty
  rw [fillMarker, ← String.toList_inj, String.toList_ofList]
  induction before with
  | nil =>
    rw [List.nil_append, List.nil_append]
    cases after with
    | nil =>
      have hfilled := Text.replaceFirst_marker hne content.toList []
      simpa [block, Text.replaceFirst] using hfilled
    | cons next rest =>
      rw [toList_block_cons marker (by simp), toList_block_cons content (by simp),
        Text.replaceFirst_marker hne]
  | cons line before ih =>
    obtain ⟨hline, hbefore⟩ := List.forall_mem_cons.1 h
    rw [List.cons_append, List.cons_append, toList_block_cons line (by simp),
      toList_block_cons line (by simp), Text.replaceFirst_append_cons hmarker.one_line hline,
      ih hbefore]

/-! ## The three markers -/

variable {constants declarations reads line : String}

private theorem mem_lines (h : line ∈ lines constants declarations reads) :
    line = constants ∨ line = declarations ∨ line = reads ∨ line ∈ lines "" "" "" := by
  simp only [lines, List.mem_cons, List.not_mem_nil, or_false] at h ⊢
  grind

theorem not_occurs_of_mem_lines (hmarker : IsMarker marker) (hconstants : ¬ Occurs marker constants)
    (hdeclarations : ¬ Occurs marker declarations) (hreads : ¬ Occurs marker reads)
    (h : line ∈ lines constants declarations reads) : ¬ Occurs marker line := by
  rcases mem_lines h with rfl | rfl | rfl | h
  · exact hconstants
  · exact hdeclarations
  · exact hreads
  · exact hmarker.new line h

theorem fillMarker_text (content : String) : fillMarker constantsMarker content text =
    block (lines content declarationsMarker readsMarker) :=
  fillMarker_block isMarker_constantsMarker ((lines "" declarationsMarker readsMarker).take 7) _
    fun line hline => not_occurs_of_mem_lines isMarker_constantsMarker (by decide) (by decide)
      (by decide) (List.mem_of_mem_take hline)

theorem fillMarker_declarations (h : ¬ Occurs declarationsMarker constants) (content : String) :
    fillMarker declarationsMarker content (block (lines constants declarationsMarker readsMarker)) =
      block (lines constants content readsMarker) :=
  fillMarker_block isMarker_declarationsMarker ((lines constants "" readsMarker).take 9) _
    fun line hline => not_occurs_of_mem_lines isMarker_declarationsMarker h (by decide)
      (by decide) (List.mem_of_mem_take hline)

theorem fillMarker_reads (hconstants : ¬ Occurs readsMarker constants)
    (hdeclarations : ¬ Occurs readsMarker declarations) (content : String) :
    fillMarker readsMarker content (block (lines constants declarations readsMarker)) =
      block (lines constants declarations content) :=
  fillMarker_block isMarker_readsMarker ((lines constants declarations "").take 17) _
    fun line hline => not_occurs_of_mem_lines isMarker_readsMarker hconstants hdeclarations
      (by decide) (List.mem_of_mem_take hline)

/-- The three marker lines give way to the three blocks and nothing else changes, if no constant
holds a later marker and no declaration holds the last one. The input statements may hold any. -/
theorem fill_eq_block_lines {constants declarations : List String} (reads : List String)
    (hconstants : ∀ line ∈ constants,
      ¬ Occurs declarationsMarker line ∧ ¬ Occurs readsMarker line)
    (hdeclarations : ∀ line ∈ declarations, ¬ Occurs readsMarker line) :
    fill constants declarations reads = block (lines (block constants) (block declarations)
      (block (reads.map fun line => "  " ++ line))) := by
  have hfirst : ¬ Occurs declarationsMarker (block constants) :=
    not_occurs_block isMarker_declarationsMarker fun line hline => (hconstants line hline).1
  have hsecond : ¬ Occurs readsMarker (block constants) :=
    not_occurs_block isMarker_readsMarker fun line hline => (hconstants line hline).2
  have hthird : ¬ Occurs readsMarker (block declarations) :=
    not_occurs_block isMarker_readsMarker hdeclarations
  rw [fill, fillMarker_text, fillMarker_declarations hfirst, fillMarker_reads hsecond hthird]
  rfl

theorem fill_eq_block_lines_markers :
    let constants := ["const int A = 1; /*** CONSTS ***/"]
    let declarations := ["/*** DCLS ***/ int a;", "/*** CONSTS ***/"]
    let reads := ["/*** READS ***/", "/*** DCLS ***/"]
    (∀ line ∈ constants, ¬ Occurs declarationsMarker line ∧ ¬ Occurs readsMarker line) ∧
      (∀ line ∈ declarations, ¬ Occurs readsMarker line) ∧
      fill constants declarations reads = block (lines (block constants) (block declarations)
        (block (reads.map fun line => "  " ++ line))) := by
  intro constants declarations reads
  have hconstants : ∀ line ∈ constants,
      ¬ Occurs declarationsMarker line ∧ ¬ Occurs readsMarker line := by decide
  have hdeclarations : ∀ line ∈ declarations, ¬ Occurs readsMarker line := by decide
  exact ⟨hconstants, hdeclarations, fill_eq_block_lines reads hconstants hdeclarations⟩

/-- A constant line that is the marker of the declarations takes them in, and the marker line of
the template is left behind. -/
theorem fill_declarationsMarker {declarations : List String} (reads : List String)
    (hdeclarations : ∀ line ∈ declarations, ¬ Occurs readsMarker line) :
    fill [declarationsMarker] declarations reads = block (lines (block declarations)
      declarationsMarker (block (reads.map fun line => "  " ++ line))) := by
  have hfirst : fillMarker declarationsMarker (block declarations)
      (block (lines (block [declarationsMarker]) declarationsMarker readsMarker)) =
        block (lines (block declarations) declarationsMarker readsMarker) :=
    fillMarker_block isMarker_declarationsMarker ((lines "" "" readsMarker).take 7) _
      fun line hline => not_occurs_of_mem_lines isMarker_declarationsMarker (by decide) (by decide)
        (by decide) (List.mem_of_mem_take hline)
  have hsecond : ¬ Occurs readsMarker (block declarations) :=
    not_occurs_block isMarker_readsMarker hdeclarations
  rw [fill, fillMarker_text, hfirst, fillMarker_reads hsecond (by decide)]
  rfl

theorem fill_ne_block_lines : ¬ ∀ constants declarations reads : List String,
    fill constants declarations reads = block (lines (block constants) (block declarations)
      (block (reads.map fun line => "  " ++ line))) := by
  intro h
  have hfill := h [declarationsMarker] ["int N;"] ["scanf(\"%d\", &N);"]
  rw [fill_declarationsMarker _ (by decide)] at hfill
  exact absurd hfill (by decide +kernel)

end ContestInput.Program.Template

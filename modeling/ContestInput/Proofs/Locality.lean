import ContestInput.Proofs.Program.References
/-!
# Findings are local

A check of two lists of definitions, one behind the other, finds in each what it finds in that list
alone, at positions that count on from the first. So what it finds about a definition depends on
nothing but that definition and the constants: one error, or a warning for each name whose width
is missing, in the order of the names.
-/

namespace ContestInput

def Diagnostic.shift (n : Nat) (d : Diagnostic) : Diagnostic :=
  { d with index := d.index.map (· + n) }

/-- What a check has to say of a definition at a position: the one fault of its declaration, or,
if it can be declared and read, a warning for each string whose width no constant bounds. -/
inductive Definition.Judged (constants : List Constant) (d : Definition) (k : Nat) : Report → Prop
  | faulty {fault : Fault} (h : d.declarations constants = .error fault) :
    Judged constants d k [⟨.error, some k, fault⟩]
  | sound {lines : List Program.Declaration} {read : Program.ReadStatement}
    (hlines : d.declarations constants = .ok lines) (hread : d.readStatement = .ok read) :
    Judged constants d k
      ((d.names.filter fun name =>
          d.item = .string ∧ constantName name ∉ constants.map (·.name)).map fun name =>
        ⟨.warning, some k, .unresolvedWidth name (constantName name)⟩)

namespace Definition

variable {constants : List Constant} {d : Definition}

theorem missingWidths_eq_map (constants : List Constant) (d : Definition) :
    d.missingWidths constants =
      (d.names.filter fun name =>
          d.item = .string ∧ constantName name ∉ constants.map (·.name)).map fun name =>
        .unresolvedWidth name (constantName name) := by
  rw [missingWidths]
  cases d.item with
  | number => simp
  | char => simp
  | string => simp only [Constant.declares_eq_decide, true_and, decide_not]

theorem judged_findings (constants : List Constant) (d : Definition) (k : Nat) :
    d.Judged constants k (d.findings constants k) := by
  cases hd : d.declarations constants with
  | error fault =>
    rw [findings_of_declarations_error hd]
    exact .faulty hd
  | ok lines =>
    obtain ⟨read, hread⟩ := exists_readStatement_of_declarations hd
    rw [findings_of_declarations_ok hd, missingWidths_eq_map, List.map_map]
    exact .sound hd hread

private theorem findings_add (constants : List Constant) (d : Definition) (k n : Nat) :
    d.findings constants (k + n) = (d.findings constants k).map (Diagnostic.shift n) := by
  cases hd : d.declarations constants with
  | error fault =>
    rw [findings_of_declarations_error hd, findings_of_declarations_error hd]
    rfl
  | ok lines =>
    rw [findings_of_declarations_ok hd, findings_of_declarations_ok hd, List.map_map]
    rfl

theorem index_of_mem_findings {k : Nat} {diagnostic : Diagnostic}
    (h : diagnostic ∈ d.findings constants k) : diagnostic.index = some k := by
  have hjudged := judged_findings constants d k
  generalize d.findings constants k = r at h hjudged
  cases hjudged with
  | faulty hfault => rw [List.mem_singleton.1 h]
  | sound hlines hread =>
    obtain ⟨name, -, rfl⟩ := List.mem_map.1 h
    rfl

end Definition

namespace Report

/-- The same findings for definitions that stand `n` places further on. -/
def shift (n : Nat) (r : Report) : Report :=
  r.map (Diagnostic.shift n)

def about (r : Report) (k : Nat) : Report :=
  r.filter (·.index = some k)

theorem about_append (r s : Report) (k : Nat) : about (r ++ s) k = r.about k ++ s.about k :=
  List.filter_append _ _

private theorem about_eq_nil {r : Report} {k : Nat}
    (h : ∀ diagnostic ∈ r, diagnostic.index ≠ some k) : r.about k = [] := by
  rw [about, List.filter_eq_nil_iff]
  intro diagnostic hdiagnostic
  simpa using h diagnostic hdiagnostic

private theorem about_eq_self {r : Report} {k : Nat}
    (h : ∀ diagnostic ∈ r, diagnostic.index = some k) : r.about k = r := by
  rw [about, List.filter_eq_self]
  intro diagnostic hdiagnostic
  simpa using h diagnostic hdiagnostic

private theorem about_shift (r : Report) (k n : Nat) :
    (r.shift n).about (k + n) = (r.about k).shift n := by
  have hindex : (fun diagnostic : Diagnostic => decide (diagnostic.index = some (k + n))) ∘
      Diagnostic.shift n = fun diagnostic => decide (diagnostic.index = some k) := by
    funext diagnostic
    cases hdiagnostic : diagnostic.index with
    | none => simp [Diagnostic.shift, hdiagnostic]
    | some i => simp [Diagnostic.shift, hdiagnostic]
  rw [about, shift, List.filter_map, hindex]
  rfl

private theorem index_of_mem_shift {r : Report} {n : Nat} {diagnostic : Diagnostic}
    (h : diagnostic ∈ r.shift n) : ∃ d ∈ r, diagnostic.index = d.index.map (· + n) := by
  obtain ⟨d, hd, rfl⟩ := List.mem_map.1 h
  exact ⟨d, hd, rfl⟩

variable {constants : List Constant}

theorem ofDefinitions_append (ds₁ ds₂ : List Definition) :
    ofDefinitions constants (ds₁ ++ ds₂) =
      ofDefinitions constants ds₁ ++ (ofDefinitions constants ds₂).shift ds₁.length := by
  have htail : (ds₂.mapIdx fun k => Definition.findings constants (k + ds₁.length)) =
      (ds₂.mapIdx (Definition.findings constants)).map (shift ds₁.length) := by
    rw [List.mapIdx_eq_iff]
    intro k
    rw [List.getElem?_map, List.getElem?_mapIdx, Option.map_map]
    exact congrArg (ds₂[k]?.map ·) (funext fun d =>
      (Definition.findings_add constants d k ds₁.length).symm)
  rw [ofDefinitions, ofDefinitions, ofDefinitions, List.mapIdx_append, List.flatten_append, htail,
    shift, List.map_flatten]
  rfl

theorem ofDefinitions_cons (d : Definition) (ds : List Definition) :
    ofDefinitions constants (d :: ds) =
      d.findings constants 0 ++ (ofDefinitions constants ds).shift 1 := by
  rw [← List.singleton_append, ofDefinitions_append]
  simp [ofDefinitions]

theorem about_ofDefinitions {ds : List Definition} {k : Nat} {d : Definition}
    (h : ds[k]? = some d) : (ofDefinitions constants ds).about k = d.findings constants k := by
  -- The head alone is found at 0, and what is found about the tail stands one place further on.
  induction ds generalizing k with
  | nil => simp at h
  | cons head ds ih =>
    rw [ofDefinitions_cons, about_append]
    cases k with
    | zero =>
      obtain rfl : head = d := by simpa using h
      have hlater : ((ofDefinitions constants ds).shift 1).about 0 = [] := by
        apply about_eq_nil
        intro diagnostic hdiagnostic
        obtain ⟨e, -, hindex⟩ := index_of_mem_shift hdiagnostic
        rw [hindex]
        cases e.index <;> simp
      rw [about_eq_self fun _ => Definition.index_of_mem_findings, hlater, List.append_nil]
    | succ k =>
      have hfirst : (head.findings constants 0).about (k + 1) = [] := by
        apply about_eq_nil
        intro diagnostic hdiagnostic
        rw [Definition.index_of_mem_findings hdiagnostic]
        simp
      have hd : ds[k]? = some d := by simpa using h
      rw [hfirst, List.nil_append, about_shift, ih hd, Definition.findings_add]
      rfl

theorem exists_index_of_mem_ofDefinitions {ds : List Definition} {diagnostic : Diagnostic}
    (h : diagnostic ∈ ofDefinitions constants ds) :
    ∃ k < ds.length, diagnostic.index = some k := by
  induction ds generalizing diagnostic with
  | nil => exact absurd h List.not_mem_nil
  | cons d ds ih =>
    rw [ofDefinitions_cons, List.mem_append] at h
    rcases h with hfirst | hlater
    · exact ⟨0, by simp, Definition.index_of_mem_findings hfirst⟩
    · obtain ⟨e, he, hindex⟩ := index_of_mem_shift hlater
      obtain ⟨k, hk, hek⟩ := ih he
      refine ⟨k + 1, by simpa using hk, ?_⟩
      rw [hindex, hek]
      rfl

/-- One finding concerns no later definition than the other. -/
def NoLater (a b : Diagnostic) : Prop :=
  ∀ i ∈ a.index, ∀ j ∈ b.index, i ≤ j

theorem NoLater.shift {a b : Diagnostic} (h : NoLater a b) (n : Nat) :
    NoLater (a.shift n) (b.shift n) := by
  intro i hi j hj
  obtain ⟨i', hi', rfl⟩ := Option.map_eq_some_iff.1 hi
  obtain ⟨j', hj', rfl⟩ := Option.map_eq_some_iff.1 hj
  exact Nat.add_le_add_right (h i' hi' j' hj') n

theorem pairwise_ofDefinitions (ds : List Definition) :
    (ofDefinitions constants ds).Pairwise NoLater := by
  induction ds with
  | nil => exact List.Pairwise.nil
  | cons d ds ih =>
    rw [ofDefinitions_cons, List.pairwise_append]
    have hzero : ∀ a ∈ d.findings constants 0, ∀ b, NoLater a b := by
      intro a ha b i hi j _
      rw [Definition.index_of_mem_findings ha] at hi
      obtain rfl := Option.some.inj hi
      exact Nat.zero_le j
    refine ⟨?_, ?_, fun a ha b _ => hzero a ha b⟩
    · exact List.pairwise_of_forall_mem_list fun a ha b _ => hzero a ha b
    · exact List.pairwise_map.2 (ih.imp fun h => h.shift 1)

/-- Findings that are local: those about one definition come from that definition and the constants
alone, and they stand in the order of the definitions. -/
structure IsLocal (findings : List Definition → Report) (constants : List Constant) : Prop where
  append : ∀ ds₁ ds₂, findings (ds₁ ++ ds₂) = findings ds₁ ++ (findings ds₂).shift ds₁.length
  inRange : ∀ ds, ∀ diagnostic ∈ findings ds, ∃ k < ds.length, diagnostic.index = some k
  ordered : ∀ ds, (findings ds).Pairwise NoLater
  judged : ∀ (ds : List Definition) (k : Nat) (d : Definition), ds[k]? = some d →
    d.Judged constants k ((findings ds).about k)
  independent : ∀ (ds ds' : List Definition) (k : Nat), ds[k]? = ds'[k]? →
    (findings ds).about k = (findings ds').about k

theorem isLocal_ofDefinitions (constants : List Constant) :
    IsLocal (ofDefinitions constants) constants := by
  refine ⟨ofDefinitions_append, fun _ _ => exists_index_of_mem_ofDefinitions,
    pairwise_ofDefinitions, fun ds k d hd => ?_, fun ds ds' k h => ?_⟩
  · rw [about_ofDefinitions hd]
    exact Definition.judged_findings constants d k
  · cases hd : ds[k]? with
    | some d =>
      rw [about_ofDefinitions hd, about_ofDefinitions (h.symm.trans hd)]
    | none =>
      have hnil : ∀ {es : List Definition}, es[k]? = none →
          (ofDefinitions constants es).about k = [] := by
        intro es hes
        apply about_eq_nil
        intro diagnostic hdiagnostic hindex
        obtain ⟨i, hi, hi'⟩ := exists_index_of_mem_ofDefinitions hdiagnostic
        obtain rfl : i = k := Option.some.inj (hi'.symm.trans hindex)
        exact absurd (List.getElem?_eq_none_iff.1 hes) (Nat.not_le_of_lt hi)
      rw [hnil hd, hnil (h.symm.trans hd)]

/-- The findings of a check are local wherever its description has constants. -/
theorem check_isLocal {extractor : Extractor} {description : String} {constants : List Constant}
    (h : extractor description = .ok constants) :
    IsLocal (check extractor · description) constants := by
  have hcheck : (check extractor · description) = ofDefinitions constants := by
    funext ds
    rw [check, h]
  rw [hcheck]
  exact isLocal_ofDefinitions constants

theorem check_isLocal_mixed :
    let ds : List Definition := [⟨.varray, .string, ["S", "T"], [.symbol "N"]⟩,
      ⟨.harray, .number, ["A"], [.symbol "K"]⟩, ⟨.single, .number, ["N"], []⟩,
      ⟨.single, .string, ["U", "s", "T"], []⟩]
    Bound.extract "1 ≤ N ≤ 10, 1 ≤ |S| ≤ 5" = .ok [⟨"N_MAX", 10⟩, ⟨"S_MAX", 5⟩] ∧
      check Bound.extract ds "1 ≤ N ≤ 10, 1 ≤ |S| ≤ 5" =
        [⟨.warning, some 0, .unresolvedWidth "T" "T_MAX"⟩,
         ⟨.error, some 1, .unresolvedSize "K" "K_MAX"⟩,
         ⟨.warning, some 3, .unresolvedWidth "U" "U_MAX"⟩,
         ⟨.warning, some 3, .unresolvedWidth "T" "T_MAX"⟩] ∧
      IsLocal (check Bound.extract · "1 ≤ N ≤ 10, 1 ≤ |S| ≤ 5") [⟨"N_MAX", 10⟩, ⟨"S_MAX", 5⟩] := by
  intro ds
  have h : Bound.extract "1 ≤ N ≤ 10, 1 ≤ |S| ≤ 5" = .ok [⟨"N_MAX", 10⟩, ⟨"S_MAX", 5⟩] := by
    decide +kernel
  exact ⟨h, by decide +kernel, check_isLocal h⟩

end Report

end ContestInput

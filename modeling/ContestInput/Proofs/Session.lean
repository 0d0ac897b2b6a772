import ContestInput.Session
import ContestInput.Proofs.Fallible
/-!
# Sessions keep what they do not edit

Each step of a session does one thing to the problem, or nothing if it fails. So a program that is
added to the sources is the one for the description and the definitions of that moment, however
the session came there, and sources go only when the whole problem does.
-/

namespace ContestInput.Session

open Fallible

/-! ## One step -/

inductive Kind where
  /-- Steps that only tell something about the problem. -/
  | query
  /-- Steps that set the description or the definitions. -/
  | input
  /-- Steps that add a source. -/
  | source
  /-- Steps that put another problem in the place of the whole one. -/
  | replacement
  deriving DecidableEq, Repr

def Step.kind : Step → Kind
  | .generate _ | .check _ | .constants | .write => .query
  | .describe _ | .addDefinition _ | .define _ => .input
  | .addSource _ | .process _ => .source
  | .new _ | .clear | .load _ | .reload => .replacement

/-- What a step can do to a problem. -/
inductive Effect (p : Problem) : Step → Answer → Problem → Prop
  | failed {s : Step} {fault : Fault} (h : s.attempt p = .error fault) :
    Effect p s (.failed fault) p
  | told {s : Step} {answer : Answer} (hs : s.kind = .query)
    (h : ∀ fault, answer ≠ .failed fault) : Effect p s answer p
  | edited {s : Step} {q : Problem} (hs : s.kind = .input) (hsources : q.sources = p.sources) :
    Effect p s .done q
  | added (source : Source) : Effect p (.addSource source) .done (p.addSource source)
  | processed {extractor : Extractor} {text : String} (h : p.generate extractor = .ok text) :
    Effect p (.process extractor) .done (p.addSource ⟨Program.extension, text⟩)
  | replaced {s : Step} {answer : Answer} {q : Problem} (hs : s.kind = .replacement)
    (h : ∀ fault, answer ≠ .failed fault) : Effect p s answer q

theorem effect_of_attempt {s : Step} {p q : Problem} {answer : Answer}
    (h : s.attempt p = .ok (answer, q)) : Effect p s answer q := by
  cases s with
  | new id =>
    cases h
    exact .replaced rfl (by simp)
  | clear =>
    cases h
    exact .replaced rfl (by simp)
  | load text =>
    obtain ⟨loaded, -, h⟩ := bind_eq_ok_iff.1 h
    cases h
    exact .replaced rfl (by simp)
  | describe description =>
    cases h
    exact .edited rfl rfl
  | addDefinition d =>
    cases h
    exact .edited rfl rfl
  | define ds =>
    cases h
    exact .edited rfl rfl
  | addSource source =>
    cases h
    exact .added source
  | process extractor =>
    obtain ⟨processed, hprocess, h⟩ := bind_eq_ok_iff.1 h
    obtain ⟨text, htext, hprocess⟩ := bind_eq_ok_iff.1 hprocess
    cases hprocess
    cases h
    exact .processed htext
  | generate extractor =>
    obtain ⟨text, -, h⟩ := bind_eq_ok_iff.1 h
    cases h
    exact .told rfl (by simp)
  | check extractor =>
    cases h
    exact .told rfl (by simp)
  | constants =>
    obtain ⟨constants, -, h⟩ := bind_eq_ok_iff.1 h
    cases h
    exact .told rfl (by simp)
  | write =>
    cases h
    exact .told rfl (by simp)
  | reload =>
    obtain ⟨loaded, -, h⟩ := bind_eq_ok_iff.1 h
    cases h
    exact .replaced rfl (by simp)

theorem effect_apply (p : Problem) (s : Step) : Effect p s (s.apply p).1 (s.apply p).2 := by
  cases h : s.attempt p with
  | error fault =>
    have happly : s.apply p = (.failed fault, p) := by rw [Step.apply, h]
    rw [happly]
    exact .failed h
  | ok next =>
    have happly : s.apply p = next := by rw [Step.apply, h]
    rw [happly]
    exact effect_of_attempt h

namespace Effect

variable {p q : Problem} {s : Step} {answer : Answer}

theorem eq_of_failed {fault : Fault} (h : Effect p s (.failed fault) q) : q = p := by
  cases h with
  | failed => rfl
  | told => rfl
  | replaced _ hanswer => exact absurd rfl (hanswer fault)

theorem eq_of_query (h : Effect p s answer q) (hs : s.kind = .query) : q = p := by
  cases h with
  | failed => rfl
  | told => rfl
  | edited hinput => exact absurd (hs.symm.trans hinput) (by decide)
  | added => exact absurd hs (by simp [Step.kind])
  | processed => exact absurd hs (by simp [Step.kind])
  | replaced hreplaced => exact absurd (hs.symm.trans hreplaced) (by decide)

theorem input_eq (h : Effect p s answer q) (hinput : s.kind ≠ .input)
    (hreplacement : s.kind ≠ .replacement) :
    q.description = p.description ∧ q.definitions = p.definitions := by
  cases h with
  | failed => exact ⟨rfl, rfl⟩
  | told => exact ⟨rfl, rfl⟩
  | edited hs => exact absurd hs hinput
  | added => exact ⟨rfl, rfl⟩
  | processed => exact ⟨rfl, rfl⟩
  | replaced hs => exact absurd hs hreplacement

theorem prefix_sources (h : Effect p s answer q)
    (hs : s.kind = .replacement → ∃ fault, answer = .failed fault) : p.sources <+: q.sources := by
  cases h with
  | failed => exact List.prefix_rfl
  | told => exact List.prefix_rfl
  | edited _ hsources => exact ⟨[], (List.append_nil _).trans hsources.symm⟩
  | added source => exact List.prefix_append _ _
  | processed => exact List.prefix_append _ _
  | replaced hreplaced hanswer =>
    obtain ⟨fault, hfault⟩ := hs hreplaced
    exact absurd hfault (hanswer fault)

end Effect

/-- What becomes of a problem whose program is to be added: the program for its definitions and its
description is one more source at the end, or nothing changes. -/
inductive Processed (extractor : Extractor) (p : Problem) : Answer → Problem → Prop
  | done {text : String} (h : Program.generate extractor p.definitions p.description = .ok text) :
    Processed extractor p .done { p with sources := p.sources ++ [⟨"cxx", text⟩] }
  | failed {fault : Fault}
    (h : Program.generate extractor p.definitions p.description = .error fault) :
    Processed extractor p (.failed fault) p

theorem Effect.processed_of_process {p q : Problem} {extractor : Extractor} {answer : Answer}
    (h : Effect p (.process extractor) answer q) : Processed extractor p answer q := by
  cases h with
  | failed hattempt =>
    have hprocess : p.process extractor = .error _ := bind_pure_eq_error_iff.1 hattempt
    exact .failed (bind_pure_eq_error_iff.1 hprocess)
  | told hs => exact absurd hs (by simp [Step.kind])
  | edited hs => exact absurd hs (by simp [Step.kind])
  | processed htext => exact .done htext
  | replaced hs => exact absurd hs (by simp [Step.kind])

/-! ## A whole session -/

/-- A step as it was taken, between the problem before it and the problem after it. -/
structure Move where
  before : Problem
  step : Step
  answer : Answer
  after : Problem

def moves (p : Problem) : List Step → List Move
  | [] => []
  | s :: steps => ⟨p, s, (s.apply p).1, (s.apply p).2⟩ :: moves (s.apply p).2 steps

theorem run_eq_map_moves (p : Problem) (steps : List Step) :
    run p steps = (moves p steps).map fun m => (m.answer, m.after) := by
  induction steps generalizing p with
  | nil => rfl
  | cons s steps ih =>
    rw [run, moves, List.map_cons, ih]

theorem effect_of_mem_moves {p : Problem} {steps : List Step} {m : Move} (h : m ∈ moves p steps) :
    Effect m.before m.step m.answer m.after := by
  induction steps generalizing p with
  | nil => exact absurd h List.not_mem_nil
  | cons s steps ih =>
    rcases List.mem_cons.1 h with rfl | h
    · exact effect_apply p s
    · exact ih h

private theorem moves_eq_cons {p : Problem} {steps : List Step} {m : Move} {rest : List Move}
    (h : moves p steps = m :: rest) : m.before = p ∧ ∃ later, rest = moves m.after later := by
  cases steps with
  | nil => exact absurd h (by simp [moves])
  | cons s steps =>
    obtain ⟨rfl, rfl⟩ := List.cons.inj h
    exact ⟨rfl, steps, rfl⟩

private theorem exists_moves_of_append {p : Problem} {steps : List Step} {first rest : List Move}
    (h : moves p steps = first ++ rest) : ∃ q later, rest = moves q later := by
  induction first generalizing p steps with
  | nil => exact ⟨p, steps, h.symm⟩
  | cons m first ih =>
    obtain ⟨-, later, hrest⟩ := moves_eq_cons h
    exact ih hrest.symm

/-- What each of some moves keeps is kept from the problem that they start with up to the one that
the next move finds. -/
theorem keeps_before {R : Problem → Problem → Prop} (hrefl : ∀ p, R p p)
    (htrans : ∀ {p q r}, R p q → R q r → R p r) {p : Problem} {steps : List Step}
    {between : List Move} {m : Move} {rest : List Move}
    (h : moves p steps = between ++ m :: rest) (hbetween : ∀ x ∈ between, R x.before x.after) :
    R p m.before := by
  -- Each move between starts with the problem that the one before it has left.
  induction between generalizing p steps with
  | nil =>
    rw [(moves_eq_cons h).1]
    exact hrefl p
  | cons x between ih =>
    obtain ⟨hx, hbetween⟩ := List.forall_mem_cons.1 hbetween
    obtain ⟨rfl, later, hlater⟩ := moves_eq_cons h
    exact htrans hx (ih hlater.symm hbetween)

/-- A move after which programs are written from what they were written from before. -/
def Move.KeepsInput (m : Move) : Prop :=
  m.after.description = m.before.description ∧ m.after.definitions = m.before.definitions

def Move.IsRefused (m : Move) : Prop :=
  ∃ fault, m.answer = .failed fault

/-- Moves that leave alone what their steps are not for. -/
structure IsOrderly (ms : List Move) : Prop where
  failed : ∀ m ∈ ms, m.IsRefused → m.after = m.before
  query : ∀ m ∈ ms, m.step.kind = .query → m.after = m.before
  process : ∀ m ∈ ms, ∀ extractor, m.step = .process extractor →
    Processed extractor m.before m.answer m.after
  input : ∀ m ∈ ms, m.step.kind ≠ .input → m.step.kind ≠ .replacement → m.KeepsInput
  /-- Two attempts to add the program with the same extractor add the same text or fail with the
  same fault, whatever is done between them, if that keeps the input. -/
  repeated : ∀ first m between m' last extractor, ms = first ++ m :: (between ++ m' :: last) →
    m.step = .process extractor → m'.step = .process extractor →
    (∀ x ∈ between, x.KeepsInput) →
    (∃ text, m.answer = .done ∧ m.after.sources = m.before.sources ++ [⟨"cxx", text⟩] ∧
      m'.answer = .done ∧ m'.after.sources = m'.before.sources ++ [⟨"cxx", text⟩]) ∨
    ∃ fault, m.answer = .failed fault ∧ m'.answer = .failed fault
  /-- Sources stay in front as long as no replacement is carried out. -/
  sources : ∀ m ∈ ms, (m.step.kind = .replacement → m.IsRefused) →
    m.before.sources <+: m.after.sources
  sources_between : ∀ first m between m' last, ms = first ++ m :: (between ++ m' :: last) →
    (∀ x ∈ between, x.step.kind = .replacement → x.IsRefused) →
    m.after.sources <+: m'.before.sources

theorem Processed.same_text {extractor : Extractor} {p p' q q' : Problem} {answer answer' : Answer}
    (h : Processed extractor p answer q) (h' : Processed extractor p' answer' q')
    (hdescription : p'.description = p.description)
    (hdefinitions : p'.definitions = p.definitions) :
    (∃ text, answer = .done ∧ q.sources = p.sources ++ [⟨"cxx", text⟩] ∧
      answer' = .done ∧ q'.sources = p'.sources ++ [⟨"cxx", text⟩]) ∨
    ∃ fault, answer = .failed fault ∧ answer' = .failed fault := by
  have hgenerate : Program.generate extractor p'.definitions p'.description =
      Program.generate extractor p.definitions p.description := by
    rw [hdescription, hdefinitions]
  cases h with
  | @done text htext =>
    cases h' with
    | @done text' htext' =>
      obtain rfl : text' = text := Except.ok.inj (htext'.symm.trans (hgenerate.trans htext))
      exact .inl ⟨text', rfl, rfl, rfl, rfl⟩
    | failed hfault => exact absurd (hfault.symm.trans (hgenerate.trans htext)) (by simp)
  | @failed fault hfault =>
    cases h' with
    | done htext => exact absurd (htext.symm.trans (hgenerate.trans hfault)) (by simp)
    | @failed fault' hfault' =>
      obtain rfl : fault' = fault :=
        Except.error.inj (hfault'.symm.trans (hgenerate.trans hfault))
      exact .inr ⟨fault', rfl, rfl⟩

variable {p : Problem} {steps : List Step}

theorem process_of_mem_moves {m : Move} {extractor : Extractor} (h : m ∈ moves p steps)
    (hstep : m.step = .process extractor) : Processed extractor m.before m.answer m.after := by
  have heffect := effect_of_mem_moves h
  rw [hstep] at heffect
  exact heffect.processed_of_process

theorem input_before_eq {first between last : List Move} {m m' : Move}
    (h : moves p steps = first ++ m :: (between ++ m' :: last))
    (hbetween : ∀ x ∈ between, x.KeepsInput) :
    m'.before.description = m.after.description ∧ m'.before.definitions = m.after.definitions := by
  obtain ⟨q, later, hlater⟩ := exists_moves_of_append h
  obtain ⟨-, later', hlater'⟩ := moves_eq_cons hlater.symm
  exact keeps_before
    (R := fun q r => r.description = q.description ∧ r.definitions = q.definitions)
    (fun _ => ⟨rfl, rfl⟩) (fun h h' => ⟨h'.1.trans h.1, h'.2.trans h.2⟩) hlater'.symm hbetween

theorem prefix_sources_before {first between last : List Move} {m m' : Move}
    (h : moves p steps = first ++ m :: (between ++ m' :: last))
    (hbetween : ∀ x ∈ between, x.step.kind = .replacement → x.IsRefused) :
    m.after.sources <+: m'.before.sources := by
  obtain ⟨q, later, hlater⟩ := exists_moves_of_append h
  obtain ⟨-, later', hlater'⟩ := moves_eq_cons hlater.symm
  refine keeps_before (R := fun q r => q.sources <+: r.sources) (fun _ => List.prefix_rfl)
    (fun h h' => h.trans h') hlater'.symm fun x hx => ?_
  have hmem : x ∈ moves p steps := by
    rw [h]
    simp [hx]
  exact (effect_of_mem_moves hmem).prefix_sources (hbetween x hx)

theorem isOrderly_moves (p : Problem) (steps : List Step) : IsOrderly (moves p steps) where
  failed := by
    intro m hm hrefused
    obtain ⟨fault, hfault⟩ := hrefused
    have heffect := effect_of_mem_moves hm
    rw [hfault] at heffect
    exact heffect.eq_of_failed
  query := fun m hm => (effect_of_mem_moves hm).eq_of_query
  process := fun m hm extractor => process_of_mem_moves hm
  input := fun m hm => (effect_of_mem_moves hm).input_eq
  repeated := by
    intro first m between m' last extractor h hm hm' hbetween
    have hmem : m ∈ moves p steps := by rw [h]; simp
    have hmem' : m' ∈ moves p steps := by rw [h]; simp
    -- The first attempt adds a source only, so it keeps the input for the second as well.
    have hkeeps : m.KeepsInput :=
      (effect_of_mem_moves hmem).input_eq (by simp [hm, Step.kind]) (by simp [hm, Step.kind])
    obtain ⟨hdescription, hdefinitions⟩ := input_before_eq h hbetween
    exact (process_of_mem_moves hmem hm).same_text (process_of_mem_moves hmem' hm')
      (hdescription.trans hkeeps.1) (hdefinitions.trans hkeeps.2)
  sources := fun m hm => (effect_of_mem_moves hm).prefix_sources
  sources_between := fun first m between m' last h => prefix_sources_before h

/-- A session tells the moves that its steps make, one after the other, and they are orderly,
whatever the steps are and whatever problem they start with. -/
theorem run_isOrderly (p : Problem) (steps : List Step) :
    run p steps = (moves p steps).map (fun m => (m.answer, m.after)) ∧
      IsOrderly (moves p steps) :=
  ⟨run_eq_map_moves p steps, isOrderly_moves p steps⟩

/-- A refused replacement keeps what the session has come to, and the second program is added
behind the first. -/
example : (run .empty [.describe "N ≤ 5", .define [⟨.harray, .number, ["A"], [.symbol "N"]⟩],
    .process Bound.extract, .load "\x7b", .addSource ⟨"rb", ""⟩,
    .process Bound.extract]).map (·.2.sources.map (·.extension)) =
    [[], [], ["cxx"], ["cxx"], ["cxx", "rb"], ["cxx", "rb", "cxx"]] := by
  decide +kernel

end ContestInput.Session

import ContestInput.Proofs.Bound.Match
/-!
# The reading of a text

A reading of a text is the list of the places at which its clauses stand: greedy matches from left
to right that do not overlap, such that no match at all starts outside of them. Every text has
exactly one reading, and it holds the clauses that the scan finds.
-/

namespace ContestInput.Bound

/-- A match and the position at which it starts. -/
structure Span where
  start : Nat
  found : Match
  deriving DecidableEq

def Span.stop (s : Span) : Nat :=
  s.start + s.found.text.length

/-- The reading of what stands in `t` from a position on. -/
structure Reading (t : List Char) (start : Nat) (spans : List Span) : Prop where
  le_start : ∀ s ∈ spans, start ≤ s.start
  ordered : spans.Pairwise fun a b => a.stop ≤ b.start
  greedy : ∀ s ∈ spans, s.found.Greedy (t.drop s.start)
  complete : ∀ i, start ≤ i → ∀ m : Match, m.StartsAt (t.drop i) →
    ∃ s ∈ spans, s.start ≤ i ∧ i < s.stop

namespace Match

variable {m : Match} {s : List Char}

private theorem not_startsAt_nil : ¬ m.StartsAt [] := by
  intro h
  exact h.1.text_ne_nil (List.prefix_nil.1 h.2)

private theorem not_startsAt_cons {c : Char} (hc : isIdentifierChar c = false) :
    ¬ m.StartsAt (c :: s) := by
  intro h
  have hid := h.parts.1
  rw [List.takeWhile_cons_of_neg (by simp [hc])] at hid
  exact h.1.identifier_ne_nil hid.symm

/-- Where an identifier is followed by no limit, no part of it is either. -/
private theorem not_startsAt_drop {n : Nat} (h : limit? (s.dropWhile isIdentifierChar) = none)
    (hn : n ≤ (s.takeWhile isIdentifierChar).length) : ¬ m.StartsAt (s.drop n) := by
  intro hm
  have hdrop : (s.drop n).dropWhile isIdentifierChar = s.dropWhile isIdentifierChar := by
    conv_lhs => rw [← List.takeWhile_append_dropWhile (p := isIdentifierChar) (l := s)]
    rw [List.drop_append_of_le_length hn]
    apply Text.dropWhile_append
    · intro c hc
      exact List.mem_takeWhile_imp (List.mem_of_mem_drop hc)
    · exact Text.head?_dropWhile isIdentifierChar s
  obtain ⟨found, hfound⟩ := hm.limit?
  rw [hdrop, h] at hfound
  exact absurd hfound (by simp)

end Match

namespace Reading

variable {t : List Char} {start : Nat} {spans spans' : List Span}

theorem skip {next : Nat} (hle : start ≤ next)
    (h : ∀ i, start ≤ i → i < next → ∀ m : Match, ¬ m.StartsAt (t.drop i))
    (hr : Reading t next spans) : Reading t start spans where
  le_start := fun s hs => hle.trans (hr.le_start s hs)
  ordered := hr.ordered
  greedy := hr.greedy
  complete := by
    intro i hi m hm
    rcases Nat.lt_or_ge i next with hlt | hge
    · exact absurd hm (h i hi hlt m)
    · exact hr.complete i hge m hm

theorem cons {m : Match} (hm : m.Greedy (t.drop start))
    (hr : Reading t (start + m.text.length) spans) : Reading t start (⟨start, m⟩ :: spans) where
  le_start := by
    intro s hs
    rcases List.mem_cons.1 hs with rfl | hs
    · exact le_refl _
    · have := hr.le_start s hs
      omega
  ordered := List.pairwise_cons.2 ⟨hr.le_start, hr.ordered⟩
  greedy := by
    intro s hs
    rcases List.mem_cons.1 hs with rfl | hs
    · exact hm
    · exact hr.greedy s hs
  complete := by
    intro i hi m' hm'
    rcases Nat.lt_or_ge i (start + m.text.length) with hlt | hge
    · exact ⟨_, List.mem_cons_self, hi, hlt⟩
    · obtain ⟨s, hs, hin⟩ := hr.complete i hge m' hm'
      exact ⟨s, List.mem_cons_of_mem _ hs, hin⟩

theorem tail {s : Span} (hr : Reading t start (s :: spans)) : Reading t s.stop spans where
  le_start := (List.pairwise_cons.1 hr.ordered).1
  ordered := (List.pairwise_cons.1 hr.ordered).2
  greedy := fun s' hs' => hr.greedy s' (List.mem_cons_of_mem _ hs')
  complete := by
    intro i hi m hm
    have hs := hr.le_start s List.mem_cons_self
    have hstop : s.start ≤ s.stop := Nat.le_add_right _ _
    obtain ⟨s', hs', hin⟩ := hr.complete i (by omega) m hm
    rcases List.mem_cons.1 hs' with rfl | hs'
    · omega
    · exact ⟨s', hs', hin⟩

theorem start_le {s : Span} (hr : Reading t start (s :: spans)) {i : Nat} (hi : start ≤ i)
    {m : Match} (hm : m.StartsAt (t.drop i)) : s.start ≤ i := by
  obtain ⟨s', hs', hin⟩ := hr.complete i hi m hm
  rcases List.mem_cons.1 hs' with rfl | hs'
  · exact hin.1
  · have hlt := (List.pairwise_cons.1 hr.ordered).1 s' hs'
    have hstop : s.start ≤ s.stop := Nat.le_add_right _ _
    omega

theorem unique (hr : Reading t start spans) (hr' : Reading t start spans') : spans = spans' := by
  induction spans generalizing start spans' with
  | nil =>
    cases spans' with
    | nil => rfl
    | cons s' spans' =>
      have hs' := hr'.greedy s' List.mem_cons_self
      obtain ⟨s, hs, -⟩ := hr.complete s'.start (hr'.le_start s' List.mem_cons_self) _ hs'.1
      exact absurd hs List.not_mem_nil
  | cons s spans ih =>
    have hs := hr.greedy s List.mem_cons_self
    have hstart := hr.le_start s List.mem_cons_self
    cases spans' with
    | nil =>
      obtain ⟨s', hs', -⟩ := hr'.complete s.start hstart _ hs.1
      exact absurd hs' List.not_mem_nil
    | cons s' spans' =>
      have hs' := hr'.greedy s' List.mem_cons_self
      have hstart' := hr'.le_start s' List.mem_cons_self
      have heq : s.start = s'.start :=
        le_antisymm (hr.start_le hstart' hs'.1) (hr'.start_le hstart hs.1)
      obtain rfl : s = s' := by
        obtain ⟨i, m⟩ := s
        obtain ⟨i', m'⟩ := s'
        obtain rfl : i = i' := heq
        obtain rfl : m = m' := hs.unique hs'
        rfl
      rw [ih hr.tail hr'.tail]

end Reading

theorem exists_reading (t : List Char) (start : Nat) :
    ∃ spans, Reading t start spans ∧ spans.map (·.found.clause) = clauses (t.drop start) := by
  generalize hs : t.drop start = s
  fun_induction clauses s generalizing start with
  | case1 =>
    refine ⟨[], ⟨by simp, .nil, by simp, ?_⟩, rfl⟩
    intro i hi m hm
    obtain ⟨n, rfl⟩ := Nat.exists_eq_add_of_le hi
    rw [← List.drop_drop, hs, List.drop_nil] at hm
    exact absurd hm Match.not_startsAt_nil
  | case2 c s hc base k rest h ih =>
    have hrun : (c :: s).takeWhile isIdentifierChar = c :: s.takeWhile isIdentifierChar :=
      List.takeWhile_cons_of_pos hc
    have h' : limit? ((c :: s).dropWhile isIdentifierChar) = some (base, k, rest) := by
      rw [List.dropWhile_cons_of_pos hc]
      exact h
    obtain ⟨m, hm, hgreedy, htext⟩ := Match.exists_greedy_of_limit? (by simp [hrun]) h'
    obtain ⟨spans, hr, hspans⟩ := ih (start + m.text.length) (by
      rw [← List.drop_drop, hs, ← htext, List.drop_left])
    refine ⟨⟨start, m⟩ :: spans, .cons (hs ▸ hgreedy) hr, ?_⟩
    rw [List.map_cons, hspans, hm, hrun]
  | case3 c s hc h ih =>
    have h' : limit? ((c :: s).dropWhile isIdentifierChar) = none := by
      rw [List.dropWhile_cons_of_pos hc]
      exact h
    obtain ⟨spans, hr, hspans⟩ := ih (start + ((c :: s).takeWhile isIdentifierChar).length) (by
      rw [← List.drop_drop, hs, ← List.dropWhile_cons_of_pos (l := s) hc]
      conv_lhs => rw [← List.takeWhile_append_dropWhile (p := isIdentifierChar) (l := c :: s)]
      rw [List.drop_append_of_le_length (by simp)]
      simp)
    refine ⟨spans, hr.skip (Nat.le_add_right _ _) ?_, hspans⟩
    intro i hi hlt m
    obtain ⟨n, rfl⟩ := Nat.exists_eq_add_of_le hi
    rw [← List.drop_drop, hs]
    exact Match.not_startsAt_drop h' (by omega)
  | case4 c s hc ih =>
    obtain ⟨spans, hr, hspans⟩ := ih (start + 1) (by
      rw [← List.drop_drop, hs, List.drop_one, List.tail_cons])
    refine ⟨spans, hr.skip (Nat.le_add_right _ _) ?_, hspans⟩
    intro i hi hlt m
    obtain rfl : i = start := by omega
    rw [hs]
    exact Match.not_startsAt_cons (by simpa using hc)

/-- The scan finds the clauses of the one reading. -/
theorem clauses_eq_iff {t : List Char} {cs : List Clause} :
    clauses t = cs ↔ ∃ spans, Reading t 0 spans ∧ spans.map (·.found.clause) = cs := by
  obtain ⟨spans, hr, hspans⟩ := exists_reading t 0
  rw [List.drop_zero] at hspans
  constructor
  · intro h
    exact ⟨spans, hr, hspans.trans h⟩
  · intro h
    obtain ⟨spans', hr', hspans'⟩ := h
    rw [← hspans, hr.unique hr', hspans']

end ContestInput.Bound

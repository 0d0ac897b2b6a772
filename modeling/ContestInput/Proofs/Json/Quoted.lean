import ContestInput.Json.Token
import Mathlib.Data.List.Basic
/-!
# The written form of strings

What stands between the quotes of a JSON string, and the characters it means: plain characters
stand for themselves, short escapes for one character each, a numeric escape for the character
with its code, and two numeric escapes with the halves of a surrogate pair for one character.
A half without the other has a written form and no meaning.
-/

namespace ContestInput.Json

/-- The text `s` between two quotes means the characters `v`. -/
inductive Body : List Char → List Char → Prop where
  | nil : Body [] []
  | plain {c : Char} {v s : List Char} : c ≠ '"' → c ≠ '\\' → ¬ c < ' ' → Body v s →
      Body (c :: v) (c :: s)
  | short {e c : Char} {v s : List Char} : shortEscape? e = some c → Body v s →
      Body (c :: v) ('\\' :: e :: s)
  | code {a b c d : Char} {k : Nat} {v s : List Char} : hexCode? a b c d = some k →
      ¬ (0xD800 ≤ k ∧ k < 0xE000) → Body v s →
      Body (Char.ofNat k :: v) ('\\' :: 'u' :: a :: b :: c :: d :: s)
  | pair {a b c d e f g h : Char} {k l : Nat} {v s : List Char} :
      hexCode? a b c d = some k → 0xD800 ≤ k → k < 0xDC00 →
      hexCode? e f g h = some l → 0xDC00 ≤ l → l < 0xE000 → Body v s →
      Body (Char.ofNat (0x10000 + (k - 0xD800) * 0x400 + (l - 0xDC00)) :: v)
        ('\\' :: 'u' :: a :: b :: c :: d :: '\\' :: 'u' :: e :: f :: g :: h :: s)

namespace Piece

/-- The text `s` between two quotes is made of the pieces, with or without a meaning. -/
inductive Written : List Piece → List Char → Prop where
  | nil : Written [] []
  | plain {c : Char} {ps : List Piece} {s : List Char} : c ≠ '"' → c ≠ '\\' → ¬ c < ' ' →
      Written ps s → Written (.char c :: ps) (c :: s)
  | short {e c : Char} {ps : List Piece} {s : List Char} : shortEscape? e = some c →
      Written ps s → Written (.char c :: ps) ('\\' :: e :: s)
  | code {a b c d : Char} {k : Nat} {p : Piece} {ps : List Piece} {s : List Char} :
      hexCode? a b c d = some k → ofCode k = p → Written ps s →
      Written (p :: ps) ('\\' :: 'u' :: a :: b :: c :: d :: s)

variable {k : Nat} {v s body rest : List Char} {ps ps' : List Piece}

private theorem ofCode_eq_char_iff {c : Char} :
    ofCode k = .char c ↔ ¬ (0xD800 ≤ k ∧ k < 0xE000) ∧ Char.ofNat k = c := by
  unfold ofCode
  simp only [Bool.and_eq_true, decide_eq_true_eq]
  split
  · simp only [reduceCtorEq, false_iff]
    omega
  · split
    · simp only [reduceCtorEq, false_iff]
      omega
    · simp only [char.injEq, iff_and_self]
      omega

private theorem ofCode_eq_highSurrogate_iff {code : Nat} :
    ofCode k = .highSurrogate code ↔ k = code ∧ 0xD800 ≤ k ∧ k < 0xDC00 := by
  unfold ofCode
  simp only [Bool.and_eq_true, decide_eq_true_eq]
  split
  · simp only [highSurrogate.injEq, iff_self_and]
    omega
  · split
    · simp only [reduceCtorEq, false_iff]
      omega
    · simp only [reduceCtorEq, false_iff]
      omega

private theorem ofCode_eq_lowSurrogate_iff {code : Nat} :
    ofCode k = .lowSurrogate code ↔ k = code ∧ 0xDC00 ≤ k ∧ k < 0xE000 := by
  unfold ofCode
  simp only [Bool.and_eq_true, decide_eq_true_eq]
  split
  · simp only [reduceCtorEq, false_iff]
    omega
  · split
    · simp only [lowSurrogate.injEq, iff_self_and]
      omega
    · simp only [reduceCtorEq, false_iff]
      omega

theorem scan?_append (h : Written ps body) (rest : List Char) :
    scan? (body ++ '"' :: rest) = some (ps, rest) := by
  induction h with
  | nil => rfl
  | plain hquote hslash hspace _ ih =>
    rw [List.cons_append, scan?.eq_4 _ _ (fun h => hquote h) (fun _ _ _ _ _ h _ => hslash h)
      (fun _ _ h _ => hslash h), if_neg (by simp [hslash, hspace]), ih]
    rfl
  | @short e c ps s he _ ih =>
    have hu : e ≠ 'u' := by
      rintro rfl
      exact absurd he (by simp [shortEscape?])
    rw [List.cons_append, List.cons_append, scan?.eq_3 _ _ (fun _ _ _ _ _ h _ => hu h), he, ih]
    rfl
  | code hk hp _ ih =>
    simp only [List.cons_append]
    rw [scan?.eq_2, hk, ih, ← hp]
    rfl

theorem scan?_sound (h : scan? s = some (ps, rest)) :
    ∃ body, Written ps body ∧ s = body ++ '"' :: rest := by
  fun_induction scan? s generalizing ps with
  | case1 s =>
    obtain ⟨rfl, rfl⟩ := Prod.mk.inj (Option.some.inj h)
    exact ⟨[], .nil, rfl⟩
  | case2 a b c d s ih =>
    simp only [Option.bind_eq_bind, Option.bind_eq_some_iff, Option.some.injEq, Prod.mk.injEq,
      Prod.exists] at h
    obtain ⟨k, hk, ps, rest, hs, rfl, rfl⟩ := h
    obtain ⟨body, hbody, rfl⟩ := ih hs
    exact ⟨_, .code hk rfl hbody, rfl⟩
  | case3 e s _ ih =>
    simp only [Option.bind_eq_bind, Option.bind_eq_some_iff, Option.some.injEq, Prod.mk.injEq,
      Prod.exists] at h
    obtain ⟨c, hc, ps, rest, hs, rfl, rfl⟩ := h
    obtain ⟨body, hbody, rfl⟩ := ih hs
    exact ⟨_, .short hc hbody, rfl⟩
  | case4 => simp at h
  | case5 c s hquote _ _ hc ih =>
    simp only [Option.bind_eq_bind, Option.bind_eq_some_iff, Option.some.injEq, Prod.mk.injEq,
      Prod.exists] at h
    obtain ⟨ps, rest, hs, rfl, rfl⟩ := h
    obtain ⟨body, hbody, rfl⟩ := ih hs
    simp only [Bool.or_eq_true, decide_eq_true_eq, not_or] at hc
    exact ⟨_, .plain hquote hc.1 hc.2 hbody, rfl⟩
  | case6 => simp at h

theorem Written.unique (h : Written ps body) (h' : Written ps' body) : ps = ps' := by
  have hread := scan?_append h []
  rw [scan?_append h' []] at hread
  exact (Prod.mk.inj (Option.some.inj hread)).1.symm

theorem exists_written_of_body (h : Body v body) : ∃ ps, Written ps body ∧ join? ps = some v := by
  induction h with
  | nil => exact ⟨[], .nil, rfl⟩
  | plain hquote hslash hspace _ ih =>
    obtain ⟨ps, hps, hv⟩ := ih
    exact ⟨_, .plain hquote hslash hspace hps, by simp [join?, hv]⟩
  | short he _ ih =>
    obtain ⟨ps, hps, hv⟩ := ih
    exact ⟨_, .short he hps, by simp [join?, hv]⟩
  | code hk hcode _ ih =>
    obtain ⟨ps, hps, hv⟩ := ih
    exact ⟨_, .code hk (ofCode_eq_char_iff.2 ⟨hcode, rfl⟩) hps, by simp [join?, hv]⟩
  | pair hk hk₁ hk₂ hl hl₁ hl₂ _ ih =>
    obtain ⟨ps, hps, hv⟩ := ih
    refine ⟨_, .code hk (ofCode_eq_highSurrogate_iff.2 ⟨rfl, hk₁, hk₂⟩)
      (.code hl (ofCode_eq_lowSurrogate_iff.2 ⟨rfl, hl₁, hl₂⟩) hps), ?_⟩
    simp [join?, hv]

theorem Written.body_of_join? (h : Written ps body) (hv : join? ps = some v) : Body v body := by
  induction ps using join?.induct generalizing v body with
  | case1 =>
    cases h
    obtain rfl := Option.some.inj hv
    exact .nil
  | case2 c ps ih =>
    obtain ⟨w, hw, rfl⟩ := Option.map_eq_some_iff.1 hv
    cases h with
    | plain hquote hslash hspace h => exact .plain hquote hslash hspace (ih h hw)
    | short he h => exact .short he (ih h hw)
    | code hk hp h =>
      obtain ⟨hcode, rfl⟩ := ofCode_eq_char_iff.1 hp
      exact .code hk hcode (ih h hw)
  | case3 k l ps ih =>
    obtain ⟨w, hw, rfl⟩ := Option.map_eq_some_iff.1 hv
    cases h with
    | code hk hp h =>
      obtain ⟨rfl, hk₁, hk₂⟩ := ofCode_eq_highSurrogate_iff.1 hp
      cases h with
      | code hl hp h =>
        obtain ⟨rfl, hl₁, hl₂⟩ := ofCode_eq_lowSurrogate_iff.1 hp
        exact .pair hk hk₁ hk₂ hl hl₁ hl₂ (ih h hw)
  | case4 k ps hpair =>
    rw [join?] at hv
    · exact absurd hv (by simp)
    · exact hpair
  | case5 l ps => exact absurd hv (by simp [join?])

/-- The meaning of a text between quotes is what its pieces are joined to. -/
theorem join?_eq_some_iff (h : Written ps body) : join? ps = some v ↔ Body v body := by
  constructor
  · exact h.body_of_join?
  · intro hv
    obtain ⟨ps', h', hv'⟩ := exists_written_of_body hv
    rwa [h.unique h']

end Piece

end ContestInput.Json

import Mathlib.Data.List.Basic
import Mathlib.Data.Nat.Notation
import Mathlib.Logic.Basic

/-!
# Regular expressions with backtracking

The patterns of ECMAScript that are built from classes of characters, their greedy
repetition, one capture group and word boundaries. `run` is the matcher of the language
specification: each pattern is given what is to match after it, and a repetition gives up
characters when that fails. `Matches` says which words a pattern matches, whatever the order
in which they are tried.

* `run_sound`, `run_complete`: the matcher finds a match if and only if there is one.
* `mem_matchAll`: **a global search finds every match** of a pattern whose matches do not
  overlap and are determined by where they start.
-/

namespace Regex

inductive Pattern where
  | empty
  | char (p : Char → Bool)
  /-- One or more characters of the class, as many as possible. -/
  | plus (p : Char → Bool)
  | seq (r s : Pattern)
  | capture (r : Pattern)
  /-- `\b`. -/
  | boundary

namespace Pattern

/-- The characters of the word, one after the other. -/
def lit (w : List Char) : Pattern := w.foldr (fun c r => seq (char (· = c)) r) empty

end Pattern

/-- `\w`: a digit, a letter of either case or `_`. -/
def isWordChar (c : Char) : Bool :=
  let n := c.toNat
  (48 ≤ n && n ≤ 57) || (65 ≤ n && n ≤ 90) || (97 ≤ n && n ≤ 122) || n = 95

/-- The end of a word, or its start, lies between the two texts; the first is reversed. -/
def IsBoundary (before rest : List Char) : Prop := before.head?.any isWordChar ≠ rest.head?.any isWordChar

instance (before rest : List Char) : Decidable (IsBoundary before rest) := by
  unfold IsBoundary; infer_instance

/-- What was read, reversed, what is left, and the text of the capture group. -/
structure State where
  before : List Char
  rest : List Char
  captured : Option (List Char)

/-- As many characters of the class as possible, and fewer when `k` fails after them. -/
def greedy {β : Type} (p : Char → Bool) (k : List Char → List Char → Option β) :
    List Char → List Char → Option β
  | before, [] => k before []
  | before, c :: cs =>
    if p c then greedy p k (c :: before) cs <|> k before (c :: cs) else k before (c :: cs)

/-- Matches the pattern and then what `k` matches. -/
def run {β : Type} : Pattern → (State → Option β) → State → Option β
  | .empty, k, s => k s
  | .char p, k, s =>
    match s.rest with
    | c :: cs => if p c then k { s with before := c :: s.before, rest := cs } else none
    | [] => none
  | .plus p, k, s =>
    match s.rest with
    | c :: cs =>
      if p c then greedy p (fun before rest => k { s with before, rest }) (c :: s.before) cs else none
    | [] => none
  | .seq r r', k, s => run r (fun t => run r' k t) s
  | .capture r, k, s =>
    run r (fun t => k { t with captured := some (s.rest.take (s.rest.length - t.rest.length)) }) s
  | .boundary, k, s => if IsBoundary s.before s.rest then k s else none

/-- The first match that starts here. -/
def exec (r : Pattern) (before rest : List Char) : Option State := run r some ⟨before, rest, none⟩

/-- `matchAll` of a global pattern, after `skip` more characters: the text of the capture group in
each match. The search goes on where a match ends, and one character further after an empty match. -/
def matchAll (r : Pattern) : ℕ → List Char → List Char → List (Option (List Char))
  | 0, before, [] => ((exec r before []).map (·.captured)).toList
  | _ + 1, _, [] => []
  | skip + 1, before, c :: cs => matchAll r skip (c :: before) cs
  | 0, before, c :: cs =>
    match exec r before (c :: cs) with
    | some t => t.captured :: matchAll r ((c :: cs).length - t.rest.length - 1) (c :: before) cs
    | none => matchAll r 0 (c :: before) cs

/-- The pattern matches the word `w` between `before`, reversed, and `after`, and captures `x`. -/
def Matches : Pattern → List Char → List Char → List Char → Option (List Char) → Prop
  | .empty, _, w, _, x => w = [] ∧ x = none
  | .char p, _, w, _, x => (∃ c, p c = true ∧ w = [c]) ∧ x = none
  | .plus p, _, w, _, x => (w ≠ [] ∧ ∀ c ∈ w, p c = true) ∧ x = none
  | .seq r r', before, w, after, x =>
    ∃ u v y z, w = u ++ v ∧ Matches r before u (v ++ after) y ∧ Matches r' (u.reverse ++ before) v after z ∧
      x = (z <|> y)
  | .capture r, before, w, after, x => (∃ y, Matches r before w after y) ∧ x = some w
  | .boundary, before, w, after, x => (w = [] ∧ IsBoundary before after) ∧ x = none

theorem matches_lit {w u before after : List Char} {x : Option (List Char)} :
    Matches (.lit w) before u after x ↔ u = w ∧ x = none := by
  induction w generalizing u before x with
  | nil => simp [Pattern.lit, Matches]
  | cons c w ih =>
    have hcons : Pattern.lit (c :: w) = .seq (.char (· = c)) (.lit w) := rfl
    simp only [hcons, Matches, ih, decide_eq_true_eq, exists_eq_left]
    constructor
    · rintro ⟨_, _, _, _, rfl, ⟨rfl, rfl⟩, ⟨rfl, rfl⟩, rfl⟩
      exact ⟨rfl, rfl⟩
    · rintro ⟨rfl, rfl⟩
      exact ⟨[c], w, none, none, rfl, ⟨rfl, rfl⟩, ⟨rfl, rfl⟩, rfl⟩

theorem matches_seq_lit {r : Pattern} {w u before after : List Char} {x : Option (List Char)} :
    Matches (.seq (.lit w) r) before u after x ↔
      ∃ v, u = w ++ v ∧ Matches r (w.reverse ++ before) v after x := by
  simp only [Matches, matches_lit]
  constructor
  · rintro ⟨_, v, _, z, rfl, ⟨rfl, rfl⟩, hr, rfl⟩
    exact ⟨v, rfl, by cases z <;> exact hr⟩
  · rintro ⟨v, rfl, hr⟩
    exact ⟨w, v, none, x, rfl, ⟨rfl, rfl⟩, hr, by cases x <;> rfl⟩

theorem matches_seq_plus {r : Pattern} {p : Char → Bool} {u before after : List Char} {x : Option (List Char)} :
    Matches (.seq (.plus p) r) before u after x ↔
      ∃ w v, u = w ++ v ∧ (w ≠ [] ∧ ∀ c ∈ w, p c = true) ∧ Matches r (w.reverse ++ before) v after x := by
  simp only [Matches]
  constructor
  · rintro ⟨w, v, _, z, rfl, ⟨hw, rfl⟩, hr, rfl⟩
    exact ⟨w, v, rfl, hw, by cases z <;> exact hr⟩
  · rintro ⟨w, v, rfl, hw, hr⟩
    exact ⟨w, v, none, x, rfl, ⟨hw, rfl⟩, hr, by cases x <;> rfl⟩

theorem matches_capture {r : Pattern} {w before after : List Char} {x : Option (List Char)} :
    Matches (.capture r) before w after x ↔ (∃ y, Matches r before w after y) ∧ x = some w := Iff.rfl

theorem matches_seq_boundary {r : Pattern} {w before after : List Char} {x : Option (List Char)} :
    Matches (.seq r .boundary) before w after x ↔
      Matches r before w after x ∧ IsBoundary (w.reverse ++ before) after := by
  simp only [Matches]
  constructor
  · rintro ⟨w, _, y, _, rfl, hr, ⟨⟨rfl, hb⟩, rfl⟩, rfl⟩
    rw [List.append_nil]
    exact ⟨hr, hb⟩
  · rintro ⟨hr, hb⟩
    exact ⟨w, [], x, none, (List.append_nil w).symm, hr, ⟨⟨rfl, hb⟩, rfl⟩, rfl⟩

/-- A run of a class is determined by the text, when the class does not have the character after it. -/
theorem run_unique {p : Char → Bool} {u v u' v' : List Char} (hu : ∀ c ∈ u, p c = true)
    (hv : v.head?.any p = false) (hu' : ∀ c ∈ u', p c = true) (hv' : v'.head?.any p = false)
    (h : u ++ v = u' ++ v') : u = u' ∧ v = v' := by
  have htake : ∀ {u v : List Char}, (∀ c ∈ u, p c = true) → v.head?.any p = false →
      (u ++ v).takeWhile p = u := by
    intro u v hu hv
    rw [List.takeWhile_append_of_pos hu]
    cases v with
    | nil => simp
    | cons c v =>
      have hc : p c = false := by simpa using hv
      simp [hc]
  have heq : u = u' := by rw [← htake hu hv, h, htake hu' hv']
  subst heq
  exact ⟨rfl, List.append_cancel_left h⟩

/-- What starts with a run of one class does not start with a character of a class apart from it. -/
theorem head_of_run {p q : Char → Bool} {w : List Char} (hw : w ≠ [] ∧ ∀ c ∈ w, p c = true)
    (hpq : ∀ c, p c = true → q c = false) (rest : List Char) : (w ++ rest).head?.any q = false := by
  obtain ⟨hne, hw⟩ := hw
  cases w with
  | nil => exact absurd rfl hne
  | cons c w => exact hpq c (hw c List.mem_cons_self)

section

variable {β : Type} {p : Char → Bool} {before rest after w : List Char} {y : β}

/-- What `greedy` succeeds with: `k`, after some characters of the class. -/
theorem greedy_sound {k : List Char → List Char → Option β} (h : greedy p k before rest = some y) :
    ∃ w after, rest = w ++ after ∧ (∀ c ∈ w, p c = true) ∧ k (w.reverse ++ before) after = some y := by
  induction rest generalizing before with
  | nil => exact ⟨[], [], rfl, by simp, h⟩
  | cons c cs ih =>
    have hstop : k before (c :: cs) = some y → ∃ w after, c :: cs = w ++ after ∧ (∀ c ∈ w, p c = true) ∧
        k (w.reverse ++ before) after = some y := fun hk => ⟨[], c :: cs, rfl, by simp, hk⟩
    unfold greedy at h
    split at h
    case isFalse => exact hstop h
    case isTrue hc =>
      simp only [Option.orElse_eq_orElse, Option.orElse_eq_or, Option.or_eq_some_iff] at h
      rcases h with h | ⟨-, h⟩
      · obtain ⟨w, after, rfl, hw, hk⟩ := ih h
        refine ⟨c :: w, after, rfl, ?_, by simpa using hk⟩
        simpa [hc] using hw
      · exact hstop h

theorem greedy_complete {k : List Char → List Char → Option β} (hw : ∀ c ∈ w, p c = true)
    (hk : (k (w.reverse ++ before) after).isSome) : (greedy p k before (w ++ after)).isSome := by
  induction w generalizing before with
  | nil =>
    have hk : (k before after).isSome := hk
    cases after with
    | nil => exact hk
    | cons c cs =>
      simp only [List.nil_append, greedy]
      split
      · simp [hk]
      · exact hk
  | cons c w ih =>
    have hrest : (greedy p k (c :: before) (w ++ after)).isSome := by
      refine ih (fun d hd => hw d (List.mem_cons_of_mem c hd)) ?_
      simpa using hk
    simp [greedy, hw c List.mem_cons_self, hrest]

variable {r : Pattern} {s : State} {x : Option (List Char)}

/-- **What the matcher succeeds with is a match.** -/
theorem run_sound {k : State → Option β} (h : run r k s = some y) :
    ∃ w after x, s.rest = w ++ after ∧ Matches r s.before w after x ∧
      k ⟨w.reverse ++ s.before, after, x <|> s.captured⟩ = some y := by
  induction r generalizing s k with
  | empty => exact ⟨[], s.rest, none, rfl, ⟨rfl, rfl⟩, h⟩
  | char p =>
    unfold run at h
    split at h
    case h_1 c cs hrest =>
      split at h
      case isTrue hc => exact ⟨[c], cs, none, hrest, ⟨⟨c, hc, rfl⟩, rfl⟩, h⟩
      case isFalse => cases h
    case h_2 => cases h
  | plus p =>
    unfold run at h
    split at h
    case h_1 c cs hrest =>
      split at h
      case isTrue hc =>
        obtain ⟨w, after, rfl, hw, hk⟩ := greedy_sound h
        refine ⟨c :: w, after, none, hrest, ⟨⟨by simp, ?_⟩, rfl⟩, by simpa using hk⟩
        simpa [hc] using hw
      case isFalse => cases h
    case h_2 => cases h
  | seq r r' ih ih' =>
    obtain ⟨u, rest, y, hrest, hu, h⟩ := ih h
    obtain ⟨v, after, z, hafter, hv, h⟩ := ih' h
    obtain rfl : rest = v ++ after := hafter
    refine ⟨u ++ v, after, z <|> y, by simpa using hrest, ⟨u, v, y, z, rfl, hu, hv, rfl⟩, ?_⟩
    have hor : ((z <|> y) <|> s.captured) = (z <|> (y <|> s.captured)) := by cases z <;> rfl
    rw [hor]
    simpa using h
  | capture r ih =>
    obtain ⟨w, after, x, hrest, hw, h⟩ := ih h
    have htake : s.rest.take (s.rest.length - after.length) = w := by simp [hrest]
    rw [htake] at h
    exact ⟨w, after, some w, hrest, ⟨⟨x, hw⟩, rfl⟩, h⟩
  | boundary =>
    unfold run at h
    split at h
    case isTrue hb => exact ⟨[], s.rest, none, rfl, ⟨⟨rfl, hb⟩, rfl⟩, h⟩
    case isFalse => cases h

/-- **The matcher succeeds where there is a match** after which `k` succeeds. -/
theorem run_complete {k : State → Option β} {captured : Option (List Char)} (h : Matches r before w after x)
    (hk : (k ⟨w.reverse ++ before, after, x <|> captured⟩).isSome) :
    (run r k ⟨before, w ++ after, captured⟩).isSome := by
  induction r generalizing before w after x captured k with
  | empty =>
    obtain ⟨rfl, rfl⟩ := h
    exact hk
  | char p =>
    obtain ⟨⟨c, hc, rfl⟩, rfl⟩ := h
    simpa [run, hc] using hk
  | plus p =>
    obtain ⟨⟨hne, hw⟩, rfl⟩ := h
    cases w with
    | nil => exact absurd rfl hne
    | cons c w =>
      have hrest : ∀ d ∈ w, p d = true := fun d hd => hw d (List.mem_cons_of_mem c hd)
      simp only [run, List.cons_append, hw c List.mem_cons_self, if_true]
      refine greedy_complete hrest ?_
      simpa using hk
  | seq r r' ih ih' =>
    obtain ⟨u, v, y, z, rfl, hu, hv, rfl⟩ := h
    have hor : ((z <|> y) <|> captured) = (z <|> (y <|> captured)) := by cases z <;> rfl
    have hsecond : (run r' k ⟨u.reverse ++ before, v ++ after, y <|> captured⟩).isSome := by
      refine ih' hv ?_
      rw [← hor]
      simpa using hk
    have hfirst := ih (k := fun t => run r' k t) hu hsecond
    simpa [run] using hfirst
  | capture r ih =>
    obtain ⟨⟨y, hw⟩, rfl⟩ := h
    unfold run
    refine ih hw ?_
    simpa using hk
  | boundary =>
    obtain ⟨⟨rfl, hb⟩, rfl⟩ := h
    simp only [run, List.nil_append, if_pos hb]
    exact hk

/-- `exec` succeeds where there is a match, and with one. -/
theorem exec_sound {t : State} (h : exec r before rest = some t) :
    ∃ w, rest = w ++ t.rest ∧ Matches r before w t.rest t.captured := by
  obtain ⟨w, after, x, hrest, hw, ht⟩ := run_sound h
  obtain rfl := Option.some.inj ht
  refine ⟨w, hrest, ?_⟩
  cases x <;> exact hw

theorem exec_complete (h : Matches r before w after x) : (exec r before (w ++ after)).isSome :=
  run_complete h rfl

end

/-- Where a match starts determines it, and no match starts inside another one. -/
structure Unambiguous (r : Pattern) : Prop where
  determined : ∀ {before w after w' after' : List Char} {x x' : Option (List Char)},
    Matches r before w after x → Matches r before w' after' x' → w ++ after = w' ++ after' → w = w' ∧ x = x'
  apart : ∀ {before u v after w after' : List Char} {x x' : Option (List Char)}, u ≠ [] → v ≠ [] →
    Matches r before (u ++ v) after x → Matches r (u.reverse ++ before) w after' x' → v ++ after ≠ w ++ after'

section

variable {r : Pattern} {skip : ℕ} {before rest : List Char} {x : Option (List Char)}

/-- What a search finds is a match, and not in what it skips. -/
theorem matchAll_sound (h : x ∈ matchAll r skip before rest) :
    ∃ u w after, rest = u ++ (w ++ after) ∧ skip ≤ u.length ∧ Matches r (u.reverse ++ before) w after x := by
  induction rest generalizing skip before with
  | nil =>
    cases skip with
    | zero =>
      simp only [matchAll, Option.mem_toList, Option.map_eq_some_iff] at h
      obtain ⟨t, ht, rfl⟩ := h
      obtain ⟨w, hw, hmatch⟩ := exec_sound ht
      exact ⟨[], w, t.rest, hw, Nat.zero_le _, hmatch⟩
    | succ skip => cases h
  | cons c cs ih =>
    -- a match further on
    have hlater : ∀ skip' skip'', skip'' ≤ skip' + 1 → x ∈ matchAll r skip' (c :: before) cs →
        ∃ u w after, c :: cs = u ++ (w ++ after) ∧ skip'' ≤ u.length ∧
          Matches r (u.reverse ++ before) w after x := by
      intro skip' skip'' hle h
      obtain ⟨u, w, after, rfl, hlen, hmatch⟩ := ih h
      refine ⟨c :: u, w, after, rfl, ?_, by simpa using hmatch⟩
      rw [List.length_cons]
      omega
    cases skip with
    | succ skip => exact hlater skip (skip + 1) (Nat.le_refl _) h
    | zero =>
      unfold matchAll at h
      split at h
      case h_1 t ht =>
        rcases List.mem_cons.1 h with rfl | h
        · obtain ⟨w, hw, hmatch⟩ := exec_sound ht
          exact ⟨[], w, t.rest, hw, Nat.zero_le _, hmatch⟩
        · exact hlater _ 0 (Nat.zero_le _) h
      case h_2 => exact hlater 0 0 (Nat.zero_le _) h

/-- **No match is missed.** -/
theorem matchAll_complete (hr : Unambiguous r) {u w after : List Char} (hu : skip ≤ u.length)
    (h : Matches r (u.reverse ++ before) w after x) : x ∈ matchAll r skip before (u ++ (w ++ after)) := by
  -- the match that the search finds where one starts
  have hfound : ∀ {before w after : List Char} {t : State}, Matches r before w after x →
      exec r before (w ++ after) = some t → t.captured = x := by
    intro before w after t h ht
    obtain ⟨w', hw', h'⟩ := exec_sound ht
    exact (hr.determined h' h hw'.symm).2
  induction u generalizing skip before with
  | nil =>
    obtain rfl : skip = 0 := Nat.le_zero.1 hu
    obtain ⟨t, ht⟩ := Option.isSome_iff_exists.1 (exec_complete h)
    have hx := hfound h ht
    rw [List.nil_append]
    rw [List.reverse_nil, List.nil_append] at ht
    cases hrest : w ++ after with
    | nil => simp [matchAll, ← hrest, ht, hx]
    | cons c cs =>
      rw [hrest] at ht
      simp [matchAll, ht, hx]
  | cons c u ih =>
    have h' : Matches r (u.reverse ++ c :: before) w after x := by simpa using h
    cases skip with
    | succ skip => exact ih (Nat.le_of_succ_le_succ hu) h'
    | zero =>
      rw [List.cons_append]
      unfold matchAll
      split
      case h_1 t ht =>
        refine List.mem_cons_of_mem _ (ih ?_ h')
        obtain ⟨w', hw', hmatch⟩ := exec_sound ht
        -- the match that is skipped ends before this one starts
        have hlen : w'.length ≤ (c :: u).length := by
          by_contra hlt
          obtain ⟨v, hv⟩ : (c :: u) <+: w' :=
            List.prefix_of_prefix_length_le ⟨w ++ after, rfl⟩ ⟨t.rest, hw'.symm⟩ (by omega)
          have hne : v ≠ [] := by
            rintro rfl
            rw [List.append_nil] at hv
            exact hlt (hv ▸ Nat.le_refl _)
          subst hv
          refine hr.apart (List.cons_ne_nil c u) hne hmatch h ?_
          rw [List.append_assoc] at hw'
          exact (List.append_cancel_left (List.cons_injective hw')).symm
        have htotal := congrArg List.length hw'
        simp only [List.length_cons, List.length_append] at htotal hlen ⊢
        omega
      case h_2 => exact ih (Nat.zero_le _) h'

/-- **A global search finds exactly the matches.** -/
theorem mem_matchAll (hr : Unambiguous r) :
    x ∈ matchAll r 0 [] rest ↔ ∃ u w after, rest = u ++ (w ++ after) ∧ Matches r u.reverse w after x := by
  constructor
  · intro h
    obtain ⟨u, w, after, hrest, -, hmatch⟩ := matchAll_sound h
    exact ⟨u, w, after, hrest, by simpa using hmatch⟩
  · rintro ⟨u, w, after, rfl, hmatch⟩
    exact matchAll_complete hr (Nat.zero_le _) (by simpa using hmatch)

end

end Regex

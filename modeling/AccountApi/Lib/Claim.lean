import AccountApi.Lib.Run
import Mathlib.Data.Nat.Notation

/-!
# Claiming a key: check, then insert

Any number of requests claim one key of a table. Each checks that no row has the key and
inserts its own row in a later step; when another row has taken the key in between, the
unique constraint rejects the row.

* `Claims`: such a system from outside, and `Phase`: where its requests stand.
* `Move`: what a step may do to them, and `Lawful`: that every step does so.
* `Lawful.exact`: **what follows for all runs**: one row, one winner, losers that leave no
  trace, and conflicts that are all found by a check exactly when no insert races.
-/

namespace Claim

open Transition

inductive Phase where
  /-- Its own row has the key from the start. -/
  | holder
  /-- Before its check. -/
  | claiming
  /-- Its check found no row; the insert is next. -/
  | checked
  | won
  /-- Its check found a row. -/
  | refused
  /-- The constraint rejected its row. -/
  | rejected
  deriving DecidableEq, Repr

/-- Requests `ι` that claim a key of the tables `τ`. -/
structure Claims (σ α ι τ ε : Type*) where
  step : σ → α → Option σ
  request : α → ι
  tables : σ → τ
  /-- The number of rows with the key. -/
  rows : τ → ℕ
  phase : σ → ι → Phase
  /-- How a request has ended. -/
  outcome : σ → ι → Option (Except ε Unit)
  conflict : ε

variable {σ α ι τ ε : Type*} {s t start : σ} {a : α} {i : ι} {p q : Phase}

namespace Claims

variable (C : Claims σ α ι τ ε)

/-- The request inserts its row although the key was taken after its check. -/
def Races (s : σ) (a : α) : Prop := C.phase s (C.request a) = .checked ∧ 0 < C.rows (C.tables s)

/-- What a step may do, for its request. -/
inductive Move (s t : σ) : Phase → Phase → Prop
  | stay (r : Phase) : r ≠ .checked → C.tables t = C.tables s ∨ r = .won ∨ r = .holder →
      C.rows (C.tables t) = C.rows (C.tables s) → Move s t r r
  | check : C.rows (C.tables s) = 0 → C.tables t = C.tables s → Move s t .claiming .checked
  | refuse : 0 < C.rows (C.tables s) → C.tables t = C.tables s → Move s t .claiming .refused
  | win : C.rows (C.tables s) = 0 → C.rows (C.tables t) = 1 → Move s t .checked .won
  | reject : 0 < C.rows (C.tables s) → C.tables t = C.tables s → Move s t .checked .rejected

/-- No request has begun, and the key is unique. -/
structure Start (s : σ) : Prop where
  phase : ∀ i, C.phase s i = .claiming ∨ (C.phase s i = .holder ∧ 0 < C.rows (C.tables s))
  rows : C.rows (C.tables s) ≤ 1

/-- Under the invariant `I` every step is a move. A request that has ended has won, has held the key from
the start, or reports why it failed; the constraint reports something else than the conflict. -/
structure Lawful (I : σ → Prop) : Prop where
  inv : ∀ s a t, I s → C.step s a = some t → I t
  move : ∀ s a t, I s → C.step s a = some t →
    C.Move s t (C.phase s (C.request a)) (C.phase t (C.request a)) ∧
      ∀ j, j ≠ C.request a → C.phase t j = C.phase s j
  ok : ∀ s i, I s → C.outcome s i = some (.ok ()) → C.phase s i = .won ∨ C.phase s i = .holder
  error : ∀ s i e, I s → C.outcome s i = some (.error e) →
    (C.phase s i = .refused ∧ e = C.conflict) ∨ C.phase s i = .rejected
  rejected : ∀ s i, I s → C.phase s i = .rejected → ∃ e, C.outcome s i = some (.error e) ∧ e ≠ C.conflict
  live : ∀ s i, I s → C.outcome s i = none → ∃ a, C.request a = i ∧ (C.step s a).isSome

/-- **One key, one winner**, on every run from `start`. -/
structure Exact (start : σ) : Prop where
  /-- No two rows have the key. -/
  rows : ∀ as t, exec C.step start as = some t → C.rows (C.tables t) ≤ 1
  /-- Of the requests that claim a free key, one succeeds at most. -/
  winner : C.rows (C.tables start) = 0 → ∀ as t, exec C.step start as = some t → ∀ i j,
    C.outcome t i = some (.ok ()) → C.outcome t j = some (.ok ()) → i = j
  /-- A request that fails has left the tables as they were at each of its steps. -/
  silent : ∀ as t i e, exec C.step start as = some t → C.outcome t i = some (.error e) →
    ∀ bs a cs u v, as = bs ++ a :: cs → C.request a = i → exec C.step start bs = some u →
      C.step u a = some v → C.tables v = C.tables u
  /-- A request that has not ended can go on. -/
  live : ∀ as t i, exec C.step start as = some t → C.outcome t i = none →
    ∃ a, C.request a = i ∧ (C.step t a).isSome
  /-- All failures are the conflict exactly when no insert races. -/
  reported_iff : ∀ as t, exec C.step start as = some t →
    ((∀ i e, C.outcome t i = some (.error e) → e = C.conflict) ↔
      Along C.step (fun s a => ¬ C.Races s a) start as)

end Claims

variable {C : Claims σ α ι τ ε} {I : σ → Prop}

/-- A phase that is final stays. -/
theorem Claims.Move.final (h : C.Move s t p q) (hp : p ≠ .claiming) (hp' : p ≠ .checked) : q = p := by
  cases h with
  | stay => rfl
  | check | refuse => exact absurd rfl hp
  | win | reject => exact absurd rfl hp'

theorem Claims.Move.rows_le_one (h : C.Move s t p q) (hs : C.rows (C.tables s) ≤ 1) :
    C.rows (C.tables t) ≤ 1 := by
  cases h with
  | stay _ _ _ hrows => omega
  | check _ htables | refuse _ htables | reject _ htables => rwa [htables]
  | win _ hrow => omega

namespace Claims.Lawful

variable (hC : C.Lawful I)

include hC

theorem final_step (hI : I s) (h : C.step s a = some t) (hp : C.phase s i ≠ .claiming)
    (hp' : C.phase s i ≠ .checked) : C.phase t i = C.phase s i := by
  obtain ⟨hmove, hothers⟩ := hC.move s a t hI h
  by_cases hi : i = C.request a
  · subst hi
    exact hmove.final hp hp'
  · exact hothers i hi

theorem final_run {as : List α} (hI : I s) (h : exec C.step s as = some t) (hp : C.phase s i ≠ .claiming)
    (hp' : C.phase s i ≠ .checked) : C.phase t i = C.phase s i := by
  refine (invariant (I := fun u => I u ∧ C.phase u i = C.phase s i) ?_ ⟨hI, rfl⟩ h).2
  rintro u b v ⟨hIu, hu⟩ hstep
  refine ⟨hC.inv u b v hIu hstep, ?_⟩
  rw [hC.final_step hIu hstep (by rwa [hu]) (by rwa [hu]), hu]

omit hC in
/-- What holds in every state reached from `start`. -/
structure Inv (C : Claims σ α ι τ ε) (I : σ → Prop) (start s : σ) : Prop where
  inv : I s
  rows : C.rows (C.tables s) ≤ 1
  winner : ∀ i j, C.phase s i = .won → C.phase s j = .won → i = j
  taken : ∀ i, C.phase s i = .won → 0 < C.rows (C.tables s)
  holder : ∀ i, C.phase s i = .holder → C.phase start i = .holder

omit hC in
theorem inv_start (hI : I start) (hs : C.Start start) : Inv C I start start := by
  have hwon : ∀ i, C.phase start i ≠ .won := by
    intro i hi
    rcases hs.phase i with h | ⟨h, -⟩ <;> rw [hi] at h <;> cases h
  exact ⟨hI, hs.rows, fun i _ hi => absurd hi (hwon i), fun i hi => absurd hi (hwon i), fun _ h => h⟩

/-- **Every step preserves the invariant.** -/
theorem inv_step (hs : Inv C I start s) (h : C.step s a = some t) : Inv C I start t := by
  obtain ⟨hmove, hothers⟩ := hC.move s a t hs.inv h
  have hI := hC.inv s a t hs.inv h
  have hone := hmove.rows_le_one hs.rows
  -- a phase that is new is that of the request of the step
  have hnew : ∀ r, ∀ i, C.phase t i = r → C.phase s i = r ∨
      (i = C.request a ∧ C.phase t (C.request a) = r ∧ C.phase s (C.request a) ≠ r) := by
    intro r i hi
    by_cases hold : C.phase s i = r
    · exact Or.inl hold
    · by_cases heq : i = C.request a
      · subst heq
        exact Or.inr ⟨rfl, hi, hold⟩
      · exact absurd (hothers i heq ▸ hi) hold
  generalize hp : C.phase s (C.request a) = p at hmove hnew
  generalize hq : C.phase t (C.request a) = q at hmove hnew
  have hkeep : (∀ r, r = .won ∨ r = .holder → q = r → p = r) →
      C.rows (C.tables t) = C.rows (C.tables s) → Inv C I start t := by
    intro hpq hrows
    have hold : ∀ r, r = .won ∨ r = .holder → ∀ i, C.phase t i = r → C.phase s i = r := by
      intro r hr i hi
      rcases hnew r i hi with h | ⟨-, hqr, hpr⟩
      · exact h
      · exact absurd (hpq r hr hqr) hpr
    refine ⟨hI, hone, fun i j hi hj => ?_, fun i hi => ?_, fun i hi => ?_⟩
    · exact hs.winner i j (hold _ (Or.inl rfl) i hi) (hold _ (Or.inl rfl) j hj)
    · exact hrows ▸ hs.taken i (hold _ (Or.inl rfl) i hi)
    · exact hs.holder i (hold _ (Or.inr rfl) i hi)
  cases hmove with
  | stay _ _ _ hrows => exact hkeep (fun r _ h => h) hrows
  | check _ htables | refuse _ htables | reject _ htables =>
    refine hkeep (fun r hr h => ?_) (by rw [htables])
    rcases hr with rfl | rfl <;> cases h
  | win hfree hrow =>
    -- nobody had won, as the key was free
    have hnone : ∀ i, C.phase s i ≠ .won := fun i hi => by
      have := hs.taken i hi
      omega
    have hthis : ∀ i, C.phase t i = .won → i = C.request a := by
      intro i hi
      rcases hnew _ i hi with h | ⟨h, -⟩
      · exact absurd h (hnone i)
      · exact h
    refine ⟨hI, hone, fun i j hi hj => (hthis i hi).trans (hthis j hj).symm, fun i _ => by omega,
      fun i hi => ?_⟩
    rcases hnew _ i hi with h | ⟨-, h, -⟩
    · exact hs.holder i h
    · cases h

theorem inv_run {as : List α} (hs : Inv C I start s) (h : exec C.step s as = some t) : Inv C I start t :=
  invariant (fun _ _ _ hs h => hC.inv_step hs h) hs h

/-- A step rejects its row exactly when it races. -/
theorem rejected_step (hI : I s) (hnone : ∀ i, C.phase s i ≠ .rejected) (h : C.step s a = some t) :
    (∀ i, C.phase t i ≠ .rejected) ↔ ¬ C.Races s a := by
  obtain ⟨hmove, hothers⟩ := hC.move s a t hI h
  have hiff : (∀ i, C.phase t i ≠ .rejected) ↔ C.phase t (C.request a) ≠ .rejected := by
    refine ⟨fun h => h _, fun h i => ?_⟩
    by_cases hi : i = C.request a
    · exact hi ▸ h
    · exact hothers i hi ▸ hnone i
  have hbefore := hnone (C.request a)
  rw [hiff, Races]
  generalize C.phase s (C.request a) = p at hmove hbefore
  generalize C.phase t (C.request a) = q at hmove
  cases hmove with
  | stay _ hp _ _ => simp [hp, hbefore]
  | check | refuse => simp
  | win hfree _ => simp [hfree]
  | reject htaken _ => simp [htaken]

/-- A row that was rejected stays so, and no row was exactly when no insert raced. -/
theorem rejected_iff {as : List α} (hI : I start) (hs : C.Start start) (h : exec C.step start as = some t) :
    (∀ i, C.phase t i ≠ .rejected) ↔ Along C.step (fun s a => ¬ C.Races s a) start as := by
  have hnone : ∀ i, C.phase start i ≠ .rejected := by
    intro i hi
    rcases hs.phase i with h | ⟨h, -⟩ <;> rw [hi] at h <;> cases h
  rw [← always_iff_along (P := fun s => ∀ i, C.phase s i ≠ .rejected) (fun s a t => hC.inv s a t)
    (fun s a t hI hs h => hC.rejected_step hI hs h) hI hnone h, always_iff_prefix]
  constructor
  · rintro hend bs ⟨cs, rfl⟩ u hu i hi
    obtain ⟨v, hv, hrest⟩ := exec_append.1 h
    obtain rfl := Option.some.inj (hu.symm.trans hv)
    have hIu : I u := invariant (fun s a t => hC.inv s a t) hI hu
    exact hend i ((hC.final_run hIu hrest (by simp [hi]) (by simp [hi])).trans hi)
  · intro hall
    exact hall as (List.prefix_refl as) t h

/-- The steps of a request that has failed left the tables as they were. -/
theorem silent (hs : Inv C I start s) {e : ε} {cs : List α} (hstep : C.step s a = some t) {u : σ}
    (hrest : exec C.step t cs = some u) (he : C.outcome u (C.request a) = some (.error e)) :
    C.tables t = C.tables s := by
  have hI := hC.inv s a t hs.inv hstep
  have hIu : I u := invariant (fun s a t => hC.inv s a t) hI hrest
  have hfailed : C.phase u (C.request a) ≠ .won ∧ C.phase u (C.request a) ≠ .holder := by
    rcases hC.error u _ e hIu he with ⟨h, -⟩ | h <;> rw [h] <;> simp
  have hwrites : ∀ r, r = .won ∨ r = .holder → C.phase t (C.request a) ≠ r := by
    intro r hr ht
    have hfinal := hC.final_run (i := C.request a) hI hrest
    rcases hr with rfl | rfl
    · exact hfailed.1 ((hfinal (by simp [ht]) (by simp [ht])).trans ht)
    · exact hfailed.2 ((hfinal (by simp [ht]) (by simp [ht])).trans ht)
  obtain ⟨hmove, -⟩ := hC.move s a t hs.inv hstep
  generalize C.phase s (C.request a) = p at hmove
  generalize C.phase t (C.request a) = q at hmove hwrites
  cases hmove with
  | stay r _ htables _ =>
    rcases htables with htables | rfl | rfl
    · exact htables
    · exact absurd rfl (hwrites _ (Or.inl rfl))
    · exact absurd rfl (hwrites _ (Or.inr rfl))
  | check _ htables | refuse _ htables | reject _ htables => exact htables
  | win _ _ => exact absurd rfl (hwrites _ (Or.inl rfl))

/-- **One key, one winner.** -/
theorem exact (hI : I start) (hs : C.Start start) : C.Exact start := by
  have hinv : ∀ as t, exec C.step start as = some t → Inv C I start t :=
    fun as t h => hC.inv_run (inv_start hI hs) h
  refine ⟨fun as t h => (hinv as t h).rows, fun hfree as t h i j hi hj => ?_, ?_,
    fun as t i h hi => hC.live t i (hinv as t h).inv hi, fun as t h => ?_⟩
  case refine_1 =>
    have hinv := hinv as t h
    -- nobody held the key from the start
    have hwon : ∀ k, C.outcome t k = some (.ok ()) → C.phase t k = .won := by
      intro k hk
      rcases hC.ok t k hinv.inv hk with hk | hk
      · exact hk
      · rcases hs.phase k with h | ⟨-, htaken⟩
        · rw [hinv.holder k hk] at h
          cases h
        · omega
    exact hinv.winner i j (hwon i hi) (hwon j hj)
  case refine_2 =>
    rintro as t i e h he bs a cs u v rfl rfl hu hstep
    obtain ⟨w, hw, hrest⟩ := exec_append.1 h
    obtain rfl := Option.some.inj (hu.symm.trans hw)
    obtain ⟨x, hx, hrest⟩ := exec_cons.1 hrest
    obtain rfl := Option.some.inj (hstep.symm.trans hx)
    exact hC.silent (hinv bs u hu) hstep hrest he
  case refine_3 =>
    have hIt := (hinv as t h).inv
    rw [← hC.rejected_iff hI hs h]
    constructor
    · intro hall i hi
      obtain ⟨e, he, hne⟩ := hC.rejected t i hIt hi
      exact hne (hall i e he)
    · intro hnone i e he
      rcases hC.error t i e hIt he with ⟨-, heq⟩ | hrejected
      · exact heq
      · exact absurd hrejected (hnone i)

end Claims.Lawful

end Claim

import Mathlib.Logic.Basic
import Mathlib.Data.List.Basic

/-!
# Runs of a partial step function

`step s a` is the state after action `a` in state `s`, or `none` when `a` is not
enabled there. `exec` performs a list of actions; `Along ok` says that every
action of a run satisfies `ok` in the state it is performed in, `Always P` that
every state of the run satisfies `P`.

* `invariant`: what every step preserves, every run preserves.
* `invariant_along`: the same for runs all of whose steps satisfy a condition.
* `count_le`: a party takes no more steps than a measure allows it.
* `exec_becomes`: what becomes true along a run becomes true at one of its steps.
* `along_of_check`: a condition that can be computed is checked by running.
* `along_congr`: two conditions that agree on an invariant agree along runs.
* `always_iff_along`: a property that exactly the steps with a condition preserve
  holds throughout a run if and only if all its steps satisfy the condition.
-/

namespace Transition

variable {σ α : Type*} {step : σ → α → Option σ}

/-- The state after the actions `as`, `none` when one of them is not enabled. -/
def exec (step : σ → α → Option σ) : σ → List α → Option σ
  | s, [] => some s
  | s, a :: as => (step s a).bind fun t => exec step t as

/-- Every action of the run satisfies `ok` in the state before it. -/
def Along (step : σ → α → Option σ) (ok : σ → α → Prop) : σ → List α → Prop
  | _, [] => True
  | s, a :: as => ok s a ∧ ∀ t, step s a = some t → Along step ok t as

@[simp] theorem exec_nil {s t : σ} : exec step s [] = some t ↔ s = t := by simp [exec]

theorem exec_cons {s t : σ} {a : α} {as : List α} :
    exec step s (a :: as) = some t ↔ ∃ u, step s a = some u ∧ exec step u as = some t := by
  simp [exec, Option.bind_eq_some_iff]

theorem exec_append {s t : σ} {as bs : List α} :
    exec step s (as ++ bs) = some t ↔ ∃ u, exec step s as = some u ∧ exec step u bs = some t := by
  induction as generalizing s with
  | nil => simp [exec]
  | cons a as ih =>
    simp only [List.cons_append, exec_cons, ih]
    constructor
    · rintro ⟨u, hu, v, hv, ht⟩; exact ⟨v, ⟨u, hu, hv⟩, ht⟩
    · rintro ⟨v, ⟨u, hu, hv⟩, ht⟩; exact ⟨u, hu, v, hv, ht⟩

theorem exec_map {β : Type*} {f : β → α} {s : σ} {bs : List β} :
    exec (fun s b => step s (f b)) s bs = exec step s (bs.map f) := by
  induction bs generalizing s with
  | nil => rfl
  | cons b bs ih => simp only [List.map_cons, exec, ih]

/-- `Along` for a condition that can be computed, as a check of the run. -/
def check (step : σ → α → Option σ) (ok : σ → α → Bool) : σ → List α → Bool
  | _, [] => true
  | s, a :: as => ok s a && (step s a).all fun t => check step ok t as

theorem along_of_check (ok : σ → α → Bool) {ok' : σ → α → Prop} (h : ∀ s a, ok s a = true → ok' s a)
    {s : σ} {as : List α} (hc : check step ok s as = true) : Along step ok' s as := by
  induction as generalizing s with
  | nil => trivial
  | cons a as ih =>
    simp only [check, Bool.and_eq_true, Option.all_eq_true] at hc
    exact ⟨h s a hc.1, fun t ht => ih (hc.2 t ht)⟩

/-- A condition on the actions alone. -/
theorem along_of_forall {ok : α → Prop} {s : σ} {as : List α} (h : ∀ a ∈ as, ok a) :
    Along step (fun _ a => ok a) s as := by
  induction as generalizing s with
  | nil => trivial
  | cons a as ih =>
    exact ⟨h a List.mem_cons_self, fun t _ => ih fun b hb => h b (List.mem_cons_of_mem a hb)⟩

/-- What holds of the party that moves, and still of every other one, holds of all of them. -/
theorem forall_moved {ι π : Type*} {p q : ι → π} {i : ι} (hothers : ∀ j, j ≠ i → q j = p j)
    {P : ι → π → Prop} (hi : P i (q i)) (hrest : ∀ j, j ≠ i → P j (p j)) : ∀ j, P j (q j) := by
  intro j
  by_cases hji : j = i
  · exact hji ▸ hi
  · exact (hothers j hji).symm ▸ hrest j hji

/-- **What every step preserves, every run preserves.** -/
theorem invariant {I : σ → Prop} (hstep : ∀ s a t, I s → step s a = some t → I t)
    {s t : σ} {as : List α} (hs : I s) (h : exec step s as = some t) : I t := by
  induction as generalizing s with
  | nil => simp only [exec_nil] at h; exact h ▸ hs
  | cons a as ih =>
    obtain ⟨u, hu, ht⟩ := exec_cons.1 h
    exact ih (hstep s a u hs hu) ht

/-- **An invariant of the steps that satisfy `ok`** holds after a run of such steps. -/
theorem invariant_along {I : σ → Prop} {ok : σ → α → Prop}
    (hstep : ∀ s a t, I s → ok s a → step s a = some t → I t)
    {s t : σ} {as : List α} (hs : I s) (hok : Along step ok s as)
    (h : exec step s as = some t) : I t := by
  induction as generalizing s with
  | nil => simp only [exec_nil] at h; exact h ▸ hs
  | cons a as ih =>
    obtain ⟨u, hu, ht⟩ := exec_cons.1 h
    exact ih (hstep s a u hs hok.1 hu) (hok.2 u hu) ht

/-- **A party's steps are bounded** by what each of them takes from a measure that no step adds to. -/
theorem count_le {ι : Type*} [DecidableEq ι] {I : σ → Prop} {party : α → ι} {i : ι} {μ : σ → ℕ}
    (hstep : ∀ s a t, I s → step s a = some t → I t ∧ μ t + (if party a = i then 1 else 0) ≤ μ s)
    {s t : σ} {as : List α} (hs : I s) (h : exec step s as = some t) :
    (as.map party).count i + μ t ≤ μ s := by
  induction as generalizing s with
  | nil => simp only [exec_nil] at h; simp [h]
  | cons a as ih =>
    obtain ⟨u, hu, ht⟩ := exec_cons.1 h
    obtain ⟨hIu, hle⟩ := hstep s a u hs hu
    have hrest := ih hIu ht
    simp only [List.map_cons, List.count_cons, beq_iff_eq]
    omega

/-- **What becomes true along a run becomes true at one of its steps.** -/
theorem exec_becomes {P : σ → Prop} {s t : σ} {as : List α} (h : exec step s as = some t) (hs : ¬ P s)
    (ht : P t) : ∃ bs a cs u v, as = bs ++ a :: cs ∧ exec step s bs = some u ∧ step u a = some v ∧
      ¬ P u ∧ P v := by
  induction as generalizing s with
  | nil => exact absurd (exec_nil.1 h ▸ ht) hs
  | cons a as ih =>
    obtain ⟨u, hu, hrest⟩ := exec_cons.1 h
    by_cases hPu : P u
    · exact ⟨[], a, as, s, u, rfl, exec_nil.2 rfl, hu, hs, hPu⟩
    · obtain ⟨bs, b, cs, v, w, rfl, hbs, hvw⟩ := ih hrest hPu
      exact ⟨a :: bs, b, cs, v, w, rfl, exec_cons.2 ⟨u, hu, hbs⟩, hvw⟩

/-- Two conditions that agree on the steps from the states of an invariant agree along its runs. -/
theorem along_congr {I : σ → Prop} {ok ok' : σ → α → Prop}
    (hstep : ∀ s a t, I s → step s a = some t → I t)
    (hiff : ∀ s a t, I s → step s a = some t → (ok s a ↔ ok' s a))
    {s t : σ} {as : List α} (hs : I s) (h : exec step s as = some t) :
    Along step ok s as ↔ Along step ok' s as := by
  induction as generalizing s with
  | nil => simp [Along]
  | cons a as ih =>
    obtain ⟨u, hu, ht⟩ := exec_cons.1 h
    simp only [Along]
    refine and_congr (hiff s a u hs hu) (forall₂_congr fun v hv => ?_)
    obtain rfl := Option.some.inj (hu.symm.trans hv)
    exact ih (hstep s a u hs hu) ht

/-- Every state of the run satisfies `P`, the first and the last included. -/
def Always (step : σ → α → Option σ) (P : σ → Prop) : σ → List α → Prop
  | s, [] => P s
  | s, a :: as => P s ∧ ∀ t, step s a = some t → Always step P t as

/-- The states of a run are those after its prefixes. -/
theorem always_iff_prefix {P : σ → Prop} {s : σ} {as : List α} :
    Always step P s as ↔ ∀ bs, bs <+: as → ∀ t, exec step s bs = some t → P t := by
  induction as generalizing s with
  | nil =>
    simp only [Always, List.prefix_nil, forall_eq, exec_nil]
    exact ⟨fun h t ht => ht ▸ h, fun h => h s rfl⟩
  | cons a as ih =>
    simp only [Always, ih]
    constructor
    · rintro ⟨hs, h⟩ bs hbs t ht
      rcases bs with _ | ⟨b, bs⟩
      · rw [exec_nil] at ht; exact ht ▸ hs
      · obtain ⟨rfl, hrest⟩ := List.cons_prefix_cons.1 hbs
        obtain ⟨u, hu, ht⟩ := exec_cons.1 ht
        exact h u hu bs hrest t ht
    · intro h
      refine ⟨h [] (List.nil_prefix) s (exec_nil.2 rfl), fun u hu bs hbs t ht => ?_⟩
      exact h (a :: bs) (List.cons_prefix_cons.2 ⟨rfl, hbs⟩) t (exec_cons.2 ⟨u, hu, ht⟩)

/-- **A property that exactly the steps with a condition preserve** holds throughout a run if and
only if all its steps satisfy the condition. -/
theorem always_iff_along {I P : σ → Prop} {ok : σ → α → Prop}
    (hstep : ∀ s a t, I s → step s a = some t → I t)
    (hiff : ∀ s a t, I s → P s → step s a = some t → (P t ↔ ok s a))
    {s t : σ} {as : List α} (hI : I s) (hP : P s) (h : exec step s as = some t) :
    Always step P s as ↔ Along step ok s as := by
  induction as generalizing s with
  | nil => exact ⟨fun _ => trivial, fun _ => hP⟩
  | cons a as ih =>
    obtain ⟨u, hu, ht⟩ := exec_cons.1 h
    have hnext := hiff s a u hI hP hu
    have hrest := fun hPu => ih (hstep s a u hI hu) hPu ht
    have hall : ∀ Q : σ → Prop, (∀ v, step s a = some v → Q v) ↔ Q u := by
      intro Q
      constructor
      · intro hQ; exact hQ u hu
      · intro hQ v hv
        obtain rfl := Option.some.inj (hu.symm.trans hv)
        exact hQ
    simp only [Always, Along, hall]
    constructor
    · rintro ⟨-, hP'⟩
      have hPu : P u := by
        cases as with
        | nil => exact hP'
        | cons => exact hP'.1
      exact ⟨hnext.1 hPu, (hrest hPu).1 hP'⟩
    · rintro ⟨hok, hok'⟩
      exact ⟨hP, (hrest (hnext.2 hok)).2 hok'⟩

end Transition

import AccountApi.Lib.Run
import Mathlib.Data.List.Sublists

/-!
# Simulations that stutter

Two systems, related by `R`. A step of the second one is a step of the first, under an action
that `act` reads off, or changes nothing in the first (`Refines`); a step of the first is matched
by some steps of the second (`Covers`). Where the actions do not matter, a step of one system is
matched by some steps of the other (`Simulates`).

* `Simulates.run`: what a run of one system reaches, the other one reaches too.
* `Refines.run`: a run of the second system is a run of the first with some actions left out.
* `Covers.run`: a run of the first system is one of the second with some actions put in.

Only some actions of the first system are `visible` in the second one (`Unwinds`): a visible one is
matched by one step under an action that `M` relates to it, any other by none.

* `Unwinds.run`: the visible actions of a run, each matched, are a run of the second system.
-/

namespace Transition

variable {σ τ α β : Type*}

/-- Every step of `step'` is a step of `step` or none at all. -/
def Refines (step : σ → α → Option σ) (step' : τ → β → Option τ) (R : σ → τ → Prop) (act : β → Option α) :
    Prop :=
  ∀ s t b t', R s t → step' t b = some t' →
    R s t' ∨ ∃ a s', act b = some a ∧ step s a = some s' ∧ R s' t'

/-- Every step of `step` is matched by steps of `step'`, the action itself among theirs. -/
def Covers (step : σ → α → Option σ) (step' : τ → β → Option τ) (R : σ → τ → Prop) (act : β → Option α) :
    Prop :=
  ∀ s t a s', R s t → step s a = some s' →
    ∃ bs t', a ∈ bs.filterMap act ∧ exec step' t bs = some t' ∧ R s' t'

/-- Every step of `step'` is matched by steps of `step`. -/
def Simulates (step : σ → α → Option σ) (step' : τ → β → Option τ) (R : σ → τ → Prop) : Prop :=
  ∀ s t b t', R s t → step' t b = some t' → ∃ as s', exec step s as = some s' ∧ R s' t'

/-- A step under a visible action is matched by one step, and any other keeps the states related. -/
structure Unwinds (step : σ → α → Option σ) (step' : τ → β → Option τ) (R : σ → τ → Prop) (visible : α → Bool)
    (M : α → β → Prop) : Prop where
  hidden : ∀ s t a s', visible a = false → R s t → step s a = some s' → R s' t
  shown : ∀ s t a s', visible a = true → R s t → step s a = some s' →
    ∃ b t', M a b ∧ step' t b = some t' ∧ R s' t'

variable {step : σ → α → Option σ} {step' : τ → β → Option τ} {R : σ → τ → Prop} {act : β → Option α}
  {visible : α → Bool} {M : α → β → Prop}

theorem Simulates.run (hR : Simulates step step' R) {s : σ} {t t' : τ} {bs : List β} (h : R s t)
    (hrun : exec step' t bs = some t') : ∃ as s', exec step s as = some s' ∧ R s' t' := by
  induction bs generalizing s t with
  | nil => exact ⟨[], s, exec_nil.2 rfl, exec_nil.1 hrun ▸ h⟩
  | cons b bs ih =>
    obtain ⟨u, hu, hrest⟩ := exec_cons.1 hrun
    obtain ⟨as, s', hs', hR'⟩ := hR s t b u h hu
    obtain ⟨as', s'', hs'', hR''⟩ := ih hR' hrest
    exact ⟨as ++ as', s'', exec_append.2 ⟨s', hs', hs''⟩, hR''⟩

theorem Refines.run (hR : Refines step step' R act) {s : σ} {t t' : τ} {bs : List β} (h : R s t)
    (hrun : exec step' t bs = some t') :
    ∃ as s', as.Sublist (bs.filterMap act) ∧ exec step s as = some s' ∧ R s' t' := by
  induction bs generalizing s t with
  | nil => exact ⟨[], s, List.Sublist.refl _, exec_nil.2 rfl, exec_nil.1 hrun ▸ h⟩
  | cons b bs ih =>
    obtain ⟨u, hu, hrest⟩ := exec_cons.1 hrun
    rcases hR s t b u h hu with hstays | ⟨a, s', hact, hstep, hmoves⟩
    · obtain ⟨as, s', hsub, hs', hR'⟩ := ih hstays hrest
      have hskip : (bs.filterMap act).Sublist ((b :: bs).filterMap act) :=
        (List.sublist_cons_self b bs).filterMap act
      exact ⟨as, s', hsub.trans hskip, hs', hR'⟩
    · obtain ⟨as, s'', hsub, hs'', hR'⟩ := ih hmoves hrest
      refine ⟨a :: as, s'', ?_, exec_cons.2 ⟨s', hstep, hs''⟩, hR'⟩
      rw [List.filterMap_cons_some hact]
      exact hsub.cons_cons a

theorem Covers.run (hC : Covers step step' R act) {s s' : σ} {t : τ} {as : List α} (h : R s t)
    (hrun : exec step s as = some s') :
    ∃ bs t', as.Sublist (bs.filterMap act) ∧ exec step' t bs = some t' ∧ R s' t' := by
  induction as generalizing s t with
  | nil => exact ⟨[], t, List.Sublist.refl _, exec_nil.2 rfl, exec_nil.1 hrun ▸ h⟩
  | cons a as ih =>
    obtain ⟨u, hu, hrest⟩ := exec_cons.1 hrun
    obtain ⟨bs, t', hmem, ht', hR'⟩ := hC s t a u h hu
    obtain ⟨cs, t'', hsub, ht'', hR''⟩ := ih hR' hrest
    refine ⟨bs ++ cs, t'', ?_, exec_append.2 ⟨t', ht', ht''⟩, hR''⟩
    rw [List.filterMap_append]
    have hone : [a].Sublist (bs.filterMap act) := List.singleton_sublist.2 hmem
    exact hone.append hsub

theorem Unwinds.run (hU : Unwinds step step' R visible M) {s s' : σ} {t : τ} {as : List α} (h : R s t)
    (hrun : exec step s as = some s') :
    ∃ bs t', List.Forall₂ M (as.filter visible) bs ∧ exec step' t bs = some t' ∧ R s' t' := by
  induction as generalizing s t with
  | nil => exact ⟨[], t, List.Forall₂.nil, exec_nil.2 rfl, exec_nil.1 hrun ▸ h⟩
  | cons a as ih =>
    obtain ⟨u, hu, hrest⟩ := exec_cons.1 hrun
    cases hv : visible a with
    | false =>
      rw [List.filter_cons_of_neg (by simp [hv])]
      exact ih (hU.hidden s t a u hv h hu) hrest
    | true =>
      obtain ⟨b, t₁, hM, ht₁, hR⟩ := hU.shown s t a u hv h hu
      obtain ⟨bs, t', hbs, ht', hR'⟩ := ih hR hrest
      rw [List.filter_cons_of_pos hv]
      exact ⟨b :: bs, t', List.Forall₂.cons hM hbs, exec_cons.2 ⟨t₁, ht₁, ht'⟩, hR'⟩

end Transition

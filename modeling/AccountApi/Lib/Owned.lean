import Mathlib.Algebra.BigOperators.Group.Finset.Basic
import Mathlib.Algebra.Order.Group.Multiset
import Mathlib.Data.Fintype.Basic

/-!
# Rows that parties hold

A list of rows that grows, and whose rows are replaced. Each party holds some of them, no two the
same one, and knows the index and the content of each (`Owned`); the others are free. A party
takes a new row (`push`), replaces the one it took last (`modify`) and lets it go (`release`); a
new row that nobody takes is free at once (`abandon`).

* `Owned.rows_eq`: whatever the parties do, the rows are the free ones and those still held.
-/

variable {ι α β M : Type*}

/-- A sum over the parties after one of them has changed. -/
theorem sum_update_add [Fintype ι] [DecidableEq ι] [AddCommMonoid M] (f : ι → β) (g : β → M) (i : ι) (x : β) :
    (∑ j, g (Function.update f i x j)) + g (f i) = (∑ j, g (f j)) + g x := by
  have hrest : ∑ j ∈ Finset.univ.erase i, g (Function.update f i x j) =
      ∑ j ∈ Finset.univ.erase i, g (f j) := by
    refine Finset.sum_congr rfl fun j hj => ?_
    rw [Function.update_of_ne (Finset.ne_of_mem_erase hj)]
  rw [← Finset.add_sum_erase _ _ (Finset.mem_univ i), ← Finset.add_sum_erase _ _ (Finset.mem_univ i), hrest,
    Function.update_self, add_right_comm, add_comm (g x) (g (f i)), add_right_comm]

/-- A row replaced in the multiset of the rows. -/
theorem coe_modify_add {rows : List α} {n : ℕ} {x : α} (f : α → α) (h : rows[n]? = some x) :
    ((rows.modify n f : List α) : Multiset α) + {x} = (rows : Multiset α) + {f x} := by
  induction rows generalizing n with
  | nil => simp at h
  | cons a rows ih =>
    cases n with
    | zero =>
      simp only [List.getElem?_cons_zero, Option.some.injEq] at h
      subst h
      rw [List.modify_zero_cons, ← Multiset.cons_coe, ← Multiset.cons_coe, ← Multiset.singleton_add,
        ← Multiset.singleton_add, add_right_comm, add_comm ({f a} : Multiset α) {a}, add_right_comm]
    | succ n =>
      have hrest := ih (n := n) (by simpa using h)
      rw [List.modify_succ_cons, ← Multiset.cons_coe, ← Multiset.cons_coe, Multiset.cons_add, Multiset.cons_add,
        hrest]

/-- The rows, those that are free, and what each party holds: the index and the content. -/
structure Owned [Fintype ι] (rows : List α) (free : Multiset α) (held : ι → List (ℕ × α)) : Prop where
  rows_eq : (rows : Multiset α) = free + ∑ i, (((held i).map Prod.snd : List α) : Multiset α)
  content : ∀ i, ∀ v ∈ held i, rows[v.1]? = some v.2
  nodup : ∀ i, ((held i).map Prod.fst).Nodup
  disjoint : ∀ i j, i ≠ j → ∀ v ∈ held i, ∀ w ∈ held j, v.1 ≠ w.1

namespace Owned

variable [Fintype ι] {rows : List α} {free : Multiset α} {held : ι → List (ℕ × α)} {i : ι}
  {n : ℕ} {x : α} {vs : List (ℕ × α)}

theorem lt_length (h : Owned rows free held) {v : ℕ × α} (hv : v ∈ held i) : v.1 < rows.length :=
  (List.getElem?_eq_some_iff.1 (h.content i v hv)).1

/-- Nobody holds anything. -/
theorem none_held (rows : List α) : Owned rows (rows : Multiset α) (fun _ : ι => []) where
  rows_eq := by simp
  content := by simp
  nodup := by simp
  disjoint := by simp

/-- When nobody holds anything, the rows are the free ones. -/
theorem rows_of_none (h : Owned rows free held) (hnone : ∀ i, held i = []) : (rows : Multiset α) = free := by
  have hsum : ∑ i, (((held i).map Prod.snd : List α) : Multiset α) = 0 :=
    Finset.sum_eq_zero fun i _ => by simp [hnone i]
  rw [h.rows_eq, hsum, add_zero]

/-- A new row that nobody takes. -/
theorem abandon (h : Owned rows free held) (x : α) : Owned (rows ++ [x]) (free + {x}) held where
  rows_eq := by
    rw [← Multiset.coe_add, h.rows_eq, Multiset.coe_singleton, add_right_comm]
  content j v hv := by
    rw [List.getElem?_append_left (h.lt_length hv)]
    exact h.content j v hv
  nodup := h.nodup
  disjoint := h.disjoint

variable [DecidableEq ι]

/-- The party takes a new row. -/
theorem push (h : Owned rows free held) (i : ι) (x : α) :
    Owned (rows ++ [x]) free (Function.update held i ((rows.length, x) :: held i)) := by
  have hold : ∀ {j v}, v ∈ held j → v.1 ≠ rows.length := fun hv => (h.lt_length hv).ne
  constructor
  · have hsum := sum_update_add held (fun vs => ((vs.map Prod.snd : List α) : Multiset α)) i
      ((rows.length, x) :: held i)
    rw [List.map_cons, ← Multiset.cons_coe, ← Multiset.singleton_add, ← add_assoc] at hsum
    rw [← Multiset.coe_add, h.rows_eq, Multiset.coe_singleton, add_assoc, add_right_cancel hsum]
  · intro j v hv
    by_cases hji : j = i
    · subst hji
      rw [Function.update_self, List.mem_cons] at hv
      rcases hv with rfl | hv
      · simp
      · rw [List.getElem?_append_left (h.lt_length hv)]; exact h.content j v hv
    · rw [Function.update_of_ne hji] at hv
      rw [List.getElem?_append_left (h.lt_length hv)]; exact h.content j v hv
  · intro j
    by_cases hji : j = i
    · subst hji
      rw [Function.update_self, List.map_cons, List.nodup_cons]
      refine ⟨fun hmem => ?_, h.nodup j⟩
      obtain ⟨v, hv, hlen⟩ := List.mem_map.1 hmem
      exact hold hv hlen
    · rw [Function.update_of_ne hji]; exact h.nodup j
  · have hnew : ∀ j, j ≠ i → ∀ v ∈ (rows.length, x) :: held i, ∀ w ∈ held j, v.1 ≠ w.1 := by
      intro j hj v hv w hw
      rcases List.mem_cons.1 hv with rfl | hv
      · exact (hold hw).symm
      · exact h.disjoint i j hj.symm v hv w hw
    intro j k hjk v hv w hw
    by_cases hji : j = i
    · subst hji
      rw [Function.update_self] at hv
      rw [Function.update_of_ne hjk.symm] at hw
      exact hnew k hjk.symm v hv w hw
    · rw [Function.update_of_ne hji] at hv
      by_cases hki : k = i
      · subst hki
        rw [Function.update_self] at hw
        exact (hnew j hji w hw v hv).symm
      · rw [Function.update_of_ne hki] at hw
        exact h.disjoint j k hjk v hv w hw

/-- What a party holds after it has changed, the indices being among those it had. -/
theorem indices_update (h : Owned rows free held) (i : ι) (ws : List (ℕ × α))
    (hsub : (ws.map Prod.fst).Sublist ((held i).map Prod.fst)) :
    (∀ j, ((Function.update held i ws j).map Prod.fst).Nodup) ∧
      ∀ j k, j ≠ k → ∀ v ∈ Function.update held i ws j, ∀ w ∈ Function.update held i ws k, v.1 ≠ w.1 := by
  have hold : ∀ j, ∀ v ∈ Function.update held i ws j, ∃ v' ∈ held j, v'.1 = v.1 := by
    intro j v hv
    by_cases hji : j = i
    · subst hji
      rw [Function.update_self] at hv
      exact List.mem_map.1 (hsub.subset (List.mem_map_of_mem hv))
    · rw [Function.update_of_ne hji] at hv
      exact ⟨v, hv, rfl⟩
  constructor
  · intro j
    by_cases hji : j = i
    · subst hji
      rw [Function.update_self]
      exact (h.nodup j).sublist hsub
    · rw [Function.update_of_ne hji]; exact h.nodup j
  · intro j k hjk v hv w hw
    obtain ⟨v', hv', hv⟩ := hold j v hv
    obtain ⟨w', hw', hw⟩ := hold k w hw
    rw [← hv, ← hw]
    exact h.disjoint j k hjk v' hv' w' hw'

/-- The party replaces the row it took last. -/
theorem modify (h : Owned rows free held) (hi : held i = (n, x) :: vs) (f : α → α) :
    Owned (rows.modify n f) free (Function.update held i ((n, f x) :: vs)) := by
  have hx : rows[n]? = some x := h.content i (n, x) (hi ▸ List.mem_cons_self)
  have hindices := h.indices_update i ((n, f x) :: vs) (by rw [hi]; exact List.Sublist.refl _)
  -- the other rows that are held are not the one that changes
  have hother : ∀ j v, v ∈ held j → v.1 ≠ n → (rows.modify n f)[v.1]? = some v.2 := by
    intro j v hv hne
    rw [List.getElem?_modify, h.content j v hv, Option.map_eq_map, Option.map_some, if_neg (Ne.symm hne)]
  refine ⟨?_, ?_, hindices.1, hindices.2⟩
  · have hsum := sum_update_add held (fun vs => ((vs.map Prod.snd : List α) : Multiset α)) i ((n, f x) :: vs)
    rw [hi, List.map_cons, List.map_cons, ← Multiset.cons_coe, ← Multiset.cons_coe, ← Multiset.singleton_add,
      ← Multiset.singleton_add, ← add_assoc, ← add_assoc] at hsum
    have hmod := coe_modify_add f hx
    refine add_right_cancel (b := {x}) ?_
    rw [hmod, h.rows_eq, add_assoc, add_assoc, add_right_cancel hsum]
  · intro j v hv
    by_cases hji : j = i
    · subst hji
      rw [Function.update_self, List.mem_cons] at hv
      have hnodup := h.nodup j
      rw [hi, List.map_cons, List.nodup_cons] at hnodup
      rcases hv with rfl | hv
      · rw [List.getElem?_modify, hx, Option.map_eq_map, Option.map_some, if_pos rfl]
      · refine hother j v (hi ▸ List.mem_cons_of_mem _ hv) fun hn => hnodup.1 ?_
        exact List.mem_map.2 ⟨v, hv, hn⟩
    · rw [Function.update_of_ne hji] at hv
      exact hother j v hv (h.disjoint j i hji v hv (n, x) (hi ▸ List.mem_cons_self))

/-- The party lets go of the row it took last. -/
theorem release (h : Owned rows free held) (hi : held i = (n, x) :: vs) :
    Owned rows (free + {x}) (Function.update held i vs) := by
  have hindices := h.indices_update i vs (by rw [hi]; exact List.sublist_cons_self _ _)
  refine ⟨?_, ?_, hindices.1, hindices.2⟩
  · have hsum := sum_update_add held (fun vs => ((vs.map Prod.snd : List α) : Multiset α)) i vs
    rw [hi, List.map_cons, ← Multiset.cons_coe, ← Multiset.singleton_add, ← add_assoc] at hsum
    rw [h.rows_eq, ← add_right_cancel hsum, add_right_comm, add_assoc]
  · intro j v hv
    by_cases hji : j = i
    · subst hji
      rw [Function.update_self] at hv
      exact h.content j v (hi ▸ List.mem_cons_of_mem _ hv)
    · rw [Function.update_of_ne hji] at hv; exact h.content j v hv

end Owned

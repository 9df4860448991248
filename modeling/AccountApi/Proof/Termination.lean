import AccountApi.Proof.SingleUse
import AccountApi.Lib.Owned
import Mathlib.Algebra.Order.BigOperators.Group.Finset

/-!
# No run of the session system is endless

`Phase.left` bounds the steps a request still takes: a rotation has a fixed number of them, an UPDATE
one for each candidate it has left. The candidates of an UPDATE are fixed when it starts, so that rows
that others store while it runs do not make it longer.

* `move_left`: every step of a request brings it nearer to its end.
* `steps_bounded`: **a request takes a bounded number of steps, however the others interleave.**
-/

namespace AccountApi

open Transition

/-- The steps a request has left, where an UPDATE has at most `n` candidates. -/
def Phase.left (n : ℕ) : Phase → ℕ
  | requested => n + 9
  | begun => n + 8
  | locked _ => n + 7
  | reuse _ => n + 3
  | revoking _ u => u.pending.length + 2
  | revokedAll _ => 1
  | rotating _ => 6
  | inserted _ => 5
  | updated _ => 4
  | committed _ => 3
  | userFound _ => 2
  | membershipsFound _ => 1
  | bulk u => u.pending.length + 1
  | answered _ | failed _ | loggedIn | bulkDone => 0

variable {ι : Type} {S : System ι} {s t : State ι}

theorem candidates_length_le (env : Env) (userId : Uuid) :
    (env.candidates userId).length ≤ env.sessions.length := by
  unfold Env.candidates
  rw [List.length_insertionSort, List.length_map]
  exact List.length_filter_le _ _

/-- A visit leaves one candidate less. -/
theorem visit_length {env : Env} {u u' : RevokeAll} (h : env.visit u = some u') :
    u'.pending.length + 1 = u.pending.length := by
  obtain ⟨id, rest, hp, -, hrest, -⟩ := visit_spec h
  rw [hp, hrest, List.length_cons]

/-- **Every step brings its request nearer to its end.** -/
theorem move_left {env : Env} {new : NewSession} {req : Request} {ev : Event} {p p' : Phase} {eff : Effect}
    (h : Move env new req ev p p' eff) {n : ℕ} (hn : env.sessions.length ≤ n) : p'.left n < p.left n := by
  have hcand := fun userId => (candidates_length_le env userId).trans hn
  cases h with
  | startRevokeAll r now c _ =>
    have := hcand c.userId
    simp only [Phase.left, Env.startRevokeAll]
    omega
  | startBulk v now _ =>
    have := hcand v
    simp only [Phase.left, Env.startRevokeAll]
    omega
  | visit r c u u' hv | visitBulk v u u' hv =>
    have := visit_length hv
    simp only [Phase.left]
    omega
  | abort r p hc =>
    cases p with
    | begun | locked _ | reuse _ | revoking _ _ | revokedAll _ | rotating _ | inserted _ | updated _ | bulk _ =>
      simp only [Phase.left]
      omega
    | _ => exact absurd rfl hc
  | _ =>
    simp only [Phase.left]
    omega

variable [Fintype ι] [DecidableEq ι]

/-- There are no more rows than requests that have stored one. -/
structure RowsInv (S : System ι) (s : State ι) : Prop where
  inv : Inv S s
  rows : s.sessions.length ≤ ∑ i, if (s.phase i).stored then 1 else 0

theorem rowsInv_step (hR : RowsInv S s) {a : ι × Event} (h : S.step s a = some t) : RowsInv S t where
  inv := inv_step hR.inv h
  rows := by
    obtain ⟨i, ev⟩ := a
    obtain ⟨p, eff, hm, rfl⟩ := System.step_move h
    have hok := move_effect hR.inv hm
    have hsum := sum_update_add s.phase (fun p => if p.stored then 1 else 0) i p
    have hrows := hR.rows
    simp only [hok.apply, List.length_append, List.length_map]
    by_cases hi : eff.inserted = []
    · have hkeeps : (if (s.phase i).stored then 1 else 0) ≤ if p.stored then 1 else 0 := by
        by_cases hs : (s.phase i).stored = true
        · rw [if_pos hs, if_pos (move_stored hm hs)]
        · rw [if_neg hs]
          exact Nat.zero_le _
      rw [hi, List.length_nil]
      omega
    · have hone := hok.single
      obtain ⟨hbefore, hafter⟩ := move_inserted hm hi
      rw [hbefore, hafter] at hsum
      simp only [Bool.false_eq_true, if_false, if_true] at hsum
      omega

omit [DecidableEq ι] in
theorem RowsInv.le_card (hR : RowsInv S s) : s.sessions.length ≤ Fintype.card ι := by
  refine hR.rows.trans ?_
  rw [← Finset.card_filter]
  exact Finset.card_le_univ _

omit [DecidableEq ι] in
theorem rowsInv_start (S : System ι) : RowsInv S (S.start []) := ⟨inv_start S, Nat.zero_le _⟩

/-- A step is taken from what its request has left, and from nothing else. -/
theorem left_step (hR : RowsInv S s) {a : ι × Event} (h : S.step s a = some t) (i : ι) :
    (t.phase i).left (Fintype.card ι) + (if a.1 = i then 1 else 0) ≤ (s.phase i).left (Fintype.card ι) := by
  obtain ⟨j, ev⟩ := a
  obtain ⟨p, eff, hm, rfl⟩ := System.step_move h
  by_cases hji : j = i
  · subst hji
    have hless := move_left hm hR.le_card
    simp only [Function.update_self, if_true]
    omega
  · simp only [Function.update_of_ne (Ne.symm hji), if_neg hji]
    omega

/-- **No run is endless.** However logins, refreshes and `revokeAllByUserId` updates interleave and abort, a
request takes at most nine steps and one for each request there is, which is one for each row its UPDATE
may visit; so that no run of `n` requests is longer than `n * (n + 9)`. -/
theorem steps_bounded (S : System ι) {as : List (ι × Event)} {s : State ι}
    (h : exec S.step (S.start []) as = some s) :
    (∀ i, (as.map Prod.fst).count i + (s.phase i).left (Fintype.card ι) ≤ Fintype.card ι + 9) ∧
      as.length ≤ Fintype.card ι * (Fintype.card ι + 9) := by
  have hcount : ∀ i, (as.map Prod.fst).count i + (s.phase i).left (Fintype.card ι) ≤ Fintype.card ι + 9 := by
    intro i
    have hstep : ∀ (s : State ι) (a : ι × Event) (t : State ι), RowsInv S s → S.step s a = some t →
        RowsInv S t ∧ (t.phase i).left (Fintype.card ι) + (if Prod.fst a = i then 1 else 0) ≤
          (s.phase i).left (Fintype.card ι) :=
      fun _ _ _ hR h => ⟨rowsInv_step hR h, left_step hR h i⟩
    exact count_le hstep (rowsInv_start S) h
  refine ⟨hcount, ?_⟩
  have hlength : ∑ i, (as.map Prod.fst).count i = as.length := by
    have := Multiset.sum_count_eq_card (s := Finset.univ) (m := ((as.map Prod.fst : List ι) : Multiset ι))
      (fun i _ => Finset.mem_univ i)
    simpa using this
  calc as.length = ∑ i, (as.map Prod.fst).count i := hlength.symm
    _ ≤ ∑ _ : ι, (Fintype.card ι + 9) :=
      Finset.sum_le_sum fun i _ => (Nat.le_add_right _ _).trans (hcount i)
    _ = Fintype.card ι * (Fintype.card ι + 9) := Finset.sum_const_nat fun _ _ => rfl

/-- A login, a rotation and a replay, of four requests. -/
theorem steps_bounded_replay : ∃ s,
    exec replaySystem.step (replaySystem.start []) (rotateOnce ++ replay ++ revokeChain) = some s ∧
      (rotateOnce ++ replay ++ revokeChain).length ≤ 52 := by
  obtain ⟨s, hs⟩ : ∃ s, exec replaySystem.step (replaySystem.start [])
      (rotateOnce ++ replay ++ revokeChain) = some s := ⟨_, rfl⟩
  exact ⟨s, hs, (steps_bounded replaySystem hs).2⟩

end AccountApi

import Mathlib.Logic.Relation

/-!
# Growing a chain by one link

A link relation is extended by one link `s → n` to a new node `n` that no old
link touches.

* `eqvGen_grow`: what the classes of linked nodes become: `n` joins the class of
  `s`, every other class stays as it was.
* `acyclic_grow`: no cycle closes.
* `reflTransGen_of_eqvGen`: where every node has at most one predecessor and one
  successor, of two nodes of a class one is reached from the other.
-/

namespace Chain

open Relation

variable {α β : Type*} {r r' : α → α → Prop}

/-- A map that carries links to linked nodes carries classes into classes. -/
theorem eqvGen_map {q : β → β → Prop} (f : α → β) (h : ∀ a b, r a b → EqvGen q (f a) (f b))
    {a b : α} (hab : EqvGen r a b) : EqvGen q (f a) (f b) := by
  induction hab with
  | rel a b hab => exact h a b hab
  | refl a => exact .refl _
  | symm a b _ ih => exact .symm _ _ ih
  | trans a b c _ _ ih₁ ih₂ => exact .trans _ _ _ ih₁ ih₂

/-- A property that links preserve in both directions holds on all of a class or none of it. -/
theorem eqvGen_closed {p : α → Prop} (h : ∀ a b, r a b → (p a ↔ p b)) {a b : α}
    (hab : EqvGen r a b) : p a ↔ p b := by
  induction hab with
  | rel a b hab => exact h a b hab
  | refl a => rfl
  | symm a b _ ih => exact ih.symm
  | trans a b c _ _ ih₁ ih₂ => exact ih₁.trans ih₂

theorem eqvGen_of_reflTransGen {a b : α} (h : ReflTransGen r a b) : EqvGen r a b := by
  induction h with
  | refl => exact .refl _
  | tail _ hbc ih => exact .trans _ _ _ ih (.rel _ _ hbc)

/-- A node that no link touches is alone in its class. -/
theorem eqvGen_isolated {n : α} (hl : ∀ a, ¬ r n a) (hr : ∀ a, ¬ r a n) {a : α}
    (h : EqvGen r n a) : a = n := by
  refine (eqvGen_closed (p := fun x => x = n) (fun x y hxy => ?_) h).1 rfl
  constructor
  · rintro rfl; exact absurd hxy (hl y)
  · rintro rfl; exact absurd hxy (hr x)

/-- **The new node joins the class of `s`, and nothing else moves**: two nodes other
than `n` are linked after the growth only if they were before. -/
theorem eqvGen_grow [DecidableEq α] {s n : α} (hr' : ∀ a b, r' a b → r a b ∨ (a = s ∧ b = n))
    (hl : ∀ a, ¬ r n a) (hr : ∀ a, ¬ r a n) {a b : α} (hb : b ≠ n) (h : EqvGen r' a b) :
    EqvGen r (if a = n then s else a) b := by
  have key := eqvGen_map (q := r) (fun x => if x = n then s else x) (fun x y hxy => ?_) h
  · simpa only [if_neg hb] using key
  rcases hr' x y hxy with hold | ⟨rfl, rfl⟩
  · have hx : x ≠ n := fun e => hl y (e ▸ hold)
    have hy : y ≠ n := fun e => hr x (e ▸ hold)
    simp only [if_neg hx, if_neg hy]
    exact .rel _ _ hold
  · simp only [if_true]
    split <;> exact .refl _

/-- Nothing leaves the new node, so a path in the grown relation ends there or is an old one. -/
theorem transGen_grow {s n : α} (hr' : ∀ a b, r' a b → r a b ∨ (a = s ∧ b = n)) (hl : ∀ a, ¬ r n a)
    (hs : s ≠ n) {a b : α} (h : TransGen r' a b) : b = n ∨ TransGen r a b := by
  have hstep : ∀ x y, r' x y → y = n ∨ r x y := fun x y hxy => (hr' x y hxy).symm.imp And.right id
  induction h with
  | single hab => exact (hstep _ _ hab).imp id .single
  | tail _ hbc ih =>
    rcases ih with rfl | hab
    · rcases hr' _ _ hbc with hold | ⟨hsn, -⟩
      · exact absurd hold (hl _)
      · exact absurd hsn.symm hs
    · exact (hstep _ _ hbc).imp id hab.tail

/-- **No cycle closes when a chain grows by a new node.** -/
theorem acyclic_grow {s n : α} (hacyc : ∀ a, ¬ TransGen r a a)
    (hr' : ∀ a b, r' a b → r a b ∨ (a = s ∧ b = n)) (hl : ∀ a, ¬ r n a) (hs : s ≠ n) (a : α) :
    ¬ TransGen r' a a := by
  intro h
  rcases transGen_grow hr' hl hs h with rfl | hold
  · obtain ⟨b, hnb, -⟩ := TransGen.head'_iff.1 h
    rcases hr' _ _ hnb with hold | ⟨hsn, -⟩
    · exact hl b hold
    · exact hs hsn.symm
  · exact hacyc a hold

/-- **A class of a relation that branches in neither direction is a line.** -/
theorem reflTransGen_of_eqvGen (hright : Relator.RightUnique r) (hleft : Relator.LeftUnique r) {a b : α}
    (h : EqvGen r a b) : ReflTransGen r a b ∨ ReflTransGen r b a := by
  have hswap : Relator.RightUnique (Function.swap r) := fun _ _ _ hab hac => hleft hab hac
  induction h with
  | rel a b hab => exact Or.inl (.single hab)
  | refl a => exact Or.inl .refl
  | symm a b _ ih => exact ih.symm
  | trans a b c _ _ ih₁ ih₂ =>
    rcases ih₁ with hab | hba <;> rcases ih₂ with hbc | hcb
    · exact Or.inl (hab.trans hbc)
    · -- both end in `b`: follow the links backwards from there
      have hline := ReflTransGen.total_of_right_unique hswap (reflTransGen_swap.2 hab)
        (reflTransGen_swap.2 hcb)
      exact hline.symm.imp reflTransGen_swap.1 reflTransGen_swap.1
    · exact ReflTransGen.total_of_right_unique hright hba hbc
    · exact Or.inr (hcb.trans hba)

end Chain

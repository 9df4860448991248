import Mathlib.Data.List.Nodup
import Mathlib.Data.Nat.Notation

/-!
# Tables with a primary key and unique constraints

A table is the list of its rows. `upsert` is what an object-relational `save` does:
the row with the key of the given one is replaced, or the given one is added, unless
a unique constraint forbids it.

* `upsert_insert`, `upsert_update`: the two ways in which it succeeds.
* `upsert_some`: there is no third one.
* `put`, `upsert_put`: what a save that succeeds leaves, in closed form.
* `mem_upsert`, `find_upsert`, `find_delete`: the rows and the lookups after a statement.
* `filter_key_of_mem`: a unique key selects one row.
* `upsert_filter`, `filter_upsert_outside`: a save seen from a part of the table.
* `claim_upsert`: when a save takes a unique property for its row.
* `unique_upsert`, `upsert_of_unique`: a save keeps a unique constraint, and fails only where its row
  would break it.
* `nodup_map_append`: a key that the new versions of the rows keep, and a new row
  does not repeat, stays unique.
-/

namespace Table

variable {ρ κ : Type*} [DecidableEq κ] {key : ρ → κ} {clash : ρ → ρ → Bool} {rows out : List ρ} {r : ρ}

/-- Replaces the row with the key of `r`, or adds `r`; `none` when a row with another key
clashes with it. -/
def upsert (key : ρ → κ) (clash : ρ → ρ → Bool) (rows : List ρ) (r : ρ) : Option (List ρ) :=
  if rows.any fun x => key x ≠ key r && clash x r then none
  else if rows.any fun x => key x = key r then some (rows.map fun x => if key x = key r then r else x)
  else some (rows ++ [r])

theorem upsert_insert (hk : ∀ x ∈ rows, key x ≠ key r) (hc : ∀ x ∈ rows, clash x r = false) :
    upsert key clash rows r = some (rows ++ [r]) := by
  unfold upsert
  rw [if_neg, if_neg]
  · simp only [List.any_eq_true, decide_eq_true_eq, not_exists, not_and]
    exact hk
  · simp only [List.any_eq_true, Bool.and_eq_true, not_exists, not_and]
    exact fun x hx _ => by simp [hc x hx]

theorem upsert_update (hk : ∃ x ∈ rows, key x = key r)
    (hc : ∀ x ∈ rows, clash x r = true → key x = key r) :
    upsert key clash rows r = some (rows.map fun x => if key x = key r then r else x) := by
  unfold upsert
  rw [if_neg, if_pos]
  · simpa using hk
  · simp only [List.any_eq_true, Bool.and_eq_true, decide_eq_true_eq, not_exists, not_and]
    exact fun x hx hne hcl => hne (hc x hx hcl)

/-- **A save that succeeds** adds a row with a new key or replaces the row with its key, and no
other row clashes with it. -/
theorem upsert_some (h : upsert key clash rows r = some out) :
    (∀ x ∈ rows, key x ≠ key r → clash x r = false) ∧
      (((∀ x ∈ rows, key x ≠ key r) ∧ out = rows ++ [r]) ∨
        ((∃ x ∈ rows, key x = key r) ∧ out = rows.map fun x => if key x = key r then r else x)) := by
  unfold upsert at h
  split at h
  · cases h
  rename_i hclash
  refine ⟨fun x hx hne => Bool.eq_false_iff.2 fun hcl => hclash ?_, ?_⟩
  · exact List.any_eq_true.2 ⟨x, hx, by simp [hne, hcl]⟩
  split at h <;> cases h <;> rename_i hex
  · exact Or.inr ⟨by simpa using hex, rfl⟩
  · exact Or.inl ⟨by simpa using hex, rfl⟩

/-- Replaces the row with the key of `r`, or adds `r`, whatever the constraints say. -/
def put (key : ρ → κ) (rows : List ρ) (r : ρ) : List ρ :=
  if rows.any fun x => key x = key r then rows.map fun x => if key x = key r then r else x
  else rows ++ [r]

theorem upsert_put (h : upsert key clash rows r = some out) : out = put key rows r := by
  unfold upsert at h
  unfold put
  split at h
  · cases h
  split at h <;> cases h <;> rename_i hex
  · exact (if_pos hex).symm
  · exact (if_neg hex).symm

theorem put_new (h : ∀ x ∈ rows, key x ≠ key r) : put key rows r = rows ++ [r] := by
  refine if_neg ?_
  simpa using h

/-- A change of the row with the key of `r` is lost when `r` is put. -/
theorem put_map {change : ρ → ρ} (hkey : ∀ x, key (change x) = key x)
    (hother : ∀ x, key x ≠ key r → change x = x) : put key (rows.map change) r = put key rows r := by
  have hany : (rows.map change).any (fun x => key x = key r) = rows.any fun x => key x = key r := by
    rw [List.any_map]
    exact congrArg rows.any (funext fun x => by simp [hkey])
  unfold put
  rw [hany]
  split
  · rw [List.map_map]
    refine List.map_congr_left fun x _ => ?_
    by_cases hx : key x = key r
    · simp [hkey, hx]
    · simp [hx, hother x hx]
  case isFalse hex =>
    have hne : ∀ x ∈ rows, key x ≠ key r := by simpa using hex
    rw [List.map_congr_left (fun x hx => hother x (hne x hx)), List.map_id']

/-- A row after a save is the saved one, or was there with another key. -/
theorem mem_upsert (h : upsert key clash rows r = some out) {x : ρ} (hx : x ∈ out) :
    x = r ∨ x ∈ rows ∧ key x ≠ key r := by
  obtain ⟨-, ⟨hk, rfl⟩ | ⟨-, rfl⟩⟩ := upsert_some h
  · rw [List.mem_append, List.mem_singleton] at hx
    exact hx.symm.imp id fun hx => ⟨hx, hk x hx⟩
  · obtain ⟨y, hy, rfl⟩ := List.mem_map.1 hx
    by_cases hk : key y = key r
    · exact Or.inl (if_pos hk)
    · rw [if_neg hk]; exact Or.inr ⟨hy, hk⟩

theorem self_mem_upsert (h : upsert key clash rows r = some out) : r ∈ out := by
  obtain ⟨-, ⟨-, rfl⟩ | ⟨⟨x, hx, hk⟩, rfl⟩⟩ := upsert_some h
  · exact List.mem_append_right _ (List.mem_singleton_self r)
  · exact List.mem_map.2 ⟨x, hx, if_pos hk⟩

theorem find_key_some {k : κ} {x : ρ} (h : rows.find? (fun x => key x = k) = some x) :
    x ∈ rows ∧ key x = k := by
  have hk := List.find?_some h
  exact ⟨List.mem_of_find?_eq_some h, by simpa using hk⟩

/-- A unique key decides which row is found. -/
theorem find_key_of_mem (hn : (rows.map key).Nodup) {x : ρ} (hx : x ∈ rows) :
    rows.find? (fun y => key y = key x) = some x := by
  cases hf : rows.find? (fun y => key y = key x) with
  | none =>
    have := List.find?_eq_none.1 hf x hx
    simp at this
  | some y =>
    obtain ⟨hy, hk⟩ := find_key_some hf
    rw [List.inj_on_of_nodup_map hn hy hx hk]

/-- Under a unique key there is one row. -/
theorem filter_key_of_mem (hn : (rows.map key).Nodup) {x : ρ} (hx : x ∈ rows) :
    (rows.filter fun y => key y = key x) = [x] := by
  induction rows with
  | nil => cases hx
  | cons y rows ih =>
    rw [List.map_cons, List.nodup_cons] at hn
    have hkeys : ∀ z ∈ rows, key z ≠ key y := fun z hz h => hn.1 (h ▸ List.mem_map_of_mem hz)
    rcases List.mem_cons.1 hx with rfl | hin
    · have hrest : rows.filter (fun z => key z = key x) = [] :=
        List.filter_eq_nil_iff.2 fun z hz => by simpa using hkeys z hz
      rw [List.filter_cons, if_pos (by simp), hrest]
    · rw [List.filter_cons, if_neg (by simpa using (hkeys x hin).symm)]
      exact ih hn.2 hin

theorem find_none_iff {p : ρ → Bool} : rows.find? p = none ↔ (rows.filter p).length = 0 := by
  simp [List.find?_eq_none]

theorem find_some_pos {p : ρ → Bool} {x : ρ} (h : rows.find? p = some x) : 0 < (rows.filter p).length := by
  have hne : rows.find? p ≠ none := by simp [h]
  have := mt find_none_iff.2 hne
  omega

omit [DecidableEq κ] in
/-- A row with a new key keeps the key unique. -/
theorem nodup_insert (hn : (rows.map key).Nodup) (hnew : ∀ x ∈ rows, key x ≠ key r) :
    ((rows ++ [r]).map key).Nodup := by
  rw [List.map_append, List.nodup_append]
  refine ⟨hn, List.nodup_singleton _, fun k hk k' hk' => ?_⟩
  obtain ⟨x, hx, rfl⟩ := List.mem_map.1 hk
  rw [List.map_singleton, List.mem_singleton] at hk'
  rw [hk']
  exact hnew x hx

/-- A row that is replaced keeps its key. -/
theorem map_key_replace : (rows.map fun x => if key x = key r then r else x).map key = rows.map key := by
  rw [List.map_map]
  refine List.map_congr_left fun x _ => ?_
  by_cases hx : key x = key r <;> simp [hx]

/-- A key stays unique. -/
theorem nodup_upsert (hn : (rows.map key).Nodup) (h : upsert key clash rows r = some out) :
    (out.map key).Nodup := by
  obtain ⟨-, ⟨hnew, rfl⟩ | ⟨-, rfl⟩⟩ := upsert_some h
  · exact nodup_insert hn hnew
  · rw [map_key_replace]
    exact hn

/-- No two rows with different keys clash. -/
def Unique (key : ρ → κ) (clash : ρ → ρ → Bool) (rows : List ρ) : Prop :=
  ∀ x ∈ rows, ∀ y ∈ rows, key x ≠ key y → clash x y = false

/-- **A save keeps a unique constraint.** -/
theorem unique_upsert (hsymm : ∀ x y, clash x y = clash y x) (hu : Unique key clash rows)
    (h : upsert key clash rows r = some out) : Unique key clash out := by
  have hfree := (upsert_some h).1
  intro x hx y hy hne
  rcases mem_upsert h hx with rfl | ⟨hx, hxr⟩ <;> rcases mem_upsert h hy with rfl | ⟨hy, hyr⟩
  · exact absurd rfl hne
  · rw [hsymm]; exact hfree y hy hyr
  · exact hfree x hx hxr
  · exact hu x hx y hy hne

/-- The keys of the rows are kept. -/
theorem key_upsert (h : upsert key clash rows r = some out) {x : ρ} (hx : x ∈ rows) :
    ∃ y ∈ out, key y = key x := by
  obtain ⟨-, ⟨-, rfl⟩ | ⟨-, rfl⟩⟩ := upsert_some h
  · exact ⟨x, List.mem_append_left _ hx, rfl⟩
  · refine ⟨_, List.mem_map_of_mem hx, ?_⟩
    by_cases hk : key x = key r
    · rw [if_pos hk, hk]
    · rw [if_neg hk]

theorem exists_key_upsert (h : upsert key clash rows r = some out) {k : κ} (hk : ∃ x ∈ rows, key x = k) :
    ∃ y ∈ out, key y = k := by
  obtain ⟨x, hx, rfl⟩ := hk
  exact key_upsert h hx

/-- What holds of the rows and of the new one holds after the save. -/
theorem forall_mem_upsert {P : ρ → Prop} (h : upsert key clash rows r = some out) (hr : P r)
    (hrows : ∀ x ∈ rows, P x) : ∀ x ∈ out, P x := by
  intro x hx
  rcases mem_upsert h hx with rfl | ⟨hx, -⟩
  · exact hr
  · exact hrows x hx

theorem upsert_none : upsert key clash rows r = none ↔ ∃ x ∈ rows, key x ≠ key r ∧ clash x r = true := by
  unfold upsert
  split
  case isTrue hclash => simpa using hclash
  case isFalse hclash =>
    split <;> simpa using hclash

omit [DecidableEq κ] in
/-- A clash in a property of the rows is one constraint on the property. -/
theorem unique_iff_nodup {β : Type*} {f : ρ → β} (hn : (rows.map key).Nodup)
    (hclash : ∀ x y, clash x y = true ↔ f x = f y) : Unique key clash rows ↔ (rows.map f).Nodup := by
  constructor
  · intro hu
    refine List.Nodup.map_on (fun x hx y hy hf => ?_) hn.of_map
    by_contra hne
    have hkey : key x ≠ key y := fun h => hne (List.inj_on_of_nodup_map hn hx hy h)
    have hfree := hu x hx y hy hkey
    rw [(hclash x y).2 hf] at hfree
    cases hfree
  · intro hf x hx y hy hkey
    by_contra hc
    have hfxy := (hclash x y).1 (by simpa using hc)
    exact hkey (congrArg key (List.inj_on_of_nodup_map hf hx hy hfxy))

omit [DecidableEq κ] in
theorem unique_or {clash' : ρ → ρ → Bool} :
    Unique key (fun x y => clash x y || clash' x y) rows ↔ Unique key clash rows ∧ Unique key clash' rows := by
  simp only [Unique, Bool.or_eq_false_iff]
  constructor
  · intro h
    exact ⟨fun x hx y hy hne => (h x hx y hy hne).1, fun x hx y hy hne => (h x hx y hy hne).2⟩
  · intro h x hx y hy hne
    exact ⟨h.1 x hx y hy hne, h.2 x hx y hy hne⟩

theorem mem_put {x : ρ} : x ∈ put key rows r ↔ x = r ∨ x ∈ rows ∧ key x ≠ key r := by
  unfold put
  split
  case isTrue hk =>
    simp only [List.any_eq_true, decide_eq_true_eq] at hk
    obtain ⟨y, hy, hyk⟩ := hk
    rw [List.mem_map]
    constructor
    · rintro ⟨z, hz, rfl⟩
      by_cases hzk : key z = key r
      · exact Or.inl (if_pos hzk)
      · rw [if_neg hzk]
        exact Or.inr ⟨hz, hzk⟩
    · rintro (rfl | ⟨hx, hne⟩)
      · exact ⟨y, hy, if_pos hyk⟩
      · exact ⟨x, hx, if_neg hne⟩
  case isFalse hk =>
    simp only [List.any_eq_true, decide_eq_true_eq, not_exists, not_and] at hk
    rw [List.mem_append, List.mem_singleton]
    constructor
    · rintro (hx | rfl)
      · exact Or.inr ⟨hx, hk x hx⟩
      · exact Or.inl rfl
    · rintro (rfl | ⟨hx, -⟩)
      · exact Or.inr rfl
      · exact Or.inl hx

/-- **A save fails only where its row would break the constraint.** -/
theorem upsert_of_unique (hu : Unique key clash (put key rows r)) :
    upsert key clash rows r = some (put key rows r) := by
  cases h : upsert key clash rows r with
  | some out => rw [upsert_put h]
  | none =>
    obtain ⟨x, hx, hne, hclash⟩ := upsert_none.1 h
    have hfree := hu x (mem_put.2 (Or.inr ⟨hx, hne⟩)) r (mem_put.2 (Or.inl rfl)) hne
    rw [hfree] at hclash
    cases hclash

/-- Of the rows with a property that the saved row has and no other one, there is one. -/
theorem filter_upsert (hn : (rows.map key).Nodup) (h : upsert key clash rows r = some out) {p : ρ → Bool}
    (hp : p r = true) (hothers : ∀ x ∈ rows, key x ≠ key r → p x = false) : out.filter p = [r] := by
  have hself := self_mem_upsert h
  rw [← filter_key_of_mem (nodup_upsert hn h) hself]
  refine List.filter_congr fun x hx => ?_
  rcases mem_upsert h hx with rfl | ⟨hold, hne⟩
  · simpa using hp
  · simpa [hne] using hothers x hold hne

/-- A unique property selects at most one row. -/
theorem filter_unique_le_one {β : Type*} [DecidableEq β] {f : ρ → β} (hn : (rows.map f).Nodup) (b : β) :
    (rows.filter fun x => f x = b).length ≤ 1 := by
  cases hf : rows.find? (fun x => f x = b) with
  | none =>
    rw [find_none_iff.1 hf]
    omega
  | some x =>
    obtain ⟨hx, rfl⟩ := find_key_some hf
    rw [filter_key_of_mem hn hx]
    exact Nat.le_refl 1

variable (clash) in
/-- **A save claims a unique property**: it succeeds exactly when no row has the property, and then the
saved row is the only one that has it. -/
theorem claim_upsert (hn : (rows.map key).Nodup) {p : ρ → Bool} (hp : p r = true)
    (hown : ∀ x ∈ rows, key x = key r → p x = false) (hclash : ∀ x ∈ rows, clash x r = p x) :
    (∀ out, upsert key clash rows r = some out → (rows.filter p).length = 0 ∧ (out.filter p).length = 1) ∧
      (upsert key clash rows r = none → 0 < (rows.filter p).length) := by
  refine ⟨fun out h => ?_, fun h => ?_⟩
  · have hothers : ∀ x ∈ rows, key x ≠ key r → p x = false :=
      fun x hx hne => hclash x hx ▸ (upsert_some h).1 x hx hne
    have hnone : ∀ x ∈ rows, ¬ p x = true := by
      intro x hx
      by_cases hk : key x = key r
      · simp [hown x hx hk]
      · simp [hothers x hx hk]
    rw [List.filter_eq_nil_iff.2 hnone, filter_upsert hn h hp hothers]
    exact ⟨rfl, rfl⟩
  · obtain ⟨x, hx, -, hc⟩ := upsert_none.1 h
    rw [hclash x hx] at hc
    exact List.length_pos_of_mem (List.mem_filter.2 ⟨hx, hc⟩)

variable (clash) in
/-- A row that alone has a unique property keeps it: its save succeeds. -/
theorem hold_upsert (hn : (rows.map key).Nodup) {p : ρ → Bool} (hp : p r = true) {x : ρ} (hx : x ∈ rows)
    (hk : key x = key r) (hpx : p x = true) (hone : (rows.filter p).length ≤ 1)
    (hclash : ∀ x ∈ rows, clash x r = p x) :
    ∃ out, upsert key clash rows r = some out ∧ (out.filter p).length = (rows.filter p).length := by
  have hfx : x ∈ rows.filter p := List.mem_filter.2 ⟨hx, hpx⟩
  have hlen : (rows.filter p).length = 1 := Nat.le_antisymm hone (List.length_pos_of_mem hfx)
  have honly : ∀ y ∈ rows, p y = true → y = x := by
    intro y hy hpy
    obtain ⟨z, hz⟩ := List.length_eq_one_iff.1 hlen
    have hfy : y ∈ rows.filter p := List.mem_filter.2 ⟨hy, hpy⟩
    rw [hz, List.mem_singleton] at hfx hfy
    rw [hfx, hfy]
  have hup := upsert_update ⟨x, hx, hk⟩ fun y hy hc => (honly y hy (hclash y hy ▸ hc)).symm ▸ hk
  refine ⟨_, hup, ?_⟩
  rw [hlen, filter_upsert hn hup hp fun y hy hne => Bool.eq_false_iff.2 fun hpy => hne (honly y hy hpy ▸ hk)]
  rfl

/-- **Lookups after a save**: the saved row under its key, and the others as before. -/
theorem find_upsert (h : upsert key clash rows r = some out) (k : κ) :
    out.find? (fun x => key x = k) =
      if k = key r then some r else rows.find? fun x => key x = k := by
  obtain ⟨-, ⟨hnew, rfl⟩ | ⟨⟨x, hx, hxk⟩, rfl⟩⟩ := upsert_some h
  · rw [List.find?_append]
    by_cases hk : k = key r
    · have hnone : rows.find? (fun x => key x = k) = none :=
        List.find?_eq_none.2 fun x hx => by simpa [hk] using hnew x hx
      rw [hnone, if_pos hk, hk]; simp
    · rw [if_neg hk]
      have hnone : [r].find? (fun x => key x = k) = none := by simp [Ne.symm hk]
      rw [hnone, Option.or_none]
  · -- replacing the row with key `key r` does not change what any row's key is
    have hcomp : (fun x => decide (key x = k)) ∘ (fun x => if key x = key r then r else x) =
        fun x => decide (key x = k) := by
      funext y
      by_cases hy : key y = key r <;> simp [hy]
    rw [List.find?_map, hcomp]
    split
    case isFalse hk =>
      cases hf : rows.find? (fun x => key x = k) with
      | none => rfl
      | some y =>
        have hy := (find_key_some hf).2
        rw [Option.map_some, if_neg (by rw [hy]; exact hk)]
    case isTrue hk =>
      cases hf : rows.find? (fun x => key x = k) with
      | none => exact absurd (hxk.trans hk.symm) (by simpa using List.find?_eq_none.1 hf x hx)
      | some y =>
        have hy := (find_key_some hf).2
        rw [Option.map_some, if_pos (hy.trans hk)]

/-- Lookups after the rows with a key are deleted. -/
theorem find_delete (k k' : κ) :
    (rows.filter fun x => key x ≠ k).find? (fun x => key x = k') =
      if k' = k then none else rows.find? fun x => key x = k' := by
  rw [List.find?_filter]
  split
  case isTrue hk =>
    subst hk
    exact List.find?_eq_none.2 fun x _ => by simp
  case isFalse hk =>
    congr 1
    funext x
    by_cases hx : key x = k'
    · simp [hx, hk]
    · simp [hx]

omit [DecidableEq κ] in
/-- A key that the new versions keep and the new row does not repeat stays unique. -/
theorem nodup_map_append {f : ρ → ρ} {new : List ρ} (hn : (rows.map key).Nodup)
    (hkey : ∀ x ∈ rows, key (f x) = key x) (hlen : new.length ≤ 1)
    (hnew : ∀ n ∈ new, ∀ x ∈ rows, key x ≠ key n) : ((rows.map f ++ new).map key).Nodup := by
  have hf : ((rows.map f).map key).Nodup := by
    have hmap : rows.map (key ∘ f) = rows.map key := List.map_congr_left hkey
    rw [List.map_map, hmap]
    exact hn
  match new, hlen with
  | [], _ => simpa using hf
  | [n], _ =>
    refine nodup_insert hf fun y hy => ?_
    obtain ⟨x, hx, rfl⟩ := List.mem_map.1 hy
    rw [hkey x hx]
    exact hnew n List.mem_cons_self x hx

section
variable {p : ρ → Bool}

/-- A part of a table to which the versions of one row belong together. -/
theorem filter_map_replace (hkey : ∀ x ∈ rows, key x = key r → p x = p r) :
    (rows.map fun x => if key x = key r then r else x).filter p =
      (rows.filter p).map fun x => if key x = key r then r else x := by
  rw [List.filter_map]
  congr 1
  refine List.filter_congr fun x hx => ?_
  by_cases hk : key x = key r
  · rw [Function.comp_apply, if_pos hk, hkey x hx hk]
  · rw [Function.comp_apply, if_neg hk]

/-- **A save in a part of a table** is the save of the table, as far as the part goes. -/
theorem upsert_filter (hkey : ∀ x ∈ rows, key x = key r → p x = p r) (hp : p r = true)
    (h : upsert key clash rows r = some out) : upsert key clash (rows.filter p) r = some (out.filter p) := by
  obtain ⟨hfree, ⟨hnew, rfl⟩ | ⟨⟨x, hx, hk⟩, rfl⟩⟩ := upsert_some h
  · have hself : ∀ x ∈ rows.filter p, key x ≠ key r := fun x hx => hnew x (List.mem_filter.1 hx).1
    have hrest : ∀ x ∈ rows.filter p, clash x r = false := fun x hx =>
      hfree x (List.mem_filter.1 hx).1 (hself x hx)
    rw [upsert_insert hself hrest, List.filter_append, List.filter_singleton, hp]
    rfl
  · rw [filter_map_replace hkey]
    refine upsert_update ⟨x, List.mem_filter.2 ⟨hx, (hkey x hx hk).trans hp⟩, hk⟩ fun y hy hclash => ?_
    by_contra hne
    rw [hfree y (List.mem_filter.1 hy).1 hne] at hclash
    cases hclash

/-- The part that holds all rows that clash rejects what the table rejects. -/
theorem upsert_filter_none (hclash : ∀ x ∈ rows, clash x r = true → p x = true)
    (h : upsert key clash rows r = none) : upsert key clash (rows.filter p) r = none := by
  obtain ⟨x, hx, hne, hc⟩ := upsert_none.1 h
  exact upsert_none.2 ⟨x, List.mem_filter.2 ⟨hx, hclash x hx hc⟩, hne, hc⟩

/-- A save outside a part of a table leaves the part as it is. -/
theorem filter_upsert_outside (hkey : ∀ x ∈ rows, key x = key r → p x = p r) (hp : p r = false)
    (h : upsert key clash rows r = some out) : out.filter p = rows.filter p := by
  obtain ⟨-, ⟨-, rfl⟩ | ⟨-, rfl⟩⟩ := upsert_some h
  · rw [List.filter_append, List.filter_singleton, hp]
    exact List.append_nil _
  · rw [filter_map_replace hkey]
    have hid : ∀ x ∈ rows.filter p, (if key x = key r then r else x) = x := by
      intro x hx
      obtain ⟨hx, hpx⟩ := List.mem_filter.1 hx
      refine if_neg fun hk => ?_
      rw [hkey x hx hk, hp] at hpx
      cases hpx
    exact (List.map_congr_left hid).trans (List.map_id _)

end

end Table

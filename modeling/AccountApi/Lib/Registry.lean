import AccountApi.Lib.Table

/-!
# Registering keys

A map that is filled one entry after the other, and refuses a second value for a key. What
it holds in the end, and whether it refuses an entry, does not depend on the order in which
the entries come.

* `registerAll_isSome`: no entry is refused if and only if no key comes with two values.
* `registerAll_some`: the map then has exactly the entries, each key once.
-/

namespace Registry

variable {κ υ : Type*} [DecidableEq κ] [DecidableEq υ] {m out : List (κ × υ)} {e p : κ × υ} {es : List (κ × υ)}

/-- The value of the key. -/
def get (m : List (κ × υ)) (k : κ) : Option υ := (m.find? fun e => e.1 = k).map (·.2)

/-- Gives the key the value; a key that is there keeps its place, a new one comes last. -/
def set (m : List (κ × υ)) (k : κ) (v : υ) : List (κ × υ) := Table.put (·.1) m (k, v)

/-- Adds an entry, unless its key has another value. -/
def register (m : List (κ × υ)) (e : κ × υ) : Option (List (κ × υ)) :=
  if (get m e.1).all (· = e.2) then some (set m e.1 e.2) else none

def registerAll (es : List (κ × υ)) : Option (List (κ × υ)) := es.foldlM register []

/-- No key comes with two values. -/
def Consistent (es : List (κ × υ)) : Prop := ∀ p ∈ es, ∀ q ∈ es, p.1 = q.1 → p.2 = q.2

omit [DecidableEq υ] in
theorem get_some {k : κ} {v : υ} (h : get m k = some v) : (k, v) ∈ m := by
  obtain ⟨e, he, rfl⟩ := Option.map_eq_some_iff.1 h
  obtain ⟨hmem, rfl⟩ := Table.find_key_some he
  exact hmem

omit [DecidableEq υ] in
theorem get_none {k : κ} (h : get m k = none) : ∀ e ∈ m, e.1 ≠ k := by
  intro e he
  simpa using List.find?_eq_none.1 (Option.map_eq_none_iff.1 h) e he

omit [DecidableEq υ] in
/-- Giving a key the value that it has changes nothing. -/
theorem set_of_mem (hn : (m.map (·.1)).Nodup) (he : e ∈ m) : set m e.1 e.2 = m := by
  unfold set Table.put
  rw [if_pos (List.any_eq_true.2 ⟨e, he, by simp⟩)]
  refine (List.map_congr_left fun p hp => ?_).trans (List.map_id m)
  by_cases hkey : p.1 = e.1
  · rw [if_pos hkey]
    exact (List.inj_on_of_nodup_map hn hp he hkey).symm
  · exact if_neg hkey

/-- **An entry that is accepted** is in the map from then on, and nothing else has changed. -/
theorem register_some (hn : (m.map (·.1)).Nodup) (h : register m e = some out) :
    (out.map (·.1)).Nodup ∧ ∀ p, p ∈ out ↔ p ∈ m ∨ p = e := by
  unfold register at h
  split at h
  case isFalse => cases h
  case isTrue hall =>
    obtain rfl := Option.some.inj h
    cases hget : get m e.1 with
    | none =>
      have hnew : ∀ x ∈ m, x.1 ≠ e.1 := get_none hget
      have hput : set m e.1 e.2 = m ++ [e] := Table.put_new hnew
      rw [hput]
      exact ⟨Table.nodup_insert hn hnew, fun p => by simp⟩
    | some v =>
      obtain rfl : v = e.2 := by simpa [hget] using hall
      have he : e ∈ m := get_some hget
      rw [set_of_mem hn he]
      refine ⟨hn, fun p => ⟨Or.inl, ?_⟩⟩
      rintro (hp | rfl)
      · exact hp
      · exact he

/-- An entry that is refused has a key with another value. -/
theorem register_none (h : register m e = none) : ∃ p ∈ m, p.1 = e.1 ∧ p.2 ≠ e.2 := by
  unfold register at h
  split at h
  case isTrue => cases h
  case isFalse hall =>
    cases hget : get m e.1 with
    | none => simp [hget] at hall
    | some v => exact ⟨(e.1, v), get_some hget, rfl, by simpa [hget] using hall⟩

theorem foldlM_some (hn : (m.map (·.1)).Nodup) (h : es.foldlM register m = some out) :
    (out.map (·.1)).Nodup ∧ ∀ p, p ∈ out ↔ p ∈ m ∨ p ∈ es := by
  induction es generalizing m with
  | nil =>
    obtain rfl : m = out := by simpa using h
    exact ⟨hn, fun p => by simp⟩
  | cons e es ih =>
    obtain ⟨m', hm', h⟩ := Option.bind_eq_some_iff.1 h
    obtain ⟨hn', hmem'⟩ := register_some hn hm'
    obtain ⟨hnout, hmem⟩ := ih hn' h
    refine ⟨hnout, fun p => ?_⟩
    rw [hmem, hmem', List.mem_cons, or_assoc]

theorem foldlM_none (hn : (m.map (·.1)).Nodup) (h : es.foldlM register m = none) : ¬ Consistent (m ++ es) := by
  intro hc
  induction es generalizing m with
  | nil => simp at h
  | cons e es ih =>
    rw [List.foldlM_cons] at h
    cases hreg : register m e with
    | none =>
      obtain ⟨p, hp, hkey, hvalue⟩ := register_none hreg
      exact hvalue (hc p (List.mem_append_left _ hp) e (by simp) hkey)
    | some m' =>
      obtain ⟨hn', hmem'⟩ := register_some hn hreg
      have hsub : ∀ p ∈ m' ++ es, p ∈ m ++ e :: es := by
        intro p hp
        simp only [List.mem_append, List.mem_cons, hmem'] at hp ⊢
        rwa [or_assoc] at hp
      rw [hreg] at h
      exact ih hn' h fun p hp q hq => hc p (hsub p hp) q (hsub q hq)

/-- **The map has exactly the entries**, each key once. -/
theorem registerAll_some (h : registerAll es = some m) : (m.map (·.1)).Nodup ∧ ∀ p, p ∈ m ↔ p ∈ es := by
  obtain ⟨hn, hmem⟩ := foldlM_some (m := []) List.nodup_nil h
  exact ⟨hn, fun p => by simp [hmem]⟩

/-- **No entry is refused if and only if no key comes with two values.** -/
theorem registerAll_isSome : (registerAll es).isSome ↔ Consistent es := by
  constructor
  · intro h
    obtain ⟨m, hm⟩ := Option.isSome_iff_exists.1 h
    obtain ⟨hn, hmem⟩ := registerAll_some hm
    intro p hp q hq hkey
    have heq := List.inj_on_of_nodup_map hn ((hmem p).2 hp) ((hmem q).2 hq) hkey
    rw [heq]
  · intro hc
    by_contra hnone
    have hnone : es.foldlM register [] = none := by simpa [registerAll] using hnone
    exact foldlM_none (m := []) List.nodup_nil hnone hc

end Registry

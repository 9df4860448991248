import AccountApi.Lib.Table

/-!
# Aggregates that announce their changes

An aggregate holds its primitives and the events applied to it so far. A `Field` of
the primitives is changed by a value that differs from the current one, and each
change is announced by an event with the old and the new value.

* `supply_events`, `supply_primitives`: what a supplied value announces and changes.
* `Announces.supply`, `Announces.comp`: an operation known by what it announces and
  writes, built from one field after another.
* `replay_runs`: what holds of one operation holds of any sequence of them.
* `Described`: what it means that the events of `update` describe it, and `described`,
  what is left to prove of one class of aggregates.
* `project`: a table rebuilt from events; `project_redo_put`, from those of one update.
-/

namespace Sourced

/-- The primitives and the events applied, the latest last. -/
structure Aggregate (ρ ε : Type*) where
  primitives : ρ
  events : List ε
  deriving DecidableEq, Repr

variable {ρ ε β σ π : Type*}

def Aggregate.apply (a : Aggregate ρ ε) (e : ε) : Aggregate ρ ε := { a with events := a.events ++ [e] }

/-- A field: how it is read and written, and the event that announces a change from an old value to
a new one. -/
structure Field (ρ ε β : Type*) where
  get : ρ → β
  set : ρ → β → ρ
  changed : ρ → β → β → ε

namespace Field

variable [DecidableEq β] (f : Field ρ ε β) (touch : ρ → ρ)

/-- Sets the field, unless it has the value already. -/
def change (a : Aggregate ρ ε) (newValue : β) : Aggregate ρ ε :=
  let oldValue := f.get a.primitives
  if oldValue = newValue then a
  else Aggregate.apply { a with primitives := touch (f.set a.primitives newValue) }
    (f.changed a.primitives oldValue newValue)

/-- Changes the field when a value is supplied. -/
def supply (a : Aggregate ρ ε) (newValue : Option β) : Aggregate ρ ε :=
  newValue.elim a fun v => f.change touch a v

/-- The event of a supplied value that differs from the current one. -/
def announced (p : ρ) : Option β → List ε
  | none => []
  | some v => if f.get p = v then [] else [f.changed p (f.get p) v]

variable {f touch} {a : Aggregate ρ ε}

theorem supply_events (v : Option β) :
    (f.supply touch a v).events = a.events ++ f.announced a.primitives v := by
  cases v with
  | none => simp [supply, announced]
  | some v =>
    simp only [supply, Option.elim_some, change, announced]
    split <;> simp [Aggregate.apply]

theorem supply_primitives (v : Option β) :
    (f.supply touch a v).primitives =
      if f.announced a.primitives v = [] then a.primitives
      else touch (f.set a.primitives (v.getD (f.get a.primitives))) := by
  cases v with
  | none => simp [supply, announced]
  | some v =>
    simp only [supply, Option.elim_some, change, announced, Option.getD_some]
    split <;> simp [Aggregate.apply]

theorem mem_announced {p : ρ} {v : Option β} {e : ε} (h : e ∈ f.announced p v) :
    ∃ w, e = f.changed p (f.get p) w := by
  cases v with
  | none => cases h
  | some v =>
    simp only [announced] at h
    split at h
    · cases h
    · exact ⟨v, List.mem_singleton.1 h⟩

/-- A supplied value that is not announced is the current one. -/
theorem getD_of_announced {p : ρ} {v : Option β} (h : f.announced p v = []) :
    v.getD (f.get p) = f.get p := by
  cases v with
  | none => rfl
  | some v =>
    simp only [announced] at h
    split at h
    case isTrue hv => rw [Option.getD_some, hv]
    case isFalse => cases h

theorem set_of_announced (hset : ∀ p, f.set p (f.get p) = p) {p : ρ} {v : Option β}
    (h : f.announced p v = []) : f.set p (v.getD (f.get p)) = p := by
  rw [getD_of_announced h, hset]

/-- The replay of a change writes the field, and the time of the last update is not part of it. -/
structure Lawful {ρ ε β τ : Type*} (f : Field ρ ε β) (setUpdatedAt : ρ → τ → ρ) (replay : ρ → ε → ρ) :
    Prop where
  set_get : ∀ p, f.set p (f.get p) = p
  replay_changed : ∀ p v, replay p (f.changed p (f.get p) v) = f.set p v
  get_touched : ∀ p t, f.get (setUpdatedAt p t) = f.get p
  changed_touched : ∀ p t, f.changed (setUpdatedAt p t) = f.changed p
  set_touched : ∀ p t v, f.set (setUpdatedAt p t) v = setUpdatedAt (f.set p v) t

/-- What is announced of `p`, replayed on a state that agrees with it on this field. -/
theorem Lawful.replay_announced {τ : Type*} {setUpdatedAt : ρ → τ → ρ} {replay : ρ → ε → ρ}
    (hf : f.Lawful setUpdatedAt replay) {p q : ρ} (v : Option β) (hget : f.get p = f.get q)
    (hchanged : f.changed p = f.changed q) :
    (f.announced p v).foldl replay q = f.set q (v.getD (f.get q)) := by
  have hpq : f.announced p v = f.announced q v := by cases v <;> simp [announced, hget, hchanged]
  rw [hpq]
  by_cases h : f.announced q v = []
  · rw [h, List.foldl_nil, set_of_announced hf.set_get h]
  · cases v with
    | none => exact absurd rfl h
    | some v =>
      have hv : f.get q ≠ v := fun hv => h (if_pos hv)
      rw [announced, if_neg hv, List.foldl_cons, List.foldl_nil, hf.replay_changed, Option.getD_some]

end Field

/-- What an operation on an aggregate does: it announces changes, writes values, and touches the
aggregate when there is something to announce. -/
structure Announces {τ : Type*} (setUpdatedAt : ρ → τ → ρ) (replay : ρ → ε → ρ)
    (run : τ → Aggregate ρ ε → Aggregate ρ ε) (announced : ρ → List ε) (overwrite : ρ → ρ) : Prop where
  events : ∀ now a, (run now a).events = a.events ++ announced a.primitives
  untouched : ∀ now a, announced a.primitives = [] → (run now a).primitives = a.primitives
  touched : ∀ now a, announced a.primitives ≠ [] →
    (run now a).primitives = setUpdatedAt (overwrite a.primitives) now
  same : ∀ p, announced p = [] → overwrite p = p
  redo : ∀ p t, (announced p).foldl replay (setUpdatedAt p t) = setUpdatedAt (overwrite p) t

namespace Announces

variable {τ : Type*} {setUpdatedAt : ρ → τ → ρ} {replay : ρ → ε → ρ}

/-- One field. -/
theorem supply [DecidableEq β] {f : Field ρ ε β} (hf : f.Lawful setUpdatedAt replay) (v : Option β) :
    Announces setUpdatedAt replay (fun now a => f.supply (setUpdatedAt · now) a v)
      (fun p => f.announced p v) (fun p => f.set p (v.getD (f.get p))) where
  events now a := Field.supply_events v
  untouched now a h := by rw [Field.supply_primitives, if_pos h]
  touched now a h := by rw [Field.supply_primitives, if_neg h]
  same p h := Field.set_of_announced hf.set_get h
  redo p t := by
    have hredo := hf.replay_announced v (hf.get_touched p t).symm (hf.changed_touched p t).symm
    rw [hredo, hf.get_touched, hf.set_touched]

/-- One operation after another, on other fields. -/
theorem comp {run₁ run₂ : τ → Aggregate ρ ε → Aggregate ρ ε} {an₁ an₂ : ρ → List ε} {ow₁ ow₂ : ρ → ρ}
    (h₁ : Announces setUpdatedAt replay run₁ an₁ ow₁) (h₂ : Announces setUpdatedAt replay run₂ an₂ ow₂)
    (hagain : ∀ p t t', setUpdatedAt (setUpdatedAt p t) t' = setUpdatedAt p t')
    (how : ∀ p t, ow₂ (setUpdatedAt p t) = setUpdatedAt (ow₂ p) t) (hother : ∀ p, an₂ (ow₁ p) = an₂ p)
    (hclock : ∀ p t, an₂ (setUpdatedAt p t) = an₂ p) :
    Announces setUpdatedAt replay (fun now a => run₂ now (run₁ now a)) (fun p => an₁ p ++ an₂ p)
      (fun p => ow₂ (ow₁ p)) := by
  have hkept : ∀ now a, an₂ (run₁ now a).primitives = an₂ a.primitives := by
    intro now a
    by_cases h : an₁ a.primitives = []
    · rw [h₁.untouched now a h]
    · rw [h₁.touched now a h, hclock, hother]
  refine ⟨fun now a => ?_, fun now a h => ?_, fun now a h => ?_, fun p h => ?_, fun p t => ?_⟩
  · rw [h₂.events, h₁.events, hkept, List.append_assoc]
  · obtain ⟨h1, h2⟩ := List.append_eq_nil_iff.1 h
    rw [h₂.untouched _ _ (by rw [hkept, h2]), h₁.untouched _ _ h1]
  · by_cases h1 : an₁ a.primitives = []
    · have h2 : an₂ a.primitives ≠ [] := fun h2 => h (by rw [h1, h2]; rfl)
      rw [h₂.touched _ _ (by rwa [hkept]), h₁.untouched _ _ h1, h₁.same _ h1]
    · by_cases h2 : an₂ a.primitives = []
      · rw [h₂.untouched _ _ (by rw [hkept, h2]), h₁.touched _ _ h1, h₂.same _ (by rw [hother, h2])]
      · rw [h₂.touched _ _ (by rwa [hkept]), h₁.touched _ _ h1, how, hagain]
  · obtain ⟨h1, h2⟩ := List.append_eq_nil_iff.1 h
    rw [h₁.same p h1, h₂.same p h2]
  · rw [List.foldl_append, h₁.redo, ← hother, h₂.redo]

end Announces

/-- **Replays compose**: when each operation adds events whose replay gives its effect, seen through
`view`, so does any sequence of operations. -/
theorem replay_runs {α : Type*} (events : σ → List ε) (view : σ → α) (replay : α → ε → α) (op : σ → π → σ)
    (h : ∀ s x, ∃ es, events (op s x) = events s ++ es ∧ es.foldl replay (view s) = view (op s x))
    (s : σ) (xs : List π) : ∃ es, events (xs.foldl op s) = events s ++ es ∧
      es.foldl replay (view s) = view (xs.foldl op s) := by
  induction xs generalizing s with
  | nil => exact ⟨[], by simp⟩
  | cons x xs ih =>
    obtain ⟨es, hes, hview⟩ := h s x
    obtain ⟨es', hes', hview'⟩ := ih (op s x)
    refine ⟨es ++ es', ?_, ?_⟩
    · rw [List.foldl_cons, hes', hes, List.append_assoc]
    · rw [List.foldl_append, hview, hview', List.foldl_cons]

/-- A class of aggregates with an `update(props)`, and what it is for: the changes that the supplied
values make and announce, and how their events are replayed. -/
structure Updatable (σ ρ ε π τ : Type*) where
  primitives : σ → ρ
  events : σ → List ε
  update : σ → π → τ → σ
  /-- One event for each supplied field whose value differs. -/
  announced : ρ → π → List ε
  /-- The supplied fields written. -/
  overwrite : ρ → π → ρ
  updated : ρ → ε
  updatedAt : ρ → τ
  setUpdatedAt : ρ → τ → ρ
  replay : ρ → ε → ρ

namespace Updatable

variable {τ : Type*} (U : Updatable σ ρ ε π τ)

/-- A sequence of calls. -/
def updates (a : σ) (calls : List (π × τ)) : σ := calls.foldl (fun a c => U.update a c.1 c.2) a

/-- **The events describe the updates.** -/
structure Described : Prop where
  /-- Each call emits the announced changes and then one event with the state after the call. -/
  emits : ∀ a props now, U.events (U.update a props now) =
    U.events a ++ U.announced (U.primitives a) props ++ [U.updated (U.primitives (U.update a props now))]
  /-- A call with nothing to announce changes nothing. -/
  untouched : ∀ a props now, U.announced (U.primitives a) props = [] →
    U.primitives (U.update a props now) = U.primitives a
  /-- Any other call writes the supplied fields and touches the aggregate. -/
  touched : ∀ a props now, U.announced (U.primitives a) props ≠ [] →
    U.primitives (U.update a props now) = U.setUpdatedAt (U.overwrite (U.primitives a) props) now
  /-- The events of any calls, replayed, give the final primitives up to the last update. -/
  replays : ∀ a calls, ∃ es, U.events (U.updates a calls) = U.events a ++ es ∧
    es.foldl U.replay (U.primitives a) =
      U.setUpdatedAt (U.primitives (U.updates a calls)) (U.updatedAt (U.primitives a))

variable {U}

/-- It is enough to know `update` as an operation `run` on the primitives and the events, followed by
the event with the state after it. -/
theorem described {run : π → τ → Aggregate ρ ε → Aggregate ρ ε}
    (hrun : ∀ props, Announces U.setUpdatedAt U.replay (run props) (U.announced · props)
      (U.overwrite · props))
    (hprimitives : ∀ a props now, U.primitives (U.update a props now) =
      (run props now ⟨U.primitives a, U.events a⟩).primitives)
    (hevents : ∀ a props now, U.events (U.update a props now) =
      (run props now ⟨U.primitives a, U.events a⟩).events ++ [U.updated (U.primitives (U.update a props now))])
    (hsame : ∀ p, U.setUpdatedAt p (U.updatedAt p) = p)
    (hagain : ∀ p t t', U.setUpdatedAt (U.setUpdatedAt p t) t' = U.setUpdatedAt p t')
    (hupdated : ∀ p q, U.replay p (U.updated q) = p) : U.Described := by
  have hemits : ∀ a props now, U.events (U.update a props now) = U.events a ++
      U.announced (U.primitives a) props ++ [U.updated (U.primitives (U.update a props now))] := by
    intro a props now
    rw [hevents, (hrun props).events]
  have huntouched : ∀ a props now, U.announced (U.primitives a) props = [] →
      U.primitives (U.update a props now) = U.primitives a := by
    intro a props now h
    rw [hprimitives, (hrun props).untouched _ _ h]
  have htouched : ∀ a props now, U.announced (U.primitives a) props ≠ [] →
      U.primitives (U.update a props now) = U.setUpdatedAt (U.overwrite (U.primitives a) props) now := by
    intro a props now h
    rw [hprimitives, (hrun props).touched _ _ h]
  refine ⟨hemits, huntouched, htouched, fun a calls => ?_⟩
  have hruns := replay_runs U.events (fun b => U.setUpdatedAt (U.primitives b) (U.updatedAt (U.primitives a)))
    U.replay (fun b c => U.update b c.1 c.2) (fun b c => ?_) a calls
  · obtain ⟨es, hes, hview⟩ := hruns
    rw [hsame] at hview
    exact ⟨es, hes, hview⟩
  · refine ⟨_, by rw [hemits, List.append_assoc], ?_⟩
    rw [List.foldl_append, (hrun c.1).redo, List.foldl_cons, List.foldl_nil, hupdated]
    by_cases h : U.announced (U.primitives b) c.1 = []
    · rw [huntouched b c.1 c.2 h, (hrun c.1).same _ h]
    · rw [htouched b c.1 c.2 h, hagain]

end Updatable

/-! ## Tables rebuilt from events -/

/-- What an event does to the table of the aggregates. -/
inductive RowChange (ρ : Type*) where
  | put (r : ρ)
  | remove (r : ρ)
  /-- On every row; a change that names one row leaves the others as they are. -/
  | redo (change : ρ → ρ)

variable {κ : Type*} [DecidableEq κ] {key : ρ → κ} {rowChange : ε → RowChange ρ}

def RowChange.apply (key : ρ → κ) (rows : List ρ) : RowChange ρ → List ρ
  | put r => Table.put key rows r
  | remove r => rows.filter fun x => key x ≠ key r
  | redo change => rows.map change

/-- The table after some events. -/
def project (key : ρ → κ) (rowChange : ε → RowChange ρ) (rows : List ρ) (es : List ε) : List ρ :=
  es.foldl (fun rows e => (rowChange e).apply key rows) rows

theorem project_append (rows : List ρ) (es es' : List ε) :
    project key rowChange rows (es ++ es') = project key rowChange (project key rowChange rows es) es' :=
  List.foldl_append

theorem project_put {r : ρ} {e : ε} (he : rowChange e = .put r) (rows : List ρ) :
    project key rowChange rows [e] = Table.put key rows r := by
  simp only [project, List.foldl_cons, List.foldl_nil, he, RowChange.apply]

/-- **Changes of one row, then the whole row**: only the row counts. -/
theorem project_redo_put {r : ρ} {es : List ε} {e : ε} (he : rowChange e = .put r)
    (hes : ∀ e ∈ es, ∃ change, rowChange e = .redo change ∧
      ∀ x, key (change x) = key x ∧ (key x ≠ key r → change x = x)) (rows : List ρ) :
    project key rowChange rows (es ++ [e]) = Table.put key rows r := by
  rw [project_append, project_put he]
  induction es generalizing rows with
  | nil => rfl
  | cons e' es ih =>
    obtain ⟨change, he', hx⟩ := hes e' (.head _)
    have hcons : project key rowChange rows (e' :: es) = project key rowChange (rows.map change) es := by
      simp only [project, List.foldl_cons, he', RowChange.apply]
    rw [hcons, ih (fun e h => hes e (.tail _ h)), Table.put_map (fun x => (hx x).1) fun x => (hx x).2]

/-- The events of one update put the updated aggregate. -/
theorem Updatable.Described.project_update {τ : Type*} {U : Updatable σ ρ ε π τ} (hU : U.Described)
    (a : σ) (props : π) {now : τ} (hnew : U.events a = [])
    (hkey : key (U.primitives (U.update a props now)) = key (U.primitives a))
    (hupdated : ∀ r, rowChange (U.updated r) = .put r)
    (hannounced : ∀ e ∈ U.announced (U.primitives a) props, ∃ change, rowChange e = .redo change ∧
      ∀ x, key (change x) = key x ∧ (key x ≠ key (U.primitives a) → change x = x)) (rows : List ρ) :
    project key rowChange rows (U.events (U.update a props now)) =
      Table.put key rows (U.primitives (U.update a props now)) := by
  rw [hU.emits, hnew, List.nil_append]
  refine project_redo_put (hupdated _) (fun e he => ?_) rows
  obtain ⟨change, hchange, hx⟩ := hannounced e he
  exact ⟨change, hchange, fun x => ⟨(hx x).1, fun hne => (hx x).2 (hkey ▸ hne)⟩⟩

end Sourced

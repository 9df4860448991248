import AccountApi.Proof.TenancyMoves

/-!
# Concurrent updates of a tenant

An update loads the whole row and saves the whole row. Another update that is saved in
between is undone in every column the first one does not supply (`Tenancy.Overwrites`).

* `execute_update`: an update executed with nothing in between.
* `SerialInv`: without such a save, the tables are those of the successful requests
  executed one after the other, in the order of their saves.
* `updates_serializable`: so a run without such a save is serializable.

The `updatedAt` of the serial execution can be chosen freely once it changes a column
(`Retimable`), and a run that changes none keeps the row it started with (`Untouched`).
-/

namespace AccountApi

open Transition

variable {ι : Type} {S : Tenancy ι} {s s' : TenancyState ι} {T : Uuid}

namespace TenancyDb

variable {w : TenancyWorld} {db db' : TenancyDb} {t r x : TenantEntity}

/-- The row with the id of `t` is replaced by `t`. -/
def replace (db : TenancyDb) (t : TenantEntity) : TenancyDb :=
  { db with tenants := db.tenants.map fun x => if x.id = t.id then t else x }

/-- The app of the tenant is there and no other row has its app and slug. -/
def Accepts (w : TenancyWorld) (db : TenancyDb) (t : TenantEntity) : Prop :=
  w.apps.contains t.appId = true ∧
    ∀ x ∈ db.tenants, x.appId = t.appId → x.slug = t.slug → x.id = t.id

instance : Decidable (Accepts w db t) := by unfold Accepts; infer_instance

/-- The save of a tenant that has a row replaces it, if the tenant is accepted. -/
theorem saveTenant_row (hrow : db.findTenant t.id = some r) :
    db.saveTenant w t = some db' ↔ Accepts w db t ∧ db' = db.replace t := by
  obtain ⟨hr, hid⟩ := findTenant_some hrow
  constructor
  · intro h
    obtain ⟨happ, hmem, hup⟩ := saveTenant_some h
    obtain ⟨hclash, ⟨hnone, -⟩ | ⟨-, hrows⟩⟩ := Table.upsert_some hup
    · exact absurd hid (hnone r hr)
    refine ⟨⟨happ, fun x hx happ' hslug => ?_⟩, ?_⟩
    · by_contra hne
      simpa [happ', hslug] using hclash x hx hne
    · cases db'; simp only at hmem hrows; rw [hmem, hrows]; rfl
  · rintro ⟨⟨happ, hfree⟩, rfl⟩
    have hup : Table.upsert (·.id) (fun x t => x.appId = t.appId && x.slug = t.slug) db.tenants t =
        some (db.replace t).tenants := by
      refine Table.upsert_update ⟨r, hr, hid⟩ fun x hx hcl => ?_
      rw [Bool.and_eq_true, decide_eq_true_eq, decide_eq_true_eq] at hcl
      exact hfree x hx hcl.1 hcl.2
    rw [saveTenant, if_pos happ, hup]
    rfl

theorem findTenant_replace {id : Uuid} (hid : t.id = id) (hrow : db.findTenant id = some r) :
    (db.replace t).findTenant id = some t := by
  subst hid
  have hup : Table.upsert (·.id) (fun _ _ => false) db.tenants t = some (db.replace t).tenants :=
    Table.upsert_update ⟨r, findTenant_some hrow⟩ fun _ _ h => by cases h
  have hfind := Table.find_upsert hup t.id
  rw [if_pos rfl] at hfind
  exact hfind

theorem replace_ids : (db.replace t).tenants.map (·.id) = db.tenants.map (·.id) := Table.map_key_replace

theorem replace_replace (hid : x.id = t.id) : (db.replace x).replace t = db.replace t := by
  unfold replace
  simp only [List.map_map]
  congr 1
  refine List.map_congr_left fun y _ => ?_
  by_cases hy : y.id = t.id <;> simp [hy, hid]

theorem replace_self {id : Uuid} (hpk : (db.tenants.map (·.id)).Nodup)
    (hrow : db.findTenant id = some t) : db.replace t = db := by
  have hmap : (db.tenants.map fun x => if x.id = t.id then t else x) = db.tenants := by
    conv_rhs => rw [← List.map_id db.tenants]
    refine List.map_congr_left fun x hx => ?_
    split
    case isTrue hid => exact List.inj_on_of_nodup_map hpk (findTenant_some hrow).1 hx hid.symm
    case isFalse => rfl
  unfold replace
  rw [hmap]

theorem Accepts.replace (h : Accepts w db t) (hid : x.id = t.id) : Accepts w (db.replace x) t := by
  refine ⟨h.1, fun y hy happ hslug => ?_⟩
  obtain ⟨z, hz, rfl⟩ := List.mem_map.1 hy
  by_cases hzx : z.id = x.id
  · rw [if_pos hzx]; exact hid
  · rw [if_neg hzx] at happ hslug ⊢
    exact h.2 z hz happ hslug

/-- Whether a tenant is accepted depends on its id, its app and its slug only. -/
theorem Accepts.congr (h : Accepts w db t) (hid : x.id = t.id) (happ : x.appId = t.appId)
    (hslug : x.slug = t.slug) : Accepts w db x := by
  rw [Accepts, hid, happ, hslug]; exact h

end TenancyDb

/-- The row an update writes when it starts from `r`. -/
def UpdateTenantCommand.written (c : UpdateTenantCommand) (r : TenantEntity) (now : Date) : TenantEntity :=
  (r.toAggregate.update c.name c.slug now).primitives

/-- The row with another `updatedAt`. -/
def TenantEntity.retimed (r : TenantEntity) (u : Date) : TenantEntity := { r with updatedAt := u }

/-- The row with the columns the update supplies. -/
def UpdateTenantCommand.applied (c : UpdateTenantCommand) (r : TenantEntity) (u : Date) : TenantEntity :=
  { r with name := c.name.getD r.name, slug := c.slug.getD r.slug, updatedAt := u }

@[simp] theorem UpdateTenantCommand.applied_id (c : UpdateTenantCommand) (r : TenantEntity) (u : Date) :
    (c.applied r u).id = r.id := rfl

@[simp] theorem TenantEntity.retimed_id (r : TenantEntity) (u : Date) : (r.retimed u).id = r.id := rfl

/-- The update changes a column of `r`. -/
def UpdateTenantCommand.Touches (c : UpdateTenantCommand) (r : TenantEntity) : Prop :=
  ¬ (c.name.getD r.name = r.name ∧ c.slug.getD r.slug = r.slug)

theorem UpdateTenantCommand.written_touched {c : UpdateTenantCommand} {r : TenantEntity} (h : c.Touches r)
    (now : Date) : c.written r now = c.applied r now := by
  rw [written, TenantAggregate.update_primitives, TenantEntity.toAggregate_primitives, if_neg h]
  rfl

theorem UpdateTenantCommand.applied_untouched {c : UpdateTenantCommand} {r : TenantEntity}
    (h : ¬ c.Touches r) (u : Date) : c.applied r u = r.retimed u := by
  obtain ⟨hname, hslug⟩ := not_not.1 h
  rw [applied, hname, hslug]
  rfl

theorem UpdateTenantCommand.written_untouched {c : UpdateTenantCommand} {r : TenantEntity}
    (h : ¬ c.Touches r) (now : Date) : c.written r now = r := by
  obtain ⟨hname, hslug⟩ := not_not.1 h
  rw [written, TenantAggregate.update_primitives, TenantEntity.toAggregate_primitives,
    if_pos ⟨hname, hslug⟩, hname, hslug]

/-- **An update with nothing in between** finds the row and replaces it, if the row is accepted. -/
theorem execute_update {w : TenancyWorld} {new : NewTenancyIds} {now : Date} {db : TenancyDb}
    {c : UpdateTenantCommand} {r : TenantEntity} (hpk : (db.tenants.map (·.id)).Nodup)
    (hrow : db.findTenant c.tenantId = some r) (hacc : TenancyDb.Accepts w db (c.written r now)) :
    db.execute w new now (.update c) = (db.replace (c.written r now), .succeeded) := by
  have hid := (TenancyDb.findTenant_some hrow).2
  have hsave : db.saveTenant w (r.toAggregate.update c.name c.slug now).primitives =
      some (db.replace (c.written r now)) := by
    refine (TenancyDb.saveTenant_row (r := r) ?_).2 ⟨hacc, rfl⟩
    rw [TenantAggregate.update_primitives]
    exact hid ▸ hrow
  have hlast : ∀ n, TenancyDb.complete w new now (.update c) (n + 1) (db, .checked r.toAggregate) =
      (db.replace (c.written r now), .succeeded) := by
    intro n
    simp only [TenancyDb.complete, TenancyDb.advance, hsave]
    cases n <;> rfl
  by_cases hslug : c.slug.any (fun slug => slug ≠ r.slug) = true
  · -- the slug changes, and is checked: no other row has the new slug, and this one has another
    have hfree : db.findByAppIdAndSlug r.appId (c.slug.getD r.slug) = none := by
      refine List.find?_eq_none.2 fun x hx hfound => ?_
      obtain ⟨slug, hc, hne⟩ := (Option.any_eq_true _ _).1 hslug
      simp only [hc, Option.getD_some, Bool.and_eq_true, decide_eq_true_eq] at hfound
      have hslug' : (c.written r now).slug = slug := by
        rw [UpdateTenantCommand.written, TenantAggregate.update_primitives, hc]; rfl
      have happ' : (c.written r now).appId = r.appId := by
        rw [UpdateTenantCommand.written, TenantAggregate.update_primitives]; rfl
      have hxid := hacc.2 x hx (hfound.1.trans happ'.symm) (hfound.2.trans hslug'.symm)
      have hid' : (c.written r now).id = r.id := by
        rw [UpdateTenantCommand.written, TenantAggregate.update_primitives]; rfl
      obtain rfl := List.inj_on_of_nodup_map hpk hx (TenancyDb.findTenant_some hrow).1 (hxid.trans hid')
      simp [hfound.2] at hne
    show TenancyDb.complete w new now (.update c) 4 (db, .received) = _
    rw [TenancyDb.complete]
    simp only [TenancyDb.advance, hrow, hslug, if_true]
    rw [TenancyDb.complete]
    simp only [TenancyDb.advance, TenantEntity.toAggregate_primitives, hfree]
    exact hlast 1
  · show TenancyDb.complete w new now (.update c) 4 (db, .received) = _
    rw [TenancyDb.complete]
    simp only [TenancyDb.advance, hrow, hslug]
    exact hlast 2

section
variable {w : TenancyWorld} {new : NewTenancyIds} {now : Date} {db db' : TenancyDb} {fails : Bool}
  {c : UpdateTenantCommand} {p p' : TenancyPhase}

/-- A call of an update leaves the tables alone, or saves the tenant it holds. -/
theorem TenancyMove.update_cases (hm : TenancyMove w new now db fails db' (.update c) p p') :
    (db' = db ∧ p' ≠ .succeeded ∧
        ∀ t, p'.tenant = some t → p.tenant = some t ∨ db.findTenant c.tenantId = some t.primitives) ∨
      (fails = false ∧ p' = .succeeded ∧
        ∃ t, p = .checked t ∧ db.saveTenant w (c.written t.primitives now) = some db') := by
  cases hm with
  | abort _ _ _ => exact Or.inl ⟨rfl, by simp, fun t ht => by cases ht⟩
  | reject _ _ e => exact Or.inl ⟨rfl, by simp, fun t ht => by cases ht⟩
  | loadUnchecked _ r hr => exact Or.inl ⟨rfl, by simp, fun t ht => by cases ht; exact Or.inr hr⟩
  | loadChecked _ r hr => exact Or.inl ⟨rfl, by simp, fun t ht => by cases ht; exact Or.inr hr⟩
  | checkSlug _ t => exact Or.inl ⟨rfl, by simp, fun u hu => by cases hu; exact Or.inl rfl⟩
  | saveUpdate _ t _ hs =>
    refine Or.inr ⟨rfl, rfl, t, rfl, ?_⟩
    rw [UpdateTenantCommand.written, TenantAggregate.update_primitives]
    rw [TenantAggregate.update_primitives] at hs
    exact hs

end

/-- The step saves an update over a row whose column it does not supply was changed since it was
loaded. -/
def Tenancy.Overwrites (S : Tenancy ι) (s : TenancyState ι) (a : TenancyStep ι) : Prop :=
  a.fails = false ∧ ∃ c t r, S.requests a.request = .update c ∧ s.phase a.request = .checked t ∧
    s.db.findTenant t.primitives.id = some r ∧
    TenancyDb.Accepts S.world s.db (c.written t.primitives a.now) ∧
    (c.name = none ∧ r.name ≠ t.primitives.name ∨ c.slug = none ∧ r.slug ≠ t.primitives.slug)

/-- A request executed with nothing in between; `none` when it does not succeed. -/
def Tenancy.perform (S : Tenancy ι) (db : TenancyDb) (a : ι × Date) : Option TenancyDb :=
  let q := db.execute S.world (S.new a.1) a.2 (S.requests a.1)
  if q.2 = .succeeded then some q.1 else none

/-- The tables after the requests, executed one after the other at some times. -/
def Tenancy.Reaches (S : Tenancy ι) (db₀ : TenancyDb) (order : List ι) (db : TenancyDb) : Prop :=
  ∃ timed : List (ι × Date), timed.map Prod.fst = order ∧ exec S.perform db₀ timed = some db

theorem Tenancy.Reaches.append {db₀ db db' : TenancyDb} {order : List ι} {i : ι} (now : Date)
    (h : S.Reaches db₀ order db)
    (he : db.execute S.world (S.new i) now (S.requests i) = (db', .succeeded)) :
    S.Reaches db₀ (order ++ [i]) db' := by
  obtain ⟨timed, rfl, hdb⟩ := h
  refine ⟨timed ++ [(i, now)], by simp, exec_append.2 ⟨db, hdb, exec_cons.2 ⟨db', ?_, exec_nil.2 rfl⟩⟩⟩
  simp [Tenancy.perform, he]

/-- No column was changed: the row is the one every update loaded. -/
def Tenancy.Untouched (S : Tenancy ι) (T : Uuid) (db₀ : TenancyDb) (order : List ι) (s : TenancyState ι) :
    Prop :=
  s.db = db₀ ∧ (∀ i t, (s.phase i).tenant = some t → s.db.findTenant T = some t.primitives) ∧
    S.Reaches db₀ order db₀

/-- The serial execution can end with any `updatedAt`. -/
def Tenancy.Retimable (S : Tenancy ι) (T : Uuid) (db₀ : TenancyDb) (order : List ι) (db : TenancyDb) :
    Prop :=
  ∃ r, db.findTenant T = some r ∧
    ∀ u, S.Reaches db₀ order (db.replace (r.retimed u))

/-- What holds after a run of updates of `T` that started from the tables `db₀`. -/
structure SerialInv (S : Tenancy ι) (T : Uuid) (db₀ : TenancyDb) (s : TenancyState ι) : Prop where
  pk : (s.db.tenants.map (·.id)).Nodup
  loaded : ∀ i t, (s.phase i).tenant = some t → ∃ r, s.db.findTenant T = some r ∧
    t.primitives.id = T ∧ r.appId = t.primitives.appId ∧ r.createdAt = t.primitives.createdAt
  serial : ∃ order : List ι, order.Nodup ∧ (∀ i, i ∈ order ↔ s.phase i = .succeeded) ∧
    (S.Untouched T db₀ order s ∨ S.Retimable T db₀ order s.db)

theorem serialInv_start {db : TenancyDb} (hpk : (db.tenants.map (·.id)).Nodup) :
    SerialInv S T db (Tenancy.start db) where
  pk := hpk
  loaded i t ht := by cases ht
  serial := by
    refine ⟨[], List.nodup_nil, fun i => by simp [Tenancy.start], Or.inl ⟨rfl, ?_, [], rfl, rfl⟩⟩
    intro i t ht
    cases ht

/-- **The save of an update that overwrites nothing** writes what it would have written from the
stored row, up to `updatedAt`. -/
theorem written_stored {c : UpdateTenantCommand} {t r : TenantEntity} (now : Date)
    (hid : r.id = t.id) (happ : r.appId = t.appId) (hcreated : r.createdAt = t.createdAt)
    (hname : c.name = none → r.name = t.name) (hslug : c.slug = none → r.slug = t.slug) :
    ∃ u, c.written t now = c.applied r u := by
  have hn : c.name.getD r.name = c.name.getD t.name := by
    cases h : c.name with
    | none => exact hname h
    | some _ => rfl
  have hs : c.slug.getD r.slug = c.slug.getD t.slug := by
    cases h : c.slug with
    | none => exact hslug h
    | some _ => rfl
  rw [UpdateTenantCommand.written, TenantAggregate.update_primitives]
  simp only [UpdateTenantCommand.applied, hn, hs, hid, happ, hcreated]
  exact ⟨_, rfl⟩

/-- The save of an update that changes a column, in the serial execution. -/
theorem reaches_touched {db₀ db : TenancyDb} {order : List ι} {i : ι} {c : UpdateTenantCommand}
    {r : TenantEntity} (hr : S.requests i = .update c) (hpk : (db.tenants.map (·.id)).Nodup)
    (hrow : db.findTenant c.tenantId = some r) (hreach : S.Reaches db₀ order db) (htouch : c.Touches r)
    (u : Date) (hacc : TenancyDb.Accepts S.world db (c.applied r u)) :
    S.Reaches db₀ (order ++ [i]) (db.replace (c.applied r u)) := by
  have hwritten := UpdateTenantCommand.written_touched htouch u
  rw [← hwritten] at hacc ⊢
  refine hreach.append u ?_
  rw [hr]
  exact execute_update hpk hrow hacc

/-- The save of an update that changes no column, in the serial execution. -/
theorem reaches_untouched {db₀ db : TenancyDb} {order : List ι} {i : ι} {c : UpdateTenantCommand}
    {r : TenantEntity} (hr : S.requests i = .update c) (hpk : (db.tenants.map (·.id)).Nodup)
    (hrow : db.findTenant c.tenantId = some r) (hreach : S.Reaches db₀ order db) (htouch : ¬ c.Touches r)
    (hacc : TenancyDb.Accepts S.world db r) : S.Reaches db₀ (order ++ [i]) db := by
  have hwritten := UpdateTenantCommand.written_untouched htouch r.updatedAt
  refine hreach.append r.updatedAt ?_
  rw [hr, execute_update hpk hrow (by rw [hwritten]; exact hacc), hwritten, TenancyDb.replace_self hpk hrow]

section
variable [DecidableEq ι] {a : TenancyStep ι} {db₀ : TenancyDb}

/-- **The save of an update** that overwrites nothing is the next step of the serial execution. -/
theorem serial_save (hI : SerialInv S T db₀ s) {c : UpdateTenantCommand} {t : TenantAggregate}
    {r : TenantEntity} {u : Date} {order : List ι} (hr : S.requests a.request = .update c)
    (hT : c.tenantId = T) (hp : s.phase a.request = .checked t) (hrow : s.db.findTenant T = some r)
    (hwritten : c.written t.primitives a.now = c.applied r u)
    (hacc : TenancyDb.Accepts S.world s.db (c.applied r u))
    (hdone : s'.phase a.request = .succeeded)
    (hother : ∀ j, j ≠ a.request → s'.phase j = s.phase j)
    (hdb : s'.db = s.db.replace (c.applied r u))
    (hserial : S.Untouched T db₀ order s ∨ S.Retimable T db₀ order s.db) :
    S.Untouched T db₀ (order ++ [a.request]) s' ∨
      S.Retimable T db₀ (order ++ [a.request]) s'.db := by
  subst hT
  have hid : r.id = c.tenantId := (TenancyDb.findTenant_some hrow).2
  have hrow' : s'.db.findTenant c.tenantId = some (c.applied r u) := by
    rw [hdb]; exact TenancyDb.findTenant_replace hid hrow
  by_cases htouch : c.Touches r
  · -- the serial execution changes the row too, at whatever time it is asked for
    have hreach : S.Reaches db₀ order s.db := by
      rcases hserial with ⟨hsame, -, hreach⟩ | ⟨r', hr', hany⟩
      · rw [hsame]; exact hreach
      · obtain rfl := Option.some.inj (hrow.symm.trans hr')
        have hnow := hany r.updatedAt
        rwa [show r.retimed r.updatedAt = r from rfl, TenancyDb.replace_self hI.pk hrow] at hnow
    refine Or.inr ⟨_, hrow', fun v => ?_⟩
    rw [hdb, TenancyDb.replace_replace (TenantEntity.retimed_id _ _).symm]
    exact reaches_touched hr hI.pk hrow hreach htouch v (hacc.congr rfl rfl rfl)
  rw [UpdateTenantCommand.applied_untouched htouch] at hdb hrow' hacc
  rcases hserial with ⟨hsame, hall, hreach⟩ | ⟨r', hr', hany⟩
  · -- the update loaded the row as it still is, and writes it again
    have hload := hall a.request t (by rw [hp]; rfl)
    obtain rfl := Option.some.inj (hrow.symm.trans hload)
    rw [UpdateTenantCommand.written_untouched htouch, UpdateTenantCommand.applied_untouched htouch]
      at hwritten
    rw [← hwritten, TenancyDb.replace_self hI.pk hrow] at hdb
    rw [← hwritten] at hacc
    refine Or.inl ⟨hdb.trans hsame, fun i t' ht' => ?_, ?_⟩
    · by_cases hi : i = a.request
      · rw [hi, hdone] at ht'
        cases ht'
      · rw [hother i hi] at ht'
        rw [hdb]
        exact hall i t' ht'
    · rw [hsame] at hrow hacc
      exact reaches_untouched hr (hsame ▸ hI.pk) hrow hreach htouch hacc
  · -- the stored row changes in `updatedAt` at most, which the serial execution can end with anyway
    obtain rfl := Option.some.inj (hrow.symm.trans hr')
    refine Or.inr ⟨_, hrow', fun v => ?_⟩
    rw [hdb, TenancyDb.replace_replace (TenantEntity.retimed_id _ _).symm]
    have hrowv : (s.db.replace (r.retimed v)).findTenant c.tenantId = some (r.retimed v) :=
      TenancyDb.findTenant_replace hid hrow
    have hpkv : ((s.db.replace (r.retimed v)).tenants.map (·.id)).Nodup := by
      rw [TenancyDb.replace_ids]; exact hI.pk
    have haccv : TenancyDb.Accepts S.world (s.db.replace (r.retimed v)) (r.retimed v) :=
      (hacc.congr rfl rfl rfl).replace rfl
    exact reaches_untouched hr hpkv hrowv (hany v) htouch haccv

/-- A call that saves nothing: what the request holds now it held before, or is the row. -/
theorem serialInv_call (hI : SerialInv S T db₀ s) (hdb : s'.db = s.db)
    (hbefore : s.phase a.request ≠ .succeeded) (hafter : s'.phase a.request ≠ .succeeded)
    (hother : ∀ j, j ≠ a.request → s'.phase j = s.phase j)
    (hload : ∀ t, (s'.phase a.request).tenant = some t →
      (s.phase a.request).tenant = some t ∨ s.db.findTenant T = some t.primitives) :
    SerialInv S T db₀ s' := by
  obtain ⟨order, hnd, hmem, hserial⟩ := hI.serial
  have hload' : ∀ i t, (s'.phase i).tenant = some t →
      (s.phase i).tenant = some t ∨ s.db.findTenant T = some t.primitives := by
    intro i t ht
    by_cases hi : i = a.request
    · subst hi
      exact hload t ht
    · rw [hother i hi] at ht
      exact Or.inl ht
  refine ⟨hdb ▸ hI.pk, fun i t ht => ?_, order, hnd, fun i => ?_, ?_⟩
  · rw [hdb]
    rcases hload' i t ht with hold | hrow
    · exact hI.loaded i t hold
    · exact ⟨_, hrow, (TenancyDb.findTenant_some hrow).2, rfl, rfl⟩
  · rw [hmem]
    by_cases hi : i = a.request
    · subst hi
      exact iff_of_false hbefore hafter
    · rw [hother i hi]
  · rw [hdb]
    refine hserial.imp ?_ id
    rintro ⟨hsame, hall, hreach⟩
    refine ⟨hdb.trans hsame, fun i t ht => ?_, hreach⟩
    rw [hdb]
    exact (hload' i t ht).elim (hall i t) id

/-- A save: its request joins the serial execution at the end. -/
theorem serialInv_save (hI : SerialInv S T db₀ s) {c : UpdateTenantCommand} {t : TenantAggregate}
    (hr : S.requests a.request = .update c) (hT : c.tenantId = T) (hp : s.phase a.request = .checked t)
    (hsave : s.db.saveTenant S.world (c.written t.primitives a.now) = some s'.db) (hf : a.fails = false)
    (hok : ¬ S.Overwrites s a) (hdone : s'.phase a.request = .succeeded)
    (hother : ∀ j, j ≠ a.request → s'.phase j = s.phase j) : SerialInv S T db₀ s' := by
  obtain ⟨order, hnd, hmem, hserial⟩ := hI.serial
  obtain ⟨r, hrow, htid, happ, hcreated⟩ := hI.loaded a.request t (by rw [hp]; rfl)
  have hid := (TenancyDb.findTenant_some hrow).2
  have hwid : (c.written t.primitives a.now).id = T := by
    rw [UpdateTenantCommand.written, TenantAggregate.update_primitives]; exact htid
  obtain ⟨hacc, hdb⟩ := (TenancyDb.saveTenant_row (by rw [hwid]; exact hrow)).1 hsave
  have hsame : (c.name = none → r.name = t.primitives.name) ∧
      (c.slug = none → r.slug = t.primitives.slug) := by
    by_contra hcon
    rw [not_and_or, Classical.not_imp, Classical.not_imp] at hcon
    exact hok ⟨hf, c, t, r, hr, hp, by rw [htid]; exact hrow, hacc, hcon⟩
  obtain ⟨u, hwritten⟩ := written_stored a.now (hid.trans htid.symm) happ hcreated hsame.1 hsame.2
  rw [hwritten] at hacc hdb
  have hrow' : s'.db.findTenant T = some (c.applied r u) := by
    rw [hdb]; exact TenancyDb.findTenant_replace hid hrow
  have hfresh : a.request ∉ order := fun hin => by
    have := (hmem _).1 hin
    rw [hp] at this; cases this
  refine ⟨by rw [hdb, TenancyDb.replace_ids]; exact hI.pk, fun i t' ht' => ?_, order ++ [a.request], ?_,
    fun i => ?_, serial_save hI hr hT hp hrow hwritten hacc hdone hother hdb hserial⟩
  · by_cases hi : i = a.request
    · rw [hi, hdone] at ht'
      cases ht'
    · rw [hother i hi] at ht'
      obtain ⟨r', hr', hrest⟩ := hI.loaded i t' ht'
      obtain rfl := Option.some.inj (hrow.symm.trans hr')
      exact ⟨_, hrow', hrest⟩
  · rw [List.nodup_append]
    refine ⟨hnd, List.nodup_singleton _, fun x hx y hy => ?_⟩
    rw [List.mem_singleton] at hy
    rintro rfl
    exact hfresh (hy ▸ hx)
  · rw [List.mem_append, List.mem_singleton, hmem]
    by_cases hi : i = a.request
    · subst hi
      exact iff_of_true (Or.inr rfl) hdone
    · rw [hother i hi]
      exact or_iff_left hi

/-- **Every step that overwrites nothing** preserves the invariant. -/
theorem serialInv_step (hreq : ∀ i, ∃ c, S.requests i = .update c ∧ c.tenantId = T)
    (hI : SerialInv S T db₀ s) (hok : ¬ S.Overwrites s a) (h : S.step s a = some s') :
    SerialInv S T db₀ s' := by
  obtain ⟨hm, hother⟩ := tenancy_step h
  obtain ⟨c, hr, hT⟩ := hreq a.request
  have hbefore := hm.ne_succeeded
  rw [hr] at hm
  rcases hm.update_cases with ⟨hdb, hafter, hload⟩ | ⟨hf, hdone, t, hp, hsave⟩
  · exact serialInv_call hI hdb hbefore hafter hother fun t ht => hT ▸ hload t ht
  · exact serialInv_save hI hr hT hp hsave hf hok hdone hother

/-- **Updates of a tenant are serializable** on every run without a save that overwrites a column it
does not supply: the tables are those of the successful requests executed one after the other. -/
theorem updates_serializable {db : TenancyDb} {as : List (TenancyStep ι)}
    (hpk : (db.tenants.map (·.id)).Nodup)
    (hreq : ∀ i, ∃ c, S.requests i = .update c ∧ c.tenantId = T)
    (h : exec S.step (Tenancy.start db) as = some s)
    (hok : Along S.step (fun s a => ¬ S.Overwrites s a) (Tenancy.start db) as) :
    ∃ order : List (ι × Date), (order.map Prod.fst).Nodup ∧
      (∀ i, i ∈ order.map Prod.fst ↔ s.phase i = .succeeded) ∧ exec S.perform db order = some s.db := by
  have hI : SerialInv S T db s := invariant_along
    (fun _ _ _ hI hok h => serialInv_step hreq hI hok h) (serialInv_start hpk) hok h
  obtain ⟨order, hnd, hmem, hserial⟩ := hI.serial
  have hreach : S.Reaches db order s.db := by
    rcases hserial with ⟨hsame, -, hreach⟩ | ⟨r, hrow, hany⟩
    · rw [hsame]; exact hreach
    · have hnow := hany r.updatedAt
      rwa [show r.retimed r.updatedAt = r from rfl, TenancyDb.replace_self hI.pk hrow] at hnow
  obtain ⟨timed, rfl, htimed⟩ := hreach
  exact ⟨timed, hnd, hmem, htimed⟩

end

/-- Two updates of both columns of tenant 7, and one of its name. -/
def threeUpdates : Tenancy (Fin 3) :=
  Tenancy.small ![.update ⟨7, some "Acme Inc", some "acme-inc"⟩,
    .update ⟨7, some "Acme Ltd", some "acme-ltd"⟩, .update ⟨7, some "Acme", none⟩]

theorem updates_serializable_three : ∃ s order,
    exec threeUpdates.step (Tenancy.start .small)
        ([0, 1, 1, 0, 0, 1, 2, 2].map fun i => ⟨i, false, .millis 1⟩) = some s ∧
      (order.map Prod.fst).Nodup ∧ (∀ i, i ∈ order.map Prod.fst) ∧
      exec threeUpdates.perform .small order = some s.db := by
  obtain ⟨s, hs, hdone⟩ : ∃ s, exec threeUpdates.step (Tenancy.start .small)
      ([0, 1, 1, 0, 0, 1, 2, 2].map fun i => ⟨i, false, .millis 1⟩) = some s ∧
      ∀ i, s.phase i = .succeeded := ⟨_, rfl, by decide⟩
  have hreq : ∀ i, ∃ c, threeUpdates.requests i = .update c ∧ c.tenantId = 7 := fun i =>
    match i with
    | 0 | 1 | 2 => ⟨_, rfl, rfl⟩
  have hsupplied : ∀ {i c}, threeUpdates.requests i = .update c → c.name = none ∨ c.slug = none →
      i = 2 := fun {i} {c} h hnone =>
    match i, h with
    | 0, h => by cases h; simp at hnone
    | 1, h => by cases h; simp at hnone
    | 2, _ => rfl
  -- only the last update leaves a column out, and it loads the row after the others are saved
  have hok : Along threeUpdates.step (fun s a => ¬ threeUpdates.Overwrites s a) (Tenancy.start .small)
      ([0, 1, 1, 0, 0, 1, 2, 2].map fun i => ⟨i, false, .millis 1⟩) := by
    refine along_of_check (fun s a => a.request ≠ 2 || (s.phase a.request).tenant.all fun t =>
      (s.db.findTenant t.primitives.id).all fun r =>
        r.name = t.primitives.name && r.slug = t.primitives.slug) ?_ (by decide)
    rintro s a hcheck ⟨-, c, t, r, hr, hp, hrow, -, hlost⟩
    rw [hsupplied hr (hlost.imp And.left And.left)] at hcheck hp
    simp only [hp, hrow, TenancyPhase.tenant, ne_eq, not_true_eq_false, decide_false, Bool.false_or,
      Option.all_some, Bool.and_eq_true, decide_eq_true_eq] at hcheck
    rcases hlost with ⟨-, hname⟩ | ⟨-, hslug⟩
    · exact hname hcheck.1
    · exact hslug hcheck.2
  obtain ⟨order, hnd, hmem, horder⟩ := updates_serializable (by decide) hreq hs hok
  exact ⟨s, order, hs, hnd, fun i => (hmem i).2 (hdone i), horder⟩

/-- An update of the name of tenant 7, and one of its slug. -/
def nameAndSlug : Tenancy (Fin 2) :=
  Tenancy.small ![.update ⟨7, some "Acme Inc", none⟩, .update ⟨7, none, some "acme-inc"⟩]

/-- Executed one after the other, in either order, both updates survive. -/
theorem nameAndSlug_serial {order : List (Fin 2 × Date)} {db : TenancyDb}
    (hnd : (order.map Prod.fst).Nodup) (hall : ∀ i, i ∈ order.map Prod.fst)
    (h : exec nameAndSlug.perform .small order = some db) :
    db.tenants.map (fun t => (t.name, t.slug)) = [("Acme Inc", "acme-inc")] := by
  have hperm : (order.map Prod.fst).Perm [0, 1] :=
    (List.perm_ext_iff_of_nodup hnd (by decide)).2 fun i => iff_of_true (hall i) (by
      revert i; decide)
  have hlen : order.length = 2 := by simpa using hperm.length_eq
  match order, hlen with
  | [(0, d), (0, e)], _ => simp at hnd
  | [(1, d), (1, e)], _ => simp at hnd
  | [(0, d), (1, e)], _ => cases h; rfl
  | [(1, d), (0, e)], _ => cases h; rfl

/-- **A lost update**: both are loaded, the slug is saved, and the save of the name undoes it. -/
theorem name_update_undoes_slug : ∃ s,
    exec nameAndSlug.step (Tenancy.start .small)
        ([0, 1, 1, 1, 0].map fun i => ⟨i, false, .millis 1⟩) = some s ∧
      (∀ i, s.phase i = .succeeded) ∧
      ∀ order : List (Fin 2 × Date), (order.map Prod.fst).Nodup →
        (∀ i, i ∈ order.map Prod.fst ↔ s.phase i = .succeeded) →
        exec nameAndSlug.perform .small order ≠ some s.db := by
  obtain ⟨s, hs, hdone, hrow⟩ : ∃ s, exec nameAndSlug.step (Tenancy.start .small)
      ([0, 1, 1, 1, 0].map fun i => ⟨i, false, .millis 1⟩) = some s ∧ (∀ i, s.phase i = .succeeded) ∧
      s.db.tenants.map (fun t => (t.name, t.slug)) = [("Acme Inc", "acme")] :=
    ⟨_, rfl, by decide, by decide⟩
  refine ⟨s, hs, hdone, fun order hnd hmem h => ?_⟩
  have hserial := nameAndSlug_serial hnd (fun i => (hmem i).2 (hdone i)) h
  rw [hrow] at hserial
  exact absurd hserial (by decide)

end AccountApi

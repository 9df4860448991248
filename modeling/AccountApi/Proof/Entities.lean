import AccountApi.Proof.Acceptance
import AccountApi.Proof.EntityColumns
import AccountApi.Proof.Migrations

/-!
# The tables are contents of the migrated schema

The repositories are modelled over lists of entities, the migrations over SQL tables. Here the constraints that
the one checks are those that the others have created.

* `valid_iff`: the rows of the entities are a content of the schema exactly when they are `Stored`.
* `saves_in_schema`: **a save succeeds exactly when the table after it is a content of the schema**.
* `commands_in_schema`: **commands whose values fit the columns keep the tables so**.
-/

namespace AccountApi

open Transition Sql

theorem schemaAt_three : schemaAt 3 = some migratedSchema := by decide +kernel

theorem migratedSchema_names : (migratedSchema.map (·.name)).Nodup := by decide

/-- The entities meet the constraints of their tables and fit the columns. -/
structure Stored (b : Database) (sessions : List SessionEntity) : Prop extends Integrity b where
  appIds : (b.apps.map (·.id)).Nodup
  sessionIds : (sessions.map (·.id)).Nodup
  hashes : (sessions.map (·.refreshTokenHash)).Nodup
  sessionUsers : ∀ e ∈ sessions, ∃ u ∈ b.users, u.id = e.userId
  successors : ∀ e ∈ sessions, ∀ id, e.replacedBySessionId = some id → ∃ e' ∈ sessions, e'.id = id
  fits : b.Fits
  sessionsFit : ∀ e ∈ sessions, e.Fits

section
variable {b : Database} {sessions : List SessionEntity}

theorem slugs_unique (hn : (b.apps.map (·.id)).Nodup) :
    Table.Unique (·.id) (fun x a => x.slug = a.slug) b.apps ↔ (b.apps.map (·.slug)).Nodup :=
  Table.unique_iff_nodup hn fun x y => by simp

theorem accounts_unique (hn : (b.users.map (·.id)).Nodup) :
    Table.Unique (·.id) (fun x u => x.externalId = u.externalId || x.email = u.email) b.users ↔
      (b.users.map (·.externalId)).Nodup ∧ (b.users.map (·.email)).Nodup := by
  rw [Table.unique_or]
  exact and_congr (Table.unique_iff_nodup hn fun x y => by simp) (Table.unique_iff_nodup hn fun x y => by simp)

theorem tenantSlugs_unique (hn : (b.tenancy.tenants.map (·.id)).Nodup) :
    Table.Unique (·.id) (fun x t => x.appId = t.appId && x.slug = t.slug) b.tenancy.tenants ↔
      (b.tenancy.tenants.map fun t => (t.appId, t.slug)).Nodup :=
  Table.unique_iff_nodup hn fun x y => by simp

theorem members_unique (hn : (b.tenancy.memberships.map (·.id)).Nodup) :
    Table.Unique (·.id) (fun x m => x.tenantId = m.tenantId && x.userId = m.userId) b.tenancy.memberships ↔
      (b.tenancy.memberships.map fun m => (m.tenantId, m.userId)).Nodup :=
  Table.unique_iff_nodup hn fun x y => by simp

theorem hashes_unique (hn : (sessions.map (·.id)).Nodup) :
    Table.Unique (·.id) (fun x e => x.refreshTokenHash = e.refreshTokenHash) sessions ↔
      (sessions.map (·.refreshTokenHash)).Nodup :=
  Table.unique_iff_nodup hn fun x y => by simp

theorem rows_outside {t : String} (ht : Schema.table migratedSchema t = none) : b.rows sessions t = [] := by
  unfold Database.rows
  split
  case h_6 => rfl
  all_goals exact absurd ht (by decide +kernel)

/-- The columns take the rows where the entities fit. -/
theorem admits_iff (hsha : ∀ e ∈ sessions, e.refreshTokenHash < 16 ^ 64) :
    (∀ T ∈ migratedSchema, ∀ r ∈ b.rows sessions T.name, T.Admits r) ↔ b.Fits ∧ ∀ e ∈ sessions, e.Fits := by
  have happs : (∀ r ∈ b.rows sessions "app", appTable.Admits r) ↔ ∀ a ∈ b.apps, a.Fits :=
    List.forall_mem_map.trans (forall₂_congr fun _ _ => admits_app)
  have husers : (∀ r ∈ b.rows sessions "user", userTable.Admits r) ↔ ∀ u ∈ b.users, u.Fits :=
    List.forall_mem_map.trans (forall₂_congr fun _ _ => admits_user)
  have htenants : (∀ r ∈ b.rows sessions "tenant", tenantTable.Admits r) ↔ ∀ t ∈ b.tenancy.tenants, t.Fits :=
    List.forall_mem_map.trans (forall₂_congr fun _ _ => admits_tenant)
  have hmembers : (∀ r ∈ b.rows sessions "tenant_membership", membershipTable.Admits r) ↔
      ∀ m ∈ b.tenancy.memberships, m.Fits :=
    List.forall_mem_map.trans (forall₂_congr fun _ _ => admits_membership)
  have hsessions : (∀ r ∈ b.rows sessions "session", sessionTable.Admits r) ↔ ∀ e ∈ sessions, e.Fits :=
    List.forall_mem_map.trans (forall₂_congr fun e he => admits_session (hsha e he))
  simp only [migratedSchema, List.forall_mem_cons, List.not_mem_nil, false_implies, implies_true, and_true]
  constructor
  · rintro ⟨ha, hu, ht, hm, hs⟩
    exact ⟨⟨happs.1 ha, husers.1 hu, htenants.1 ht, hmembers.1 hm⟩, hsessions.1 hs⟩
  · rintro ⟨⟨ha, hu, ht, hm⟩, hs⟩
    exact ⟨happs.2 ha, husers.2 hu, htenants.2 ht, hmembers.2 hm, hsessions.2 hs⟩

/-- The tables are a content of the migrated schema. -/
theorem valid_iff (hsha : ∀ e ∈ sessions, e.refreshTokenHash < 16 ^ 64) :
    Database.Valid ⟨migratedSchema, b.rows sessions⟩ ↔ Stored b sessions := by
  constructor
  · intro h
    obtain ⟨hfits, hsessions⟩ := (admits_iff hsha).1 h.admits
    obtain ⟨happs, hslugs⟩ := holds_app.1 (h.holds appTable (by simp [migratedSchema]))
    obtain ⟨husers, haccounts⟩ := holds_user.1 (h.holds userTable (by simp [migratedSchema]))
    obtain ⟨htenants, htenantSlugs, htenantApps⟩ := holds_tenant.1 (h.holds tenantTable (by simp [migratedSchema]))
    obtain ⟨hmembers, hmember, htenantOf, huserOf⟩ :=
      holds_membership.1 (h.holds membershipTable (by simp [migratedSchema]))
    obtain ⟨hids, hhashes, hsessionUsers, hsuccessors⟩ :=
      (holds_session hsha).1 (h.holds sessionTable (by simp [migratedSchema]))
    exact {
      apps := (slugs_unique happs).2 hslugs
      users := (accounts_unique husers).2 haccounts
      tenants := (tenantSlugs_unique htenants).2 htenantSlugs
      memberships := (members_unique hmembers).2 hmember
      userIds := husers
      tenantIds := htenants
      membershipIds := hmembers
      tenantApps := htenantApps
      members := fun m hm => ⟨htenantOf m hm, huserOf m hm⟩
      appIds := happs
      sessionIds := hids
      hashes := hhashes
      sessionUsers := hsessionUsers
      successors := hsuccessors
      fits := hfits
      sessionsFit := hsessions }
  · intro h
    exact {
      names := migratedSchema_names
      outside := fun t => rows_outside
      admits := (admits_iff hsha).2 ⟨h.fits, h.sessionsFit⟩
      holds := by
        show ∀ T ∈ migratedSchema, ∀ c ∈ T.constraints, c.Holds T.name (b.rows sessions)
        simp only [migratedSchema, List.forall_mem_cons, List.not_mem_nil, false_implies, implies_true, and_true]
        refine ⟨holds_app.2 ⟨h.appIds, ?_⟩, holds_user.2 ⟨h.userIds, ?_⟩,
          holds_tenant.2 ⟨h.tenantIds, ?_, h.tenantApps⟩,
          holds_membership.2 ⟨h.membershipIds, ?_, fun m hm => (h.members m hm).1, fun m hm => (h.members m hm).2⟩,
          (holds_session hsha).2 ⟨h.sessionIds, h.hashes, h.sessionUsers, h.successors⟩⟩
        · exact (slugs_unique h.appIds).1 h.apps
        · exact (accounts_unique h.userIds).1 h.users
        · exact (tenantSlugs_unique h.tenantIds).1 h.tenants
        · exact (members_unique h.membershipIds).1 h.memberships }

end

section
variable {b : Database} {sessions : List SessionEntity}

theorem Stored.saveApp (h : Stored b sessions) {a : AppEntity} {apps : List AppEntity} (hfits : a.Fits) :
    saveApp b.apps a = some apps ↔ apps = Table.put (·.id) b.apps a ∧ Stored { b with apps } sessions := by
  constructor
  · intro hsave
    have happs := Table.forall_mem_upsert hsave hfits h.fits.apps
    exact ⟨Table.upsert_put hsave, h.toIntegrity.saveApp hsave, Table.nodup_upsert h.appIds hsave, h.sessionIds,
      h.hashes, h.sessionUsers, h.successors, ⟨happs, h.fits.users, h.fits.tenants, h.fits.memberships⟩,
      h.sessionsFit⟩
  · rintro ⟨rfl, hafter⟩
    exact Table.upsert_of_unique hafter.apps

theorem Stored.saveUser (h : Stored b sessions) {u : UserEntity} {users : List UserEntity} (hfits : u.Fits) :
    saveUser b.users u = some users ↔ users = Table.put (·.id) b.users u ∧ Stored { b with users } sessions := by
  constructor
  · intro hsave
    have husers := Table.forall_mem_upsert hsave hfits h.fits.users
    have hkept : ∀ e ∈ sessions, ∃ v ∈ users, v.id = e.userId :=
      fun e he => Table.exists_key_upsert hsave (h.sessionUsers e he)
    exact ⟨Table.upsert_put hsave, h.toIntegrity.saveUser hsave, h.appIds, h.sessionIds, h.hashes, hkept,
      h.successors, ⟨h.fits.apps, husers, h.fits.tenants, h.fits.memberships⟩, h.sessionsFit⟩
  · rintro ⟨rfl, hafter⟩
    exact Table.upsert_of_unique hafter.users

theorem Stored.saveTenant (h : Stored b sessions) {t : TenantEntity} {tenancy : TenancyDb} (hfits : t.Fits) :
    b.tenancy.saveTenant b.world t = some tenancy ↔
      tenancy = { b.tenancy with tenants := Table.put (·.id) b.tenancy.tenants t } ∧
        Stored { b with tenancy } sessions := by
  constructor
  · intro hsave
    obtain ⟨-, hmemberships, hup⟩ := TenancyDb.saveTenant_some hsave
    have hput : tenancy = { b.tenancy with tenants := Table.put (·.id) b.tenancy.tenants t } := by
      rw [← Table.upsert_put hup]
      exact congrArg (TenancyDb.mk tenancy.tenants) hmemberships
    have htenants := Table.forall_mem_upsert hup hfits h.fits.tenants
    exact ⟨hput, h.toIntegrity.saveTenant hsave, h.appIds, h.sessionIds, h.hashes, h.sessionUsers, h.successors,
      ⟨h.fits.apps, h.fits.users, htenants, hmemberships ▸ h.fits.memberships⟩, h.sessionsFit⟩
  · -- the foreign keys of the row are those of the table after it
    rintro ⟨rfl, hafter⟩
    obtain ⟨a, ha, hid⟩ := hafter.tenantApps t (Table.mem_put.2 (Or.inl rfl))
    have happ : b.world.apps.contains t.appId = true := by
      simp only [Database.world, List.contains_iff_mem, List.mem_map]
      exact ⟨a, ha, hid⟩
    unfold TenancyDb.saveTenant
    rw [if_pos happ, Table.upsert_of_unique hafter.tenants, Option.map_some]

theorem Stored.saveMembership (h : Stored b sessions) {m : TenantMembershipEntity} {tenancy : TenancyDb}
    (hfits : m.Fits) : b.tenancy.saveMembership b.world m = some tenancy ↔
      tenancy = { b.tenancy with memberships := Table.put (·.id) b.tenancy.memberships m } ∧
        Stored { b with tenancy } sessions := by
  constructor
  · intro hsave
    obtain ⟨-, htenants, hup⟩ := TenancyDb.saveMembership_some hsave
    have hput : tenancy = { b.tenancy with memberships := Table.put (·.id) b.tenancy.memberships m } := by
      rw [← Table.upsert_put hup]
      exact congrArg (fun tenants => TenancyDb.mk tenants tenancy.memberships) htenants
    have hmembers := Table.forall_mem_upsert hup hfits h.fits.memberships
    exact ⟨hput, h.toIntegrity.saveMembership hsave, h.appIds, h.sessionIds, h.hashes, h.sessionUsers, h.successors,
      ⟨h.fits.apps, h.fits.users, htenants ▸ h.fits.tenants, hmembers⟩, h.sessionsFit⟩
  · rintro ⟨rfl, hafter⟩
    obtain ⟨⟨t, ht, htid⟩, u, hu, huid⟩ := hafter.members m (Table.mem_put.2 (Or.inl rfl))
    have htenant : (b.tenancy.findTenant m.tenantId).isSome = true := by
      rw [h.toIntegrity.findTenant.2 ⟨ht, htid⟩]
      rfl
    have huser : b.world.hasUser m.userId = true := hasUser_iff.2 ⟨u, hu, huid⟩
    unfold TenancyDb.saveMembership
    rw [if_pos (by rw [htenant, huser]; rfl), Table.upsert_of_unique hafter.memberships, Option.map_some]

/-- The user of a session stays, and its successor is there before it is named. -/
theorem Stored.saveSession (h : Stored b sessions) {e : SessionEntity} {out : List SessionEntity} (hfits : e.Fits) :
    b.saveSession sessions e = some out ↔ out = Table.put (·.id) sessions e ∧ Stored b out := by
  unfold Database.saveSession
  rw [Option.ite_none_right_eq_some, Bool.and_eq_true, hasUser_iff]
  constructor
  · rintro ⟨⟨huser, hnext⟩, hsave⟩
    have hids := Table.nodup_upsert h.sessionIds hsave
    have hhashes := (hashes_unique hids).1
      (Table.unique_upsert (fun x y => by simp [eq_comm]) ((hashes_unique h.sessionIds).2 h.hashes) hsave)
    have husers := Table.forall_mem_upsert hsave huser h.sessionUsers
    have hnamed : ∀ id, e.replacedBySessionId = some id → ∃ x ∈ out, x.id = id := by
      intro id hid
      rw [hid, Option.all_some, Bool.or_eq_true, decide_eq_true_eq, List.any_eq_true] at hnext
      rcases hnext with rfl | ⟨x, hx, hxid⟩
      · refine ⟨e, ?_, rfl⟩
        rw [Table.upsert_put hsave]
        exact Table.mem_put.2 (.inl rfl)
      · exact Table.exists_key_upsert hsave ⟨x, hx, of_decide_eq_true hxid⟩
    have hsuccessors := Table.forall_mem_upsert (P := fun x => ∀ id, x.replacedBySessionId = some id →
      ∃ y ∈ out, y.id = id) hsave hnamed fun x hx id hid => Table.exists_key_upsert hsave (h.successors x hx id hid)
    exact ⟨Table.upsert_put hsave, h.toIntegrity, h.appIds, hids, hhashes, husers, hsuccessors, h.fits,
      Table.forall_mem_upsert hsave hfits h.sessionsFit⟩
  · rintro ⟨rfl, hafter⟩
    have hmem : e ∈ Table.put (·.id) sessions e := Table.mem_put.2 (.inl rfl)
    refine ⟨⟨hafter.sessionUsers e hmem, (Option.all_eq_true _ _).2 fun id hid => ?_⟩,
      Table.upsert_of_unique ((hashes_unique hafter.sessionIds).2 hafter.hashes)⟩
    obtain ⟨x, hx, hxid⟩ := hafter.successors e hmem id hid
    rw [Bool.or_eq_true, decide_eq_true_eq, List.any_eq_true]
    rcases Table.mem_put.1 hx with rfl | ⟨hx, -⟩
    · exact .inl hxid.symm
    · exact .inr ⟨x, hx, decide_eq_true hxid⟩

theorem Stored.deleteTenant (h : Stored b sessions) (id : Uuid) :
    Stored { b with tenancy := b.tenancy.deleteTenant id } sessions where
  toIntegrity := h.toIntegrity.deleteTenant id
  appIds := h.appIds
  sessionIds := h.sessionIds
  hashes := h.hashes
  sessionUsers := h.sessionUsers
  successors := h.successors
  fits := ⟨h.fits.apps, h.fits.users, fun t ht => h.fits.tenants t (List.mem_of_mem_filter ht),
    fun m hm => h.fits.memberships m (List.mem_of_mem_filter hm)⟩
  sessionsFit := h.sessionsFit

theorem Stored.deleteAllByTenantId (h : Stored b sessions) (id : Uuid) :
    Stored { b with tenancy := b.tenancy.deleteAllByTenantId id } sessions where
  toIntegrity := h.toIntegrity.deleteAllByTenantId id
  appIds := h.appIds
  sessionIds := h.sessionIds
  hashes := h.hashes
  sessionUsers := h.sessionUsers
  successors := h.successors
  fits := ⟨h.fits.apps, h.fits.users, h.fits.tenants,
    fun m hm => h.fits.memberships m (List.mem_of_mem_filter hm)⟩
  sessionsFit := h.sessionsFit

variable {k : Kit} {b' : Database} {d : Draws} {es : List DomainEvent}

theorem TenantEntity.Fits.update {t : TenantEntity} (ht : t.Fits) {name slug : Option String} {now : Date}
    (hname : ∀ x, name = some x → x.length ≤ 150) (hslug : ∀ x, slug = some x → x.length ≤ 100)
    (hnow : now ≠ .invalid) : (t.toAggregate.update name slug now).primitives.Fits := by
  rw [TenantAggregate.update_primitives, TenantEntity.toAggregate_primitives]
  refine ⟨?_, ?_, ht.stamped.created, ?_⟩
  · cases name with
    | none => exact ht.name
    | some x => exact hname x rfl
  · cases slug with
    | none => exact ht.slug
    | some x => exact hslug x rfl
  · simp only
    split
    · exact ht.stamped.updated
    · exact hnow

/-- **A command keeps the content** of the tables one of the schema. -/
theorem Stored.written {c : WriteCommand} (h : Stored b sessions) (hc : c.Fits k d)
    (hd : Stamped d.now d.membershipNow) (hw : Written k b d c b' es) : Stored b' sessions := by
  obtain ⟨hnow, hmembershipNow⟩ := hd
  cases hw with
  | createApp c apps _ hsave => exact ((h.saveApp ⟨hc.2, hc.1, hnow, hnow⟩).1 hsave).2
  | createUser c u users _ hbuild hsave => exact ((h.saveUser (hc u hbuild)).1 hsave).2
  | adminKept c u _ _ => exact h
  | adminSet c u users hu hflag hsave =>
    -- the row of the user fitted before, and only the flag and the time change
    have hu' := h.fits.users u (userById_some hu).1
    rw [UserAggregate.update_platformAdmin u hflag] at hsave
    refine ((h.saveUser ?_).1 hsave).2
    exact ⟨hu'.externalId, hu'.email, hu'.displayName, hu'.stamped.created, hnow⟩
  | createTenant c db db' _ _ hsave hmember =>
    have htenant := ((h.saveTenant ⟨hc.1, hc.2, hnow, hnow⟩).1 hsave).2
    have hfits : TenantMembershipEntity.Fits
        ⟨d.membershipId, d.id, c.creatorUserId, .owner, d.membershipNow, d.membershipNow⟩ :=
      ⟨hmembershipNow, hmembershipNow⟩
    exact ((htenant.saveMembership hfits).1 hmember).2
  | updateTenant c t db ht _ hsave =>
    have hfits := h.fits.tenants t (TenancyDb.findTenant_some ht).1
    exact ((h.saveTenant (hfits.update hc.1 hc.2 hnow)).1 hsave).2
  | addTenantMember c t u db _ _ _ hsave => exact ((h.saveMembership ⟨hnow, hnow⟩).1 hsave).2
  | deleteTenant c t ht _ =>
    rw [(TenancyDb.findTenant_some ht).2, deleteTenant_cascades]
    exact h.deleteTenant c.tenantId

end

section
variable {b : Database} {sessions : List SessionEntity}

theorem Stored.inSchema (h : Stored b sessions) : InSchema b sessions :=
  ⟨schemaAt_three, (valid_iff fun e he => (h.sessionsFit e he).hash).2 h⟩

theorem InSchema.stored (hsha : ∀ e ∈ sessions, e.refreshTokenHash < 16 ^ 64) (h : InSchema b sessions) :
    Stored b sessions :=
  (valid_iff hsha).1 h.valid

theorem inSchema_iff (hsha : ∀ e ∈ sessions, e.refreshTokenHash < 16 ^ 64) :
    InSchema b sessions ↔ Stored b sessions :=
  ⟨InSchema.stored hsha, Stored.inSchema⟩

theorem stored_empty : Stored Database.empty [] where
  toIntegrity := integrity_empty
  appIds := List.nodup_nil
  sessionIds := List.nodup_nil
  hashes := List.nodup_nil
  sessionUsers := fun _ he => by cases he
  successors := fun _ he => by cases he
  fits := by constructor <;> simp [Database.empty]
  sessionsFit := fun _ he => by cases he

/-- **The repositories refuse what the schema refuses.** With a row that fits its columns, a `save` succeeds
exactly when the table with the new row is again a content of the migrated schema, and then it is that table. -/
theorem saves_in_schema (hsha : ∀ e ∈ sessions, e.refreshTokenHash < 16 ^ 64) (h : InSchema b sessions) :
    (∀ a apps, a.Fits → (saveApp b.apps a = some apps ↔
      apps = Table.put (·.id) b.apps a ∧ InSchema { b with apps } sessions)) ∧
    (∀ u users, u.Fits → (saveUser b.users u = some users ↔
      users = Table.put (·.id) b.users u ∧ InSchema { b with users } sessions)) ∧
    (∀ t tenancy, t.Fits → (b.tenancy.saveTenant b.world t = some tenancy ↔
      tenancy = { b.tenancy with tenants := Table.put (·.id) b.tenancy.tenants t } ∧
        InSchema { b with tenancy } sessions)) ∧
    (∀ m tenancy, m.Fits → (b.tenancy.saveMembership b.world m = some tenancy ↔
      tenancy = { b.tenancy with memberships := Table.put (·.id) b.tenancy.memberships m } ∧
        InSchema { b with tenancy } sessions)) ∧
    ∀ e out, e.Fits → (b.saveSession sessions e = some out ↔
      out = Table.put (·.id) sessions e ∧ InSchema b out) := by
  have hstored := h.stored hsha
  refine ⟨fun a apps hfits => ?_, fun u users hfits => ?_, fun t tenancy hfits => ?_, fun m tenancy hfits => ?_,
    fun e out hfits => ?_⟩
  · rw [inSchema_iff hsha]
    exact hstored.saveApp hfits
  · rw [inSchema_iff hsha]
    exact hstored.saveUser hfits
  · rw [inSchema_iff hsha]
    exact hstored.saveTenant hfits
  · rw [inSchema_iff hsha]
    exact hstored.saveMembership hfits
  · rw [hstored.saveSession hfits]
    refine and_congr_right fun hput => (inSchema_iff fun x hx => ?_).symm
    rcases Table.mem_put.1 (hput ▸ hx) with rfl | ⟨hx, -⟩
    · exact hfits.hash
    · exact hsha x hx

def janeEntity : UserEntity := ⟨7, "kc-jane", "jane@example.com", none, false, .millis 0, .millis 0⟩

theorem janeEntity_fits : janeEntity.Fits :=
  ⟨by decide, by decide, by simp [janeEntity], by simp [janeEntity], by simp [janeEntity]⟩

def janeSession (replacedBySessionId : Option Uuid) : SessionEntity :=
  ⟨3, 7, 0, .millis 100, none, replacedBySessionId, .millis 0, .millis 0⟩

theorem janeSession_fits (replacedBySessionId : Option Uuid) : (janeSession replacedBySessionId).Fits :=
  ⟨by simp [janeSession], by simp [janeSession], by simp [janeSession], by simp [janeSession], by simp [janeSession]⟩

/-- Two apps with one slug are no content; a session of Jane is one, unless what replaces it is missing. -/
theorem saves_in_schema_jane :
    ¬ InSchema { Database.empty with apps :=
      [⟨1, "gardenia", "Gardenia", .millis 1, .millis 1⟩, ⟨2, "gardenia", "Plants", .millis 2, .millis 2⟩] } [] ∧
    InSchema { Database.empty with users := [janeEntity] } [janeSession none] ∧
    ¬ InSchema { Database.empty with users := [janeEntity] } [janeSession (some 4)] := by
  have hnone : ∀ e ∈ ([] : List SessionEntity), e.refreshTokenHash < 16 ^ 64 := fun _ he => by cases he
  have hfits : ∀ id name (now : ℤ), name.length ≤ 150 →
      AppEntity.Fits ⟨id, "gardenia", name, .millis now, .millis now⟩ := by
    intro id name now hname
    have hslug : "gardenia".length ≤ 100 := by decide
    exact ⟨hslug, hname, by simp, by simp⟩
  have hfirst : InSchema { Database.empty with apps := [⟨1, "gardenia", "Gardenia", .millis 1, .millis 1⟩] } [] :=
    ((stored_empty.saveApp (hfits 1 "Gardenia" 1 (by decide))).1 rfl).2.inSchema
  have hjane : InSchema { Database.empty with users := [janeEntity] } [] :=
    ((stored_empty.saveUser janeEntity_fits).1 rfl).2.inSchema
  refine ⟨fun hsecond => ?_, ?_, fun hmissing => ?_⟩
  · have hsaved := ((saves_in_schema hnone hfirst).1 _ _ (hfits 2 "Plants" 2 (by decide))).2 ⟨rfl, hsecond⟩
    cases hsaved
  · exact (((saves_in_schema hnone hjane).2.2.2.2 _ _ (janeSession_fits none)).1 rfl).2
  · have hsaved := ((saves_in_schema hnone hjane).2.2.2.2 _ _ (janeSession_fits (some 4))).2 ⟨rfl, hmissing⟩
    cases hsaved

end

/-- **Commands keep the tables a content of the migrated schema**, where what they write fits the columns. -/
theorem commands_in_schema {k : Kit} {b b' : Database} {sessions : List SessionEntity}
    {cs : List (WriteCommand × Draws)} {es : List DomainEvent}
    (hsha : ∀ e ∈ sessions, e.refreshTokenHash < 16 ^ 64) (hb : InSchema b sessions)
    (hcs : ∀ x ∈ cs, x.1.Fits k x.2 ∧ Stamped x.2.now x.2.membershipNow)
    (h : b.executeAll k cs = some (b', es)) : InSchema b' sessions := by
  refine Stored.inSchema ?_
  replace hb := hb.stored hsha
  induction cs generalizing b es with
  | nil =>
    cases h
    exact hb
  | cons x cs ih =>
    obtain ⟨c, d⟩ := x
    obtain ⟨⟨hc, hd⟩, hcs⟩ := List.forall_mem_cons.1 hcs
    simp only [Database.executeAll, Option.bind_eq_bind, Option.bind_eq_some_iff] at h
    obtain ⟨⟨b₁, es₁⟩, hfirst, ⟨b₂, es₂⟩, hrest, hout⟩ := h
    cases hout
    exact ih hcs hrest (hb.written hc hd (execute_written hfirst))

theorem commands_in_schema_acme : ∃ b es,
    Database.empty.executeAll Kit.permissive acmeCommands = some (b, es) ∧ InSchema b [] := by
  obtain ⟨b, es, h⟩ : ∃ b es, Database.empty.executeAll Kit.permissive acmeCommands = some (b, es) := ⟨_, _, rfl⟩
  refine ⟨b, es, h, commands_in_schema (fun _ he => by cases he) stored_empty.inSchema ?_ h⟩
  have hjane : CreateUserCommand.build Kit.permissive ⟨"kc-jane", "jane@example.com", some "Jane"⟩ 11 (.millis 2) =
      some ⟨11, "kc-jane", "jane@example.com", some "Jane", false, .millis 2, .millis 2⟩ := by decide +kernel
  have hjohn : CreateUserCommand.build Kit.permissive ⟨"kc-john", "john@example.com", none⟩ 12 (.millis 3) =
      some ⟨12, "kc-john", "john@example.com", none, false, .millis 3, .millis 3⟩ := by decide +kernel
  simp only [acmeCommands, List.forall_mem_cons, List.not_mem_nil, false_implies, implies_true, and_true]
  refine ⟨⟨⟨by decide, by decide⟩, by simp, by simp⟩, ⟨fun u hu => ?_, by simp, by simp⟩,
    ⟨fun u hu => ?_, by simp, by simp⟩, ⟨trivial, by simp, by simp⟩, ⟨⟨by decide, by decide⟩, by simp, by simp⟩,
    ⟨⟨by decide, by simp⟩, by simp, by simp⟩, trivial, by simp, by simp⟩
  · obtain rfl := Option.some.inj (hjane.symm.trans hu)
    exact ⟨by decide, by decide, by decide, by simp, by simp⟩
  · obtain rfl := Option.some.inj (hjohn.symm.trans hu)
    exact ⟨by decide, by decide, by simp, by simp, by simp⟩

end AccountApi

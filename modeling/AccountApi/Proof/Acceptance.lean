import AccountApi.Proof.EventStream
import AccountApi.Proof.Identity

/-!
# When a command succeeds

The handlers check before they save, and the tables have constraints of their own. Commands executed one
after another keep the tables in order (`Integrity`), and there a save fails only where no check has
looked: at the external id of a new user, and at the user for whom a tenant is created.

* `integrity_written`: what a command writes keeps the constraints.
* `Accepts`: what a command needs, said of the rows.
* `commands_accepted`: **a command succeeds exactly when it has what it needs.**
-/

namespace AccountApi

variable {k : Kit} {b b' : Database} {d : Draws} {es : List DomainEvent}

/-- The constraints of the four tables. -/
structure Integrity (b : Database) : Prop where
  apps : Table.Unique (·.id) (fun x a => x.slug = a.slug) b.apps
  users : Table.Unique (·.id) (fun x u => x.externalId = u.externalId || x.email = u.email) b.users
  tenants : Table.Unique (·.id) (fun x t => x.appId = t.appId && x.slug = t.slug) b.tenancy.tenants
  memberships : Table.Unique (·.id) (fun x m => x.tenantId = m.tenantId && x.userId = m.userId)
    b.tenancy.memberships
  userIds : (b.users.map (·.id)).Nodup
  tenantIds : (b.tenancy.tenants.map (·.id)).Nodup
  membershipIds : (b.tenancy.memberships.map (·.id)).Nodup
  tenantApps : ∀ t ∈ b.tenancy.tenants, ∃ a ∈ b.apps, a.id = t.appId
  members : ∀ m ∈ b.tenancy.memberships,
    (∃ t ∈ b.tenancy.tenants, t.id = m.tenantId) ∧ ∃ u ∈ b.users, u.id = m.userId

theorem integrity_empty : Integrity Database.empty := by
  constructor <;> simp [Database.empty, Table.Unique]

theorem Integrity.saveApp (hI : Integrity b) {a : AppEntity} {apps : List AppEntity}
    (h : saveApp b.apps a = some apps) : Integrity { b with apps } where
  apps := Table.unique_upsert (fun x y => by simp [eq_comm]) hI.apps h
  users := hI.users
  tenants := hI.tenants
  memberships := hI.memberships
  userIds := hI.userIds
  tenantIds := hI.tenantIds
  membershipIds := hI.membershipIds
  tenantApps t ht := Table.exists_key_upsert h (hI.tenantApps t ht)
  members := hI.members

theorem Integrity.saveUser (hI : Integrity b) {u : UserEntity} {users : List UserEntity}
    (h : saveUser b.users u = some users) : Integrity { b with users } where
  apps := hI.apps
  users := Table.unique_upsert (fun x y => by simp [eq_comm]) hI.users h
  tenants := hI.tenants
  memberships := hI.memberships
  userIds := Table.nodup_upsert hI.userIds h
  tenantIds := hI.tenantIds
  membershipIds := hI.membershipIds
  tenantApps := hI.tenantApps
  members m hm := by
    obtain ⟨htenant, huser⟩ := hI.members m hm
    exact ⟨htenant, Table.exists_key_upsert h huser⟩

theorem Integrity.saveTenant (hI : Integrity b) {t : TenantEntity} {tenancy : TenancyDb}
    (h : b.tenancy.saveTenant b.world t = some tenancy) : Integrity { b with tenancy } := by
  obtain ⟨happ, hmemberships, hup⟩ := TenancyDb.saveTenant_some h
  constructor
  case apps => exact hI.apps
  case users => exact hI.users
  case userIds => exact hI.userIds
  case tenants => exact Table.unique_upsert (fun x y => by simp [eq_comm]) hI.tenants hup
  case tenantIds => exact Table.nodup_upsert hI.tenantIds hup
  case memberships => exact hmemberships ▸ hI.memberships
  case membershipIds => exact hmemberships ▸ hI.membershipIds
  case tenantApps =>
    intro x hx
    rcases Table.mem_upsert hup hx with rfl | ⟨hx, -⟩
    · simpa [Database.world] using happ
    · exact hI.tenantApps x hx
  case members =>
    intro m hm
    obtain ⟨htenant, huser⟩ := hI.members m (hmemberships ▸ hm)
    exact ⟨Table.exists_key_upsert hup htenant, huser⟩

/-- A membership that is saved is of a user. -/
theorem TenancyDb.saveMembership_user {w : TenancyWorld} {db db' : TenancyDb} {m : TenantMembershipEntity}
    (h : db.saveMembership w m = some db') : w.hasUser m.userId = true := by
  unfold saveMembership at h
  split at h
  case isFalse => cases h
  rename_i hrefs
  exact (Bool.and_eq_true _ _ ▸ hrefs).2

theorem Integrity.saveMembership (hI : Integrity b) {m : TenantMembershipEntity} {tenancy : TenancyDb}
    (h : b.tenancy.saveMembership b.world m = some tenancy) : Integrity { b with tenancy } := by
  obtain ⟨htenant, htenants, hup⟩ := TenancyDb.saveMembership_some h
  have huser := TenancyDb.saveMembership_user h
  constructor
  case apps => exact hI.apps
  case users => exact hI.users
  case userIds => exact hI.userIds
  case tenants => exact htenants ▸ hI.tenants
  case tenantIds => exact htenants ▸ hI.tenantIds
  case memberships => exact Table.unique_upsert (fun x y => by simp [eq_comm]) hI.memberships hup
  case membershipIds => exact Table.nodup_upsert hI.membershipIds hup
  case tenantApps => exact htenants ▸ hI.tenantApps
  case members =>
    intro x hx
    simp only [htenants]
    rcases Table.mem_upsert hup hx with rfl | ⟨hx, -⟩
    · obtain ⟨t, ht⟩ := Option.isSome_iff_exists.1 htenant
      obtain ⟨htm, htid⟩ := TenancyDb.findTenant_some ht
      exact ⟨⟨t, htm, htid⟩, by simpa [Database.world, TenancyWorld.hasUser] using huser⟩
    · exact hI.members x hx

/-- The statement cascades. -/
theorem deleteTenant_cascades (db : TenancyDb) (id : Uuid) :
    (db.deleteAllByTenantId id).deleteTenant id = db.deleteTenant id := by
  simp [TenancyDb.deleteTenant, TenancyDb.deleteAllByTenantId, List.filter_filter]

theorem Integrity.deleteAllByTenantId (hI : Integrity b) (id : Uuid) :
    Integrity { b with tenancy := b.tenancy.deleteAllByTenantId id } := by
  have hmembers : ∀ m ∈ (b.tenancy.deleteAllByTenantId id).memberships, m ∈ b.tenancy.memberships :=
    fun m hm => List.mem_of_mem_filter hm
  constructor
  case apps => exact hI.apps
  case users => exact hI.users
  case userIds => exact hI.userIds
  case tenants => exact hI.tenants
  case tenantIds => exact hI.tenantIds
  case memberships => exact fun x hx y hy => hI.memberships x (hmembers x hx) y (hmembers y hy)
  case membershipIds => exact hI.membershipIds.sublist (List.filter_sublist.map _)
  case tenantApps => exact hI.tenantApps
  case members => exact fun m hm => hI.members m (hmembers m hm)

theorem Integrity.deleteTenant (hI : Integrity b) (id : Uuid) :
    Integrity { b with tenancy := b.tenancy.deleteTenant id } := by
  have htenants : ∀ t ∈ b.tenancy.tenants.filter (fun t => t.id ≠ id), t ∈ b.tenancy.tenants :=
    fun t ht => (List.mem_filter.1 ht).1
  have hmembers : ∀ m ∈ (b.tenancy.deleteTenant id).memberships, m ∈ b.tenancy.memberships ∧ m.tenantId ≠ id := by
    intro m hm
    simp only [TenancyDb.deleteTenant, List.mem_filter, decide_eq_true_eq] at hm
    exact hm
  constructor
  case apps => exact hI.apps
  case users => exact hI.users
  case userIds => exact hI.userIds
  case tenants => exact fun x hx y hy => hI.tenants x (htenants x hx) y (htenants y hy)
  case tenantIds => exact hI.tenantIds.sublist (List.filter_sublist.map _)
  case memberships => exact fun x hx y hy => hI.memberships x (hmembers x hx).1 y (hmembers y hy).1
  case membershipIds => exact hI.membershipIds.sublist (List.filter_sublist.map _)
  case tenantApps => exact fun t ht => hI.tenantApps t (htenants t ht)
  case members =>
    intro m hm
    obtain ⟨hold, hne⟩ := hmembers m hm
    obtain ⟨⟨t, ht, hid⟩, huser⟩ := hI.members m hold
    exact ⟨⟨t, List.mem_filter.2 ⟨ht, by simpa [hid] using hne⟩, hid⟩, huser⟩

/-- **What a command writes keeps the constraints.** -/
theorem integrity_written {c : WriteCommand} (hI : Integrity b) (h : Written k b d c b' es) : Integrity b' := by
  cases h with
  | createApp c apps _ hsave => exact hI.saveApp hsave
  | createUser c u users _ _ hsave => exact hI.saveUser hsave
  | adminKept c u _ _ => exact hI
  | adminSet c u users _ _ hsave => exact hI.saveUser hsave
  | createTenant c db db' _ _ hsave hmember =>
    have htenant := hI.saveTenant hsave
    exact htenant.saveMembership (b := { b with tenancy := db }) hmember
  | updateTenant c t db _ _ hsave => exact hI.saveTenant hsave
  | addTenantMember c t u db _ _ _ hsave => exact hI.saveMembership hsave
  | deleteTenant c t ht _ =>
    rw [(TenancyDb.findTenant_some ht).2, deleteTenant_cascades]
    exact hI.deleteTenant c.tenantId

theorem integrity_executeAll {cs : List (WriteCommand × Draws)} (hI : Integrity b)
    (h : b.executeAll k cs = some (b', es)) : Integrity b' := by
  induction cs generalizing b es with
  | nil => cases h; exact hI
  | cons x cs ih =>
    obtain ⟨c, d⟩ := x
    simp only [Database.executeAll, Option.bind_eq_bind, Option.bind_eq_some_iff] at h
    obtain ⟨⟨b₁, es₁⟩, hc, ⟨b₂, es₂⟩, hcs, hout⟩ := h
    cases hout
    exact ih (integrity_written hI (execute_written hc)) hcs

/-- The ids a command generates are new where it inserts a row that has none yet. -/
structure Draws.Fresh (d : Draws) (b : Database) : Prop where
  user : ∀ u ∈ b.users, u.id ≠ d.id
  tenant : ∀ t ∈ b.tenancy.tenants, t.id ≠ d.id

/-- What a command needs. -/
def Accepts (k : Kit) (b : Database) (d : Draws) : WriteCommand → Prop
  | .createApp c => ∀ a ∈ b.apps, a.slug ≠ c.slug
  | .createUser c => (∀ x ∈ b.users, x.email ≠ c.email) ∧
      ∃ u, c.build k d.id d.now = some u ∧ ∀ x ∈ b.users, x.externalId ≠ u.externalId ∧ x.email ≠ u.email
  | .setUserPlatformAdmin c => ∃ u ∈ b.users, u.id = c.userId
  | .createTenant c => (∃ a ∈ b.apps, a.id = c.appId) ∧
      (∀ t ∈ b.tenancy.tenants, t.appId = c.appId → t.slug ≠ c.slug) ∧ ∃ u ∈ b.users, u.id = c.creatorUserId
  | .updateTenant c => ∃ t ∈ b.tenancy.tenants, t.id = c.tenantId ∧
      ∀ slug, c.slug = some slug → ∀ x ∈ b.tenancy.tenants, x.id ≠ t.id → x.appId = t.appId → x.slug ≠ slug
  | .addTenantMember c => (∃ t ∈ b.tenancy.tenants, t.id = c.tenantId) ∧ ∃ u ∈ b.users, u.email = c.email ∧
      ∀ m ∈ b.tenancy.memberships, m.tenantId = c.tenantId → m.userId ≠ u.id
  | .deleteTenant c => ∃ t ∈ b.tenancy.tenants, t.id = c.tenantId ∧
      ∃ m ∈ b.tenancy.memberships, m.tenantId = c.tenantId ∧ m.userId = c.requesterUserId ∧ m.role = .owner

theorem guard_of {p : Prop} [Decidable p] (hp : p) : (guard p : Option Unit) = some () := if_pos hp

/-- A save without a clash succeeds. -/
theorem upsert_free {ρ : Type} (key : ρ → Uuid) (clash : ρ → ρ → Bool) {rows : List ρ} {r : ρ}
    (h : ∀ x ∈ rows, key x ≠ key r → clash x r = false) : ∃ out, Table.upsert key clash rows r = some out := by
  refine Option.ne_none_iff_exists'.1 fun hnone => ?_
  obtain ⟨x, hx, hne, hclash⟩ := Table.upsert_none.1 hnone
  rw [h x hx hne] at hclash
  cases hclash

theorem saveTenant_free {w : TenancyWorld} {db : TenancyDb} {t : TenantEntity}
    (happ : w.apps.contains t.appId = true)
    (h : ∀ x ∈ db.tenants, x.id ≠ t.id → x.appId = t.appId → x.slug ≠ t.slug) :
    ∃ db', db.saveTenant w t = some db' := by
  obtain ⟨tenants, hup⟩ := upsert_free TenantEntity.id (r := t)
    (fun x t : TenantEntity => x.appId = t.appId && x.slug = t.slug)
    fun x hx hne => by simpa using h x hx hne
  exact ⟨_, by rw [TenancyDb.saveTenant, if_pos happ, hup]; rfl⟩

theorem saveMembership_free {w : TenancyWorld} {db : TenancyDb} {m : TenantMembershipEntity}
    (htenant : (db.findTenant m.tenantId).isSome = true) (huser : w.hasUser m.userId = true)
    (h : ∀ x ∈ db.memberships, x.tenantId = m.tenantId → x.userId ≠ m.userId) :
    ∃ db', db.saveMembership w m = some db' := by
  obtain ⟨memberships, hup⟩ := upsert_free TenantMembershipEntity.id (r := m)
    (fun x m : TenantMembershipEntity => x.tenantId = m.tenantId && x.userId = m.userId)
    fun x hx _ => by simpa using h x hx
  exact ⟨_, by rw [TenancyDb.saveMembership, htenant, huser, if_pos (by rfl), hup]; rfl⟩

/-- Emails are unique, so that every user with the email has the id that is found. -/
theorem Integrity.findUser (hI : Integrity b) {email : String} {userId : Uuid} :
    b.world.findUserIdByEmail email = some userId ↔ ∃ u ∈ b.users, u.email = email ∧ u.id = userId := by
  have hfind : b.world.findUserIdByEmail email = (b.users.find? fun u => u.email = email).map (·.id) := by
    simp only [TenancyWorld.findUserIdByEmail, Database.world, List.find?_map, Option.map_map]
    rfl
  rw [hfind]
  constructor
  · intro h
    obtain ⟨u, hu, rfl⟩ := Option.map_eq_some_iff.1 h
    exact ⟨u, List.mem_of_find?_eq_some hu, by simpa using List.find?_some hu, rfl⟩
  · rintro ⟨u, hu, rfl, rfl⟩
    cases hf : b.users.find? (fun x => x.email = u.email) with
    | none => simpa using List.find?_eq_none.1 hf u hu
    | some x =>
      have hx : x.email = u.email := by simpa using List.find?_some hf
      have hid : x.id = u.id := by
        by_contra hne
        have hclash := hI.users x (List.mem_of_find?_eq_some hf) u hu hne
        simp [hx] at hclash
      rw [Option.map_some, hid]

theorem hasUser_iff {userId : Uuid} : b.world.hasUser userId = true ↔ ∃ u ∈ b.users, u.id = userId := by
  simp [Database.world, TenancyWorld.hasUser]

theorem Integrity.findTenant (hI : Integrity b) {t : TenantEntity} {id : Uuid} :
    b.tenancy.findTenant id = some t ↔ t ∈ b.tenancy.tenants ∧ t.id = id := by
  constructor
  · exact TenancyDb.findTenant_some
  · rintro ⟨ht, rfl⟩
    exact Table.find_key_of_mem hI.tenantIds ht

/-- A user is a member of a tenant with one role. -/
theorem Integrity.findMembership (hI : Integrity b) {m : TenantMembershipEntity} {tenantId userId : Uuid} :
    b.tenancy.findByTenantIdAndUserId tenantId userId = some m ↔
      m ∈ b.tenancy.memberships ∧ m.tenantId = tenantId ∧ m.userId = userId := by
  constructor
  · intro h
    have hkey := List.find?_some h
    simp only [Bool.and_eq_true, decide_eq_true_eq] at hkey
    exact ⟨List.mem_of_find?_eq_some h, hkey⟩
  · rintro ⟨hm, rfl, rfl⟩
    cases hf : b.tenancy.findByTenantIdAndUserId m.tenantId m.userId with
    | none => simpa using List.find?_eq_none.1 hf m hm
    | some x =>
      have hx := List.mem_of_find?_eq_some hf
      have hkey := List.find?_some hf
      have hid : x.id = m.id := by
        by_contra hne
        have hclash : (x.tenantId = m.tenantId && x.userId = m.userId) = false := hI.memberships x hx m hm hne
        rw [hclash] at hkey
        cases hkey
      rw [List.inj_on_of_nodup_map hI.membershipIds hx hm hid]

theorem accepts_of_written {c : WriteCommand} (hI : Integrity b) (hd : d.Fresh b)
    (h : Written k b d c b' es) : Accepts k b d c := by
  cases h with
  | createApp c apps hfree _ =>
    intro a ha
    simpa using List.find?_eq_none.1 hfree a ha
  | createUser c u users hfree hbuild hsave =>
    refine ⟨fun x hx => by simpa using List.find?_eq_none.1 hfree x hx, u, hbuild, fun x hx => ?_⟩
    have hid : x.id ≠ u.id := by
      rw [CreateUserCommand.build_id hbuild]
      exact hd.user x hx
    have hclash := (Table.upsert_some hsave).1 x hx hid
    simpa using hclash
  | adminKept c u hu _ | adminSet c u _ hu _ _ =>
    obtain ⟨hmem, hid⟩ := Table.find_key_some hu
    exact ⟨u, hmem, hid⟩
  | createTenant c db db' happ hfree hsave hmember =>
    refine ⟨by simpa [Database.world] using happ, fun t ht happ => ?_, ?_⟩
    · simpa [happ] using List.find?_eq_none.1 hfree t ht
    · simpa [Database.world, TenancyWorld.hasUser] using TenancyDb.saveMembership_user hmember
  | updateTenant c t db ht hslug hsave =>
    obtain ⟨hmem, hid⟩ := TenancyDb.findTenant_some ht
    refine ⟨t, hmem, hid, ?_⟩
    intro slug hc x hx hne happ hsame
    rw [hc] at hslug
    simp only [Option.all_some, Bool.or_eq_true, decide_eq_true_eq, Option.isNone_iff_eq_none] at hslug
    rcases hslug with rfl | hnone
    · have := hI.tenants x hx t hmem hne
      simp [happ, hsame] at this
    · simpa [happ, hsame] using List.find?_eq_none.1 hnone x hx
  | addTenantMember c t u db ht hu hfree _ =>
    obtain ⟨hmem, hid⟩ := TenancyDb.findTenant_some ht
    obtain ⟨x, hx, hemail, rfl⟩ := hI.findUser.1 hu
    refine ⟨⟨t, hmem, hid⟩, x, hx, hemail, fun m hm htenant huser => ?_⟩
    simpa [htenant, huser] using List.find?_eq_none.1 hfree m hm
  | deleteTenant c t ht howner =>
    obtain ⟨hmem, hid⟩ := TenancyDb.findTenant_some ht
    obtain ⟨m, hm, hrole⟩ := (Option.any_eq_true _ _).1 howner
    obtain ⟨hmm, htenant, huser⟩ := hI.findMembership.1 hm
    exact ⟨t, hmem, hid, m, hmm, htenant, huser, by simpa using hrole⟩

/-- **A command that has what it needs succeeds.** -/
theorem execute_of_accepts {c : WriteCommand} (hI : Integrity b) (hd : d.Fresh b) (h : Accepts k b d c) :
    (b.execute k d c).isSome = true := by
  cases c with
  | createApp c =>
    have hfree : appBySlug b.apps c.slug = none := List.find?_eq_none.2 fun a ha => by simpa using h a ha
    obtain ⟨apps, hsave⟩ : ∃ apps, saveApp b.apps (c.app d.id d.now).primitives = some apps :=
      upsert_free _ _ fun x hx _ => decide_eq_false (h x hx)
    simp only [Database.execute, Database.createApp, hfree, hsave, guard_of, Option.bind_eq_bind, Option.bind_some,
      Option.isNone_none]
    rfl
  | createUser c =>
    obtain ⟨hemail, u, hbuild, hother⟩ := h
    have hfree : userByEmail b.users c.email = none := List.find?_eq_none.2 fun x hx => by simpa using hemail x hx
    obtain ⟨users, hsave⟩ : ∃ users, saveUser b.users u.toAggregate.create.primitives = some users :=
      upsert_free _ _ fun x hx _ =>
        Bool.or_eq_false_iff.2 ⟨decide_eq_false (hother x hx).1, decide_eq_false (hother x hx).2⟩
    simp only [Database.execute, Database.createUser, hfree, hbuild, hsave, guard_of, Option.bind_eq_bind,
      Option.bind_some, Option.isNone_none]
    rfl
  | setUserPlatformAdmin c =>
    obtain ⟨x, hx, hxid⟩ := h
    obtain ⟨u, hu⟩ : ∃ u, userById b.users c.userId = some u :=
      Option.ne_none_iff_exists'.1 fun hnone => by simpa [hxid] using List.find?_eq_none.1 hnone x hx
    have hmem := (Table.find_key_some hu).1
    by_cases hsame : u.platformAdmin = c.platformAdmin
    · simp [Database.execute, Database.setUserPlatformAdmin, hu, hsame]
    · -- the row keeps its email and its external id
      obtain ⟨users, hsave⟩ : ∃ users, saveUser b.users
          (u.toAggregate.update ⟨none, none, some c.platformAdmin⟩ d.now).primitives = some users := by
        rw [UserAggregate.update_platformAdmin u hsame]
        exact upsert_free _ _ fun x hx hne => hI.users x hx u hmem hne
      simp [Database.execute, Database.setUserPlatformAdmin, hu, hsame, hsave]
  | createTenant c =>
    obtain ⟨⟨a, ha, happ⟩, hslug, u, hu, huser⟩ := h
    have hcontains : b.world.apps.contains c.appId = true := by
      simp only [Database.world, List.contains_iff_mem, List.mem_map]
      exact ⟨a, ha, happ⟩
    have hfree : b.tenancy.findByAppIdAndSlug c.appId c.slug = none :=
      List.find?_eq_none.2 fun t ht => by simpa using hslug t ht
    obtain ⟨db, hsave⟩ : ∃ db, b.tenancy.saveTenant b.world (c.tenant d.id d.now).primitives = some db :=
      saveTenant_free hcontains fun x hx _ => hslug x hx
    -- the tenant is new, so that nobody is its member
    have hfound : (db.findTenant d.id).isSome = true := by
      rw [TenancyDb.findTenant_saveTenant hsave, CreateTenantCommand.tenant_primitives, if_pos rfl]
      rfl
    obtain ⟨db', hmember⟩ : ∃ db', db.saveMembership b.world (TenantMembershipAggregate.new d.membershipId
        (c.tenant d.id d.now).primitives.id c.creatorUserId .owner d.membershipNow).primitives = some db' := by
      refine saveMembership_free hfound (hasUser_iff.2 ⟨u, hu, huser⟩) fun x hx htenant => ?_
      rw [(TenancyDb.saveTenant_some hsave).2.1] at hx
      obtain ⟨⟨t, ht, hid⟩, -⟩ := hI.members x hx
      exact absurd (hid.trans htenant) (hd.tenant t ht)
    simp only [Database.execute, Database.createTenant, hcontains, hfree, hsave, hmember, guard_of,
      Option.bind_eq_bind, Option.bind_some, Option.isNone_none]
    rfl
  | updateTenant c =>
    obtain ⟨t, ht, hid, hslug⟩ := h
    have hfound := hI.findTenant.2 ⟨ht, hid⟩
    obtain ⟨a, ha, happ⟩ := hI.tenantApps t ht
    have hcontains : b.world.apps.contains t.appId = true := by
      simp only [Database.world, List.contains_iff_mem, List.mem_map]
      exact ⟨a, ha, happ⟩
    have hguard : (c.slug.all fun slug =>
        slug = t.slug || (b.tenancy.findByAppIdAndSlug t.appId slug).isNone) = true := by
      cases hc : c.slug with
      | none => rfl
      | some slug =>
        simp only [Option.all_some, Bool.or_eq_true, decide_eq_true_eq, Option.isNone_iff_eq_none]
        by_cases hsame : slug = t.slug
        · exact Or.inl hsame
        · refine Or.inr (List.find?_eq_none.2 fun x hx hx' => ?_)
          simp only [Bool.and_eq_true, decide_eq_true_eq] at hx'
          by_cases hxt : x.id = t.id
          · rw [List.inj_on_of_nodup_map hI.tenantIds hx ht hxt] at hx'
            exact hsame hx'.2.symm
          · exact hslug slug hc x hx hxt hx'.1 hx'.2
    obtain ⟨db, hsave⟩ : ∃ db, b.tenancy.saveTenant b.world
        (t.toAggregate.update c.name c.slug d.now).primitives = some db := by
      rw [TenantAggregate.update_primitives]
      refine saveTenant_free hcontains fun x hx hne happ hsame => ?_
      cases hc : c.slug with
      | none =>
        have hclash := hI.tenants x hx t ht hne
        simp only [hc, Option.getD_none, TenantEntity.toAggregate_primitives] at happ hsame
        simp [happ, hsame] at hclash
      | some slug =>
        rw [hc] at hsame
        exact hslug slug hc x hx hne happ hsame
    simp [Database.execute, Database.updateTenant, hfound, hguard, hsave, guard_of]
  | addTenantMember c =>
    obtain ⟨⟨t, ht, hid⟩, u, hu, hemail, hfree⟩ := h
    have hfound := hI.findTenant.2 ⟨ht, hid⟩
    have hlookup := hI.findUser.2 ⟨u, hu, hemail, rfl⟩
    have hnone : b.tenancy.findByTenantIdAndUserId c.tenantId u.id = none :=
      List.find?_eq_none.2 fun m hm => by simpa using hfree m hm
    obtain ⟨db, hsave⟩ : ∃ db, b.tenancy.saveMembership b.world
        (TenantMembershipAggregate.new d.membershipId c.tenantId u.id c.role d.now).primitives = some db :=
      saveMembership_free (Option.isSome_iff_exists.2 ⟨t, hfound⟩) (hasUser_iff.2 ⟨u, hu, rfl⟩) hfree
    simp only [Database.execute, Database.addTenantMember, hfound, hlookup, hnone, hsave, guard_of,
      Option.bind_eq_bind, Option.bind_some, Option.isNone_none]
    rfl
  | deleteTenant c =>
    obtain ⟨t, ht, hid, m, hm, htenant, huser, hrole⟩ := h
    have hfound := hI.findTenant.2 ⟨ht, hid⟩
    have howner := hI.findMembership.2 ⟨hm, htenant, huser⟩
    simp [Database.execute, Database.deleteTenant, hfound, howner, hrole, guard_of]

/-- **A command succeeds exactly when it has what it needs**, in every state that commands executed one
after another reach, whose constraints hold: no save of a handler that got past its checks is refused by
the database, but for the external id of a new user and the user for whom a tenant is created. -/
theorem commands_accepted (k : Kit) {cs : List (WriteCommand × Draws)} {b : Database} {es : List DomainEvent}
    (h : Database.empty.executeAll k cs = some (b, es)) :
    Integrity b ∧ ∀ c d, d.Fresh b → ((b.execute k d c).isSome = true ↔ Accepts k b d c) := by
  have hI := integrity_executeAll integrity_empty h
  refine ⟨hI, fun c d hd => ⟨fun hsome => ?_, execute_of_accepts hI hd⟩⟩
  obtain ⟨⟨b', es'⟩, hexec⟩ := Option.isSome_iff_exists.1 hsome
  exact accepts_of_written hI hd (execute_written hexec)

/-- John can be made a member of Jane's tenant only once. -/
theorem commands_accepted_acme : ∃ b es, Database.empty.executeAll Kit.permissive acmeCommands = some (b, es) ∧
    ¬ Accepts Kit.permissive b ⟨20, 120, .millis 9, .millis 9⟩ (.addTenantMember ⟨7, "john@example.com", .member⟩) := by
  obtain ⟨b, es, h, hnone, hfresh⟩ : ∃ b es,
      Database.empty.executeAll Kit.permissive acmeCommands = some (b, es) ∧
      b.execute Kit.permissive ⟨20, 120, .millis 9, .millis 9⟩
        (.addTenantMember ⟨7, "john@example.com", .member⟩) = none ∧
      (∀ u ∈ b.users, u.id ≠ 20) ∧ ∀ t ∈ b.tenancy.tenants, t.id ≠ 20 :=
    ⟨_, _, rfl, by decide +kernel, by decide, by decide⟩
  refine ⟨b, es, h, fun hacc => ?_⟩
  have hsome := ((commands_accepted Kit.permissive h).2 _ _ ⟨hfresh.1, hfresh.2⟩).2 hacc
  rw [hnone] at hsome
  cases hsome

end AccountApi

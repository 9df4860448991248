import AccountApi.Spec.Builders
import AccountApi.Spec.Database
import AccountApi.Spec.Migrations
import AccountApi.Spec.Rotation

/-!
# The rows of the entities

What TypeORM writes for the five entities, as the decorators of their columns say, and what a record
must be like for the columns of the schema to take it.

* `Database.rows`: the content of the five tables.
* `TableStatement`: what the handlers do with them.
* `migratedSchema`: the tables after all migrations.
-/

namespace AccountApi

open Sql

/-- An invalid date is sent as a text that is no timestamp. -/
def Date.column : Date → Value
  | .millis ms => .timestamp ms
  | .invalid => .text "Invalid Date"

/-- A column that is nullable in the entity. -/
def nullable {α : Type} (column : α → Value) (x : Option α) : Value := x.elim .null column

def AppEntity.row (a : AppEntity) : Row :=
  Sql.row [("id", .uuid a.id), ("slug", .text a.slug), ("name", .text a.name),
    ("created_at", a.createdAt.column), ("updated_at", a.updatedAt.column)]

def UserEntity.row (u : UserEntity) : Row :=
  Sql.row [("id", .uuid u.id), ("external_id", .text u.externalId), ("email", .text u.email),
    ("display_name", nullable .text u.displayName), ("platform_admin", .bool u.platformAdmin),
    ("created_at", u.createdAt.column), ("updated_at", u.updatedAt.column)]

def TenantEntity.row (t : TenantEntity) : Row :=
  Sql.row [("id", .uuid t.id), ("app_id", .uuid t.appId), ("name", .text t.name), ("slug", .text t.slug),
    ("created_at", t.createdAt.column), ("updated_at", t.updatedAt.column)]

def TenantMembershipEntity.row (m : TenantMembershipEntity) : Row :=
  Sql.row [("id", .uuid m.id), ("tenant_id", .uuid m.tenantId), ("user_id", .uuid m.userId),
    ("role", .text m.role.value), ("created_at", m.createdAt.column), ("updated_at", m.updatedAt.column)]

/-- The last `n` digits of a number in base 16. -/
def hexDigits : ℕ → ℕ → List Char
  | 0, _ => []
  | n + 1, h => hexDigits n (h / 16) ++ [(h % 16).digitChar]

/-- `digest('hex')` of a SHA-256 hash. -/
def TokenHash.hex (h : TokenHash) : String := String.ofList (hexDigits 64 h)

def SessionEntity.row (e : SessionEntity) : Row :=
  Sql.row [("id", .uuid e.id), ("user_id", .uuid e.userId),
    ("refresh_token_hash", .text (TokenHash.hex e.refreshTokenHash)),
    ("refresh_token_expires_at", e.refreshTokenExpiresAt.column), ("revoked_at", nullable Date.column e.revokedAt),
    ("replaced_by_session_id", nullable .uuid e.replacedBySessionId),
    ("created_at", e.createdAt.column), ("updated_at", e.updatedAt.column)]

/-- The content of the tables. -/
def Database.rows (b : Database) (sessions : List SessionEntity) : String → List Row
  | "app" => b.apps.map (·.row)
  | "user" => b.users.map (·.row)
  | "tenant" => b.tenancy.tenants.map (·.row)
  | "tenant_membership" => b.tenancy.memberships.map (·.row)
  | "session" => sessions.map (·.row)
  | _ => []

/-- The columns that every entity has. -/
structure Stamped (createdAt updatedAt : Date) : Prop where
  created : createdAt ≠ .invalid
  updated : updatedAt ≠ .invalid

structure AppEntity.Fits (a : AppEntity) : Prop where
  slug : a.slug.length ≤ 100
  name : a.name.length ≤ 150
  stamped : Stamped a.createdAt a.updatedAt

structure UserEntity.Fits (u : UserEntity) : Prop where
  externalId : u.externalId.length ≤ 255
  email : u.email.length ≤ 320
  displayName : ∀ name, u.displayName = some name → name.length ≤ 120
  stamped : Stamped u.createdAt u.updatedAt

structure TenantEntity.Fits (t : TenantEntity) : Prop where
  name : t.name.length ≤ 150
  slug : t.slug.length ≤ 100
  stamped : Stamped t.createdAt t.updatedAt

def TenantMembershipEntity.Fits (m : TenantMembershipEntity) : Prop := Stamped m.createdAt m.updatedAt

structure SessionEntity.Fits (e : SessionEntity) : Prop where
  hash : e.refreshTokenHash < 16 ^ 64
  expires : e.refreshTokenExpiresAt ≠ .invalid
  revoked : e.revokedAt ≠ some .invalid
  stamped : Stamped e.createdAt e.updatedAt

structure Database.Fits (b : Database) : Prop where
  apps : ∀ a ∈ b.apps, a.Fits
  users : ∀ u ∈ b.users, u.Fits
  tenants : ∀ t ∈ b.tenancy.tenants, t.Fits
  memberships : ∀ m ∈ b.tenancy.memberships, m.Fits

/-- The values that a command writes fit the columns. -/
def WriteCommand.Fits (k : Kit) (d : Draws) : WriteCommand → Prop
  | createApp c => c.name.length ≤ 150 ∧ c.slug.length ≤ 100
  | createUser c => ∀ u, c.build k d.id d.now = some u → u.Fits
  | createTenant c => c.name.length ≤ 150 ∧ c.slug.length ≤ 100
  | updateTenant c =>
    (∀ name, c.name = some name → name.length ≤ 150) ∧ ∀ slug, c.slug = some slug → slug.length ≤ 100
  | setUserPlatformAdmin _ | addTenantMember _ | deleteTenant _ => True

/-! ## The statements of the repositories -/

/-- The save of a session. Its user has to be there, and the session that replaces it, which may be itself. -/
def Database.saveSession (b : Database) (sessions : List SessionEntity) (e : SessionEntity) :
    Option (List SessionEntity) :=
  if b.world.hasUser e.userId &&
      e.replacedBySessionId.all (fun id => id = e.id || sessions.any fun x => x.id = id) then
    AccountApi.saveSession sessions e
  else none

/-- The user of the session that a step inserts. -/
def System.insertedUser {ι : Type} (S : System ι) (s : State ι) (a : ι × Event) : Option Uuid :=
  match S.requests a.1, a.2, s.phase a.1 with
  | .login l, .saveSession _, _ => some l.userId
  | .refresh _, .insertSuccessor, .rotating result => some result.created.userId
  | _, _, _ => none

/-- The time that a step reads from the clock. -/
def Event.time : Event → Option Date
  | callback now | startRevokeAll now | saveSession now => some now
  | _ => none

/-- What a handler or a request does with the tables next. -/
inductive TableStatement (ι : Type) where
  | saveApp (a : AppEntity)
  | saveUser (u : UserEntity)
  | saveTenant (t : TenantEntity)
  | saveMembership (m : TenantMembershipEntity)
  | deleteAllByTenantId (id : Uuid)
  | deleteTenant (id : Uuid)
  | session (a : ι × Event)

namespace TableStatement

variable {ι : Type}

def Fits : TableStatement ι → Prop
  | saveApp a => a.Fits
  | saveUser u => u.Fits
  | saveTenant t => t.Fits
  | saveMembership m => m.Fits
  | deleteAllByTenantId _ | deleteTenant _ => True
  | session a => a.2.time ≠ some .invalid

/-- `none` when the database refuses the statement, which changes nothing then. -/
def step [Fintype ι] [DecidableEq ι] (S : System ι) :
    Database × State ι → TableStatement ι → Option (Database × State ι)
  | (b, s), saveApp a => (AccountApi.saveApp b.apps a).map fun apps => ({ b with apps }, s)
  | (b, s), saveUser u => (AccountApi.saveUser b.users u).map fun users => ({ b with users }, s)
  | (b, s), saveTenant t => (b.tenancy.saveTenant b.world t).map fun tenancy => ({ b with tenancy }, s)
  | (b, s), saveMembership m => (b.tenancy.saveMembership b.world m).map fun tenancy => ({ b with tenancy }, s)
  | (b, s), deleteAllByTenantId id => some ({ b with tenancy := b.tenancy.deleteAllByTenantId id }, s)
  | (b, s), deleteTenant id => some ({ b with tenancy := b.tenancy.deleteTenant id }, s)
  | (b, s), session a =>
    -- the foreign key of the user
    if (S.insertedUser s a).all b.world.hasUser then (S.step s a).map fun t => (b, t) else none

end TableStatement

/-! ## The schema after all migrations -/

def appTable : TableSchema where
  name := "app"
  columns := {
    ⟨"id", .uuid, true, some .genRandomUuid⟩,
    ⟨"slug", .varchar 100, true, none⟩,
    ⟨"name", .varchar 150, true, none⟩,
    ⟨"created_at", .timestamp, true, some .now⟩,
    ⟨"updated_at", .timestamp, true, some .now⟩ }
  constraints := {
    ⟨"PK_app_id", ["id"], .primaryKey⟩,
    ⟨"UQ_app_slug", ["slug"], .unique⟩ }
  indexes := ∅

def userTable : TableSchema where
  name := "user"
  columns := {
    ⟨"id", .uuid, true, some .genRandomUuid⟩,
    ⟨"external_id", .varchar 255, true, none⟩,
    ⟨"email", .varchar 320, true, none⟩,
    ⟨"display_name", .varchar 120, false, none⟩,
    ⟨"platform_admin", .boolean, true, some (.value (.bool false))⟩,
    ⟨"created_at", .timestamp, true, some .now⟩,
    ⟨"updated_at", .timestamp, true, some .now⟩ }
  constraints := {
    ⟨"PK_user_id", ["id"], .primaryKey⟩,
    ⟨"UQ_user_external_id", ["external_id"], .unique⟩,
    ⟨"UQ_user_email", ["email"], .unique⟩ }
  indexes := ∅

def tenantTable : TableSchema where
  name := "tenant"
  columns := {
    ⟨"id", .uuid, true, some .genRandomUuid⟩,
    ⟨"app_id", .uuid, true, none⟩,
    ⟨"name", .varchar 150, true, none⟩,
    ⟨"slug", .varchar 100, true, none⟩,
    ⟨"created_at", .timestamp, true, some .now⟩,
    ⟨"updated_at", .timestamp, true, some .now⟩ }
  constraints := {
    ⟨"PK_tenant_id", ["id"], .primaryKey⟩,
    ⟨"UQ_tenant_app_id_slug", ["app_id", "slug"], .unique⟩,
    ⟨"FK_tenant_app_id", ["app_id"], .foreignKey "app" ["id"] .cascade⟩ }
  indexes := { ⟨"IDX_tenant_app_id", ["app_id"]⟩ }

def membershipTable : TableSchema where
  name := "tenant_membership"
  columns := {
    ⟨"id", .uuid, true, some .genRandomUuid⟩,
    ⟨"tenant_id", .uuid, true, none⟩,
    ⟨"user_id", .uuid, true, none⟩,
    ⟨"role", .varchar 50, true, none⟩,
    ⟨"created_at", .timestamp, true, some .now⟩,
    ⟨"updated_at", .timestamp, true, some .now⟩ }
  constraints := {
    ⟨"PK_tenant_membership_id", ["id"], .primaryKey⟩,
    ⟨"UQ_tenant_membership_tenant_id_user_id", ["tenant_id", "user_id"], .unique⟩,
    ⟨"FK_tenant_membership_tenant_id", ["tenant_id"], .foreignKey "tenant" ["id"] .cascade⟩,
    ⟨"FK_tenant_membership_user_id", ["user_id"], .foreignKey "user" ["id"] .cascade⟩ }
  indexes := {
    ⟨"IDX_tenant_membership_tenant_id", ["tenant_id"]⟩,
    ⟨"IDX_tenant_membership_user_id", ["user_id"]⟩ }

def sessionTable : TableSchema where
  name := "session"
  columns := {
    ⟨"id", .uuid, true, some .genRandomUuid⟩,
    ⟨"user_id", .uuid, true, none⟩,
    ⟨"refresh_token_hash", .varchar 255, true, none⟩,
    ⟨"refresh_token_expires_at", .timestamp, true, none⟩,
    ⟨"created_at", .timestamp, true, some .now⟩,
    ⟨"updated_at", .timestamp, true, some .now⟩,
    ⟨"revoked_at", .timestamp, false, none⟩,
    ⟨"replaced_by_session_id", .uuid, false, none⟩ }
  constraints := {
    ⟨"PK_session_id", ["id"], .primaryKey⟩,
    ⟨"UQ_session_refresh_token_hash", ["refresh_token_hash"], .unique⟩,
    ⟨"FK_session_user_id", ["user_id"], .foreignKey "user" ["id"] .cascade⟩,
    ⟨"FK_session_replaced_by_session_id", ["replaced_by_session_id"], .foreignKey "session" ["id"] .setNull⟩ }
  indexes := { ⟨"IDX_session_user_id", ["user_id"]⟩ }

def migratedSchema : Schema := [appTable, userTable, tenantTable, membershipTable, sessionTable]

/-- The tables are what all migrations have left, with the rows of the entities. -/
def InSchema (b : Database) (sessions : List SessionEntity) : Prop :=
  AtLevel 3 ⟨migratedSchema, b.rows sessions⟩

end AccountApi

import AccountApi.Lib.SqlRecords

/-!
# The migrations

The three migrations of the schema, statement by statement, in the order in which TypeORM
runs them. An `ALTER TABLE` with several actions is one statement for each, in the order
written: first what it drops, then the columns and then the constraints that it adds, which
is the order PostgreSQL performs them in.

* `AtLevel n db`: the database is one that the first `n` migrations may have left, with any
  rows that its schema allows.
* `Migrated`: statements that succeed, and keep what they are to keep.
-/

namespace AccountApi

open Transition Sql

structure Migration where
  up : List Statement
  down : List Statement

/-- `CreateIdentityAndTenancy1788165600000`. -/
def createIdentityAndTenancy : Migration where
  up := [
    .createTable {
      name := "app"
      columns := {
        ⟨"id", .uuid, true, some .genRandomUuid⟩,
        ⟨"slug", .varchar 100, true, none⟩,
        ⟨"name", .varchar 150, true, none⟩,
        ⟨"created_at", .timestamp, true, some .now⟩,
        ⟨"updated_at", .timestamp, true, some .now⟩ }
      constraints := {
        ⟨"PK_app_id", ["id"], .primaryKey⟩,
        ⟨"UQ_app_slug", ["slug"], .unique⟩ }
      indexes := ∅ },
    .createTable {
      name := "user"
      columns := {
        ⟨"id", .uuid, true, some .genRandomUuid⟩,
        ⟨"external_id", .varchar 255, true, none⟩,
        ⟨"email", .varchar 320, true, none⟩,
        ⟨"display_name", .varchar 120, false, none⟩,
        ⟨"platform_admin", .boolean, true, some (.value (.bool false))⟩,
        ⟨"refresh_token_hash", .varchar 255, false, none⟩,
        ⟨"refresh_token_expires_at", .timestamp, false, none⟩,
        ⟨"created_at", .timestamp, true, some .now⟩,
        ⟨"updated_at", .timestamp, true, some .now⟩ }
      constraints := {
        ⟨"PK_user_id", ["id"], .primaryKey⟩,
        ⟨"UQ_user_external_id", ["external_id"], .unique⟩,
        ⟨"UQ_user_email", ["email"], .unique⟩,
        ⟨"UQ_user_refresh_token_hash", ["refresh_token_hash"], .unique⟩ }
      indexes := ∅ },
    .createTable {
      name := "tenant"
      columns := {
        ⟨"id", .uuid, true, some .genRandomUuid⟩,
        ⟨"app_id", .uuid, true, none⟩,
        ⟨"name", .varchar 150, true, none⟩,
        ⟨"slug", .varchar 100, true, none⟩,
        ⟨"created_at", .timestamp, true, some .now⟩,
        ⟨"updated_at", .timestamp, true, some .now⟩ }
      constraints := {
        ⟨"PK_tenant_id", ["id"], .primaryKey⟩,
        ⟨"UQ_tenant_app_id_slug", ["app_id", "slug"], .unique⟩,
        ⟨"FK_tenant_app_id", ["app_id"], .foreignKey "app" ["id"] .cascade⟩ }
      indexes := ∅ },
    .createIndex "tenant" ⟨"IDX_tenant_app_id", ["app_id"]⟩,
    .createTable {
      name := "tenant_membership"
      columns := {
        ⟨"id", .uuid, true, some .genRandomUuid⟩,
        ⟨"tenant_id", .uuid, true, none⟩,
        ⟨"user_id", .uuid, true, none⟩,
        ⟨"role", .varchar 50, true, none⟩,
        ⟨"created_at", .timestamp, true, some .now⟩,
        ⟨"updated_at", .timestamp, true, some .now⟩ }
      constraints := {
        ⟨"PK_tenant_membership_id", ["id"], .primaryKey⟩,
        ⟨"UQ_tenant_membership_tenant_id_user_id", ["tenant_id", "user_id"], .unique⟩,
        ⟨"FK_tenant_membership_tenant_id", ["tenant_id"], .foreignKey "tenant" ["id"] .cascade⟩,
        ⟨"FK_tenant_membership_user_id", ["user_id"], .foreignKey "user" ["id"] .cascade⟩ }
      indexes := ∅ },
    .createIndex "tenant_membership" ⟨"IDX_tenant_membership_tenant_id", ["tenant_id"]⟩,
    .createIndex "tenant_membership" ⟨"IDX_tenant_membership_user_id", ["user_id"]⟩]
  down := [
    .dropTable "tenant_membership",
    .dropTable "tenant",
    .dropTable "user",
    .dropTable "app"]

/-- `SplitUserAndAuthSession1788181125000`. -/
def splitUserAndAuthSession : Migration where
  up := [
    .dropConstraint "user" "UQ_user_refresh_token_hash",
    .dropColumn "user" "refresh_token_hash",
    .dropColumn "user" "refresh_token_expires_at",
    .createTable {
      name := "session"
      columns := {
        ⟨"id", .uuid, true, some .genRandomUuid⟩,
        ⟨"user_id", .uuid, true, none⟩,
        ⟨"refresh_token_hash", .varchar 255, true, none⟩,
        ⟨"refresh_token_expires_at", .timestamp, true, none⟩,
        ⟨"created_at", .timestamp, true, some .now⟩,
        ⟨"updated_at", .timestamp, true, some .now⟩ }
      constraints := {
        ⟨"PK_session_id", ["id"], .primaryKey⟩,
        ⟨"UQ_session_user_id", ["user_id"], .unique⟩,
        ⟨"UQ_session_refresh_token_hash", ["refresh_token_hash"], .unique⟩,
        ⟨"FK_session_user_id", ["user_id"], .foreignKey "user" ["id"] .cascade⟩ }
      indexes := ∅ }]
  down := [
    .dropTable "session",
    .addColumn "user" ⟨"refresh_token_hash", .varchar 255, false, none⟩,
    .addColumn "user" ⟨"refresh_token_expires_at", .timestamp, false, none⟩,
    .addConstraint "user" ⟨"UQ_user_refresh_token_hash", ["refresh_token_hash"], .unique⟩]

/-- `SessionChainRotation1788200000000`. -/
def sessionChainRotation : Migration where
  up := [
    .deleteFrom "session",
    .dropConstraint "session" "UQ_session_user_id",
    .addColumn "session" ⟨"revoked_at", .timestamp, false, none⟩,
    .addColumn "session" ⟨"replaced_by_session_id", .uuid, false, none⟩,
    .addConstraint "session" ⟨"FK_session_replaced_by_session_id", ["replaced_by_session_id"],
      .foreignKey "session" ["id"] .setNull⟩,
    .createIndex "session" ⟨"IDX_session_user_id", ["user_id"]⟩]
  down := [
    .deleteFrom "session",
    .dropIndex "IDX_session_user_id",
    .dropConstraint "session" "FK_session_replaced_by_session_id",
    .dropColumn "session" "revoked_at",
    .dropColumn "session" "replaced_by_session_id",
    .addConstraint "session" ⟨"UQ_session_user_id", ["user_id"], .unique⟩]

def migrations : List Migration := [createIdentityAndTenancy, splitUserAndAuthSession, sessionChainRotation]

/-- The schema that the first `n` migrations create. -/
def schemaAt (n : ℕ) : Option Schema := exec Statement.schemaStep [] ((migrations.take n).flatMap (·.up))

/-- Any content of the schema after the first `n` migrations. -/
structure AtLevel (n : ℕ) (db : Sql.Database) : Prop where
  schema : schemaAt n = some db.schema
  valid : db.Valid

/-! ## What the session migrations keep -/

/-- The columns of `user` that the refresh token had before it had a table of its own. -/
def refreshTokenPair : List String := ["refresh_token_hash", "refresh_token_expires_at"]

/-- Some table stores the hash of a refresh token. -/
def StoresHash (db : Sql.Database) (hash : String) : Prop :=
  ∃ t, ∃ r ∈ db.rows t, r "refresh_token_hash" = .text hash

/-- The rows outside `session` are the same, but for the refresh token, and no hash of one stays. -/
structure KeepsAccounts (db db' : Sql.Database) : Prop where
  app : db'.rows "app" = db.rows "app"
  tenant : db'.rows "tenant" = db.rows "tenant"
  tenantMembership : db'.rows "tenant_membership" = db.rows "tenant_membership"
  user : List.Forall₂ (fun r r' => ∀ x, x ∉ refreshTokenPair → r' x = r x) (db.rows "user") (db'.rows "user")
  hashes : ∀ hash, StoresHash db hash → ¬ StoresHash db' hash

/-- The statements succeed, and lead to a content of the schema at level `n`. -/
structure Migrated (qs : List Statement) (n : ℕ) (db db' : Sql.Database) : Prop where
  ran : exec Database.step db qs = some db'
  level : AtLevel n db'
  kept : KeepsAccounts db db'

end AccountApi

import AccountApi.Proof.SessionChains
import AccountApi.Spec.Entities

/-!
# The entities as rows

What the columns and the constraints of a table say about the entities whose rows it has.

* `admits_app`, …, `admits_session`: the columns take the row of an entity exactly when it fits.
* `holds_app`, …, `holds_session`: what the constraints say.
-/

namespace AccountApi

open Transition Sql

section
variable {name : String} {notNull : Bool} {default : Option Default}

theorem takes_timestamp {d : Date} : Column.Takes ⟨name, .timestamp, notNull, default⟩ d.column ↔ d ≠ .invalid := by
  cases d with
  | invalid =>
    refine iff_of_false (fun h => ?_) (by simp)
    cases h.1
  | millis ms => exact iff_of_true ⟨rfl, fun _ h => by cases h⟩ (by simp)

theorem takes_nullable {α : Type} {type : SqlType} {column : α → Value} {x : Option α} :
    Column.Takes ⟨name, type, false, default⟩ (nullable column x) ↔
      ∀ y, x = some y → Column.Takes ⟨name, type, false, default⟩ (column y) := by
  cases x with
  | none => exact iff_of_true takes_null (by simp)
  | some x => simp [nullable]

end

theorem admits_app {a : AppEntity} : appTable.Admits a.row ↔ a.Fits := by
  have hcolumns : ∀ x ∈ ["id", "slug", "name", "created_at", "updated_at"], appTable.HasColumn x := by decide
  rw [AppEntity.row, admits_row_iff (by exact hcolumns)]
  simp only [appTable, Finset.forall_mem_insert, Finset.mem_singleton, forall_eq]
  constructor
  · rintro ⟨-, hslug, hname, hcreated, hupdated⟩
    exact ⟨takes_varchar.1 hslug, takes_varchar.1 hname, takes_timestamp.1 hcreated, takes_timestamp.1 hupdated⟩
  · rintro ⟨hslug, hname, hcreated, hupdated⟩
    exact ⟨takes_uuid _, takes_varchar.2 hslug, takes_varchar.2 hname, takes_timestamp.2 hcreated,
      takes_timestamp.2 hupdated⟩

theorem admits_user {u : UserEntity} : userTable.Admits u.row ↔ u.Fits := by
  have hcolumns : ∀ x ∈ ["id", "external_id", "email", "display_name", "platform_admin", "created_at",
      "updated_at"], userTable.HasColumn x := by decide
  rw [UserEntity.row, admits_row_iff (by exact hcolumns)]
  simp only [userTable, Finset.forall_mem_insert, Finset.mem_singleton, forall_eq]
  constructor
  · rintro ⟨-, hexternalId, hemail, hname, -, hcreated, hupdated⟩
    exact ⟨takes_varchar.1 hexternalId, takes_varchar.1 hemail,
      fun name h => takes_varchar.1 (takes_nullable.1 hname name h), takes_timestamp.1 hcreated,
      takes_timestamp.1 hupdated⟩
  · rintro ⟨hexternalId, hemail, hname, hcreated, hupdated⟩
    exact ⟨takes_uuid _, takes_varchar.2 hexternalId, takes_varchar.2 hemail,
      takes_nullable.2 fun name h => takes_varchar.2 (hname name h), takes_bool _, takes_timestamp.2 hcreated,
      takes_timestamp.2 hupdated⟩

theorem admits_tenant {t : TenantEntity} : tenantTable.Admits t.row ↔ t.Fits := by
  have hcolumns : ∀ x ∈ ["id", "app_id", "name", "slug", "created_at", "updated_at"], tenantTable.HasColumn x := by
    decide
  rw [TenantEntity.row, admits_row_iff (by exact hcolumns)]
  simp only [tenantTable, Finset.forall_mem_insert, Finset.mem_singleton, forall_eq]
  constructor
  · rintro ⟨-, -, hname, hslug, hcreated, hupdated⟩
    exact ⟨takes_varchar.1 hname, takes_varchar.1 hslug, takes_timestamp.1 hcreated, takes_timestamp.1 hupdated⟩
  · rintro ⟨hname, hslug, hcreated, hupdated⟩
    exact ⟨takes_uuid _, takes_uuid _, takes_varchar.2 hname, takes_varchar.2 hslug, takes_timestamp.2 hcreated,
      takes_timestamp.2 hupdated⟩

theorem admits_membership {m : TenantMembershipEntity} : membershipTable.Admits m.row ↔ m.Fits := by
  have hcolumns : ∀ x ∈ ["id", "tenant_id", "user_id", "role", "created_at", "updated_at"],
      membershipTable.HasColumn x := by decide
  have hrole : m.role.value.length ≤ 50 := by cases m.role <;> decide
  rw [TenantMembershipEntity.row, admits_row_iff (by exact hcolumns)]
  simp only [membershipTable, Finset.forall_mem_insert, Finset.mem_singleton, forall_eq]
  constructor
  · rintro ⟨-, -, -, -, hcreated, hupdated⟩
    exact ⟨takes_timestamp.1 hcreated, takes_timestamp.1 hupdated⟩
  · rintro ⟨hcreated, hupdated⟩
    exact ⟨takes_uuid _, takes_uuid _, takes_uuid _, takes_varchar.2 hrole, takes_timestamp.2 hcreated,
      takes_timestamp.2 hupdated⟩

theorem hexDigits_length (n h : ℕ) : (hexDigits n h).length = n := by
  induction n generalizing h with
  | zero => rfl
  | succ n ih => simp [hexDigits, ih]

theorem hexDigits_inj {n h h' : ℕ} (hh : h < 16 ^ n) (hh' : h' < 16 ^ n) (heq : hexDigits n h = hexDigits n h') :
    h = h' := by
  induction n generalizing h h' with
  | zero => omega
  | succ n ih =>
    have hdigits : ∀ a < 16, ∀ b < 16, Nat.digitChar a = Nat.digitChar b → a = b := by decide
    rw [pow_succ] at hh hh'
    obtain ⟨hinit, hlast⟩ := List.append_inj' heq rfl
    have hdiv := ih (by omega) (by omega) hinit
    have hmod := hdigits _ (Nat.mod_lt h (by omega)) _ (Nat.mod_lt h' (by omega)) (List.singleton_inj.1 hlast)
    omega

theorem hex_length (h : TokenHash) : (TokenHash.hex h).length = 64 := by
  rw [TokenHash.hex, String.length_ofList, hexDigits_length]

theorem hex_inj {h h' : TokenHash} (hh : h < 16 ^ 64) (hh' : h' < 16 ^ 64) :
    TokenHash.hex h = TokenHash.hex h' ↔ h = h' :=
  ⟨fun heq => hexDigits_inj hh hh' (String.ofList_injective heq), congrArg _⟩

theorem admits_session {e : SessionEntity} (hsha : e.refreshTokenHash < 16 ^ 64) :
    sessionTable.Admits e.row ↔ e.Fits := by
  have hcolumns : ∀ x ∈ ["id", "user_id", "refresh_token_hash", "refresh_token_expires_at", "revoked_at",
      "replaced_by_session_id", "created_at", "updated_at"], sessionTable.HasColumn x := by decide
  have hhash : (TokenHash.hex e.refreshTokenHash).length ≤ 255 := by
    rw [hex_length]
    omega
  rw [SessionEntity.row, admits_row_iff (by exact hcolumns)]
  simp only [sessionTable, Finset.forall_mem_insert, Finset.mem_singleton, forall_eq]
  constructor
  · rintro ⟨-, -, -, hexpires, hcreated, hupdated, hrevoked, -⟩
    refine ⟨hsha, takes_timestamp.1 hexpires, fun h => ?_, takes_timestamp.1 hcreated, takes_timestamp.1 hupdated⟩
    exact takes_timestamp.1 (takes_nullable.1 hrevoked .invalid h) rfl
  · rintro ⟨-, hexpires, hrevoked, ⟨hcreated, hupdated⟩⟩
    refine ⟨takes_uuid _, takes_uuid _, takes_varchar.2 hhash, takes_timestamp.2 hexpires,
      takes_timestamp.2 hcreated, takes_timestamp.2 hupdated, takes_nullable.2 fun d h => takes_timestamp.2 ?_,
      takes_nullable.2 fun _ _ => takes_uuid _⟩
    rintro rfl
    exact hrevoked h

section
variable {b : Database} {sessions : List SessionEntity}

theorem holds_app : (∀ c ∈ appTable.constraints, c.Holds "app" (b.rows sessions)) ↔
    (b.apps.map (·.id)).Nodup ∧ (b.apps.map (·.slug)).Nodup := by
  simp only [appTable, Finset.forall_mem_insert, Finset.mem_singleton, forall_eq]
  exact and_congr (holds_key_iff _ (fun a => [.uuid a.id]) rfl rfl (fun _ => rfl) (by simp) (by simp))
    (holds_key_iff _ (fun a => [.text a.slug]) rfl rfl (fun _ => rfl) (by simp) (by simp))

theorem holds_user : (∀ c ∈ userTable.constraints, c.Holds "user" (b.rows sessions)) ↔
    (b.users.map (·.id)).Nodup ∧ (b.users.map (·.externalId)).Nodup ∧ (b.users.map (·.email)).Nodup := by
  simp only [userTable, Finset.forall_mem_insert, Finset.mem_singleton, forall_eq]
  refine and_congr ?_ (and_congr ?_ ?_)
  · exact holds_key_iff _ (fun u => [.uuid u.id]) rfl rfl (fun _ => rfl) (by simp) (by simp)
  · exact holds_key_iff _ (fun u => [.text u.externalId]) rfl rfl (fun _ => rfl) (by simp) (by simp)
  · exact holds_key_iff _ (fun u => [.text u.email]) rfl rfl (fun _ => rfl) (by simp) (by simp)

theorem holds_tenant : (∀ c ∈ tenantTable.constraints, c.Holds "tenant" (b.rows sessions)) ↔
    (b.tenancy.tenants.map (·.id)).Nodup ∧ (b.tenancy.tenants.map fun t => (t.appId, t.slug)).Nodup ∧
      ∀ t ∈ b.tenancy.tenants, ∃ a ∈ b.apps, a.id = t.appId := by
  simp only [tenantTable, Finset.forall_mem_insert, Finset.mem_singleton, forall_eq]
  refine and_congr ?_ (and_congr ?_ ?_)
  · exact holds_key_iff _ (fun t => [.uuid t.id]) rfl rfl (fun _ => rfl) (by simp) (by simp)
  · exact holds_key_iff _ (fun t => [.uuid t.appId, .text t.slug]) rfl rfl (fun _ => rfl) (by simp) (by simp)
  · rw [holds_foreignKey_iff (fun t : TenantEntity => [.uuid t.appId])
      (fun a : AppEntity => [.uuid a.id]) rfl rfl rfl (fun _ => rfl) fun _ => rfl]
    simp

theorem holds_membership :
    (∀ c ∈ membershipTable.constraints, c.Holds "tenant_membership" (b.rows sessions)) ↔
      (b.tenancy.memberships.map (·.id)).Nodup ∧
      (b.tenancy.memberships.map fun m => (m.tenantId, m.userId)).Nodup ∧
      (∀ m ∈ b.tenancy.memberships, ∃ t ∈ b.tenancy.tenants, t.id = m.tenantId) ∧
      ∀ m ∈ b.tenancy.memberships, ∃ u ∈ b.users, u.id = m.userId := by
  simp only [membershipTable, Finset.forall_mem_insert, Finset.mem_singleton, forall_eq]
  refine and_congr ?_ (and_congr ?_ (and_congr ?_ ?_))
  · exact holds_key_iff _ (fun m => [.uuid m.id]) rfl rfl (fun _ => rfl) (by simp) (by simp)
  · exact holds_key_iff _ (fun m => [.uuid m.tenantId, .uuid m.userId]) rfl rfl (fun _ => rfl) (by simp) (by simp)
  · rw [holds_foreignKey_iff (fun m : TenantMembershipEntity => [.uuid m.tenantId])
      (fun t : TenantEntity => [.uuid t.id]) rfl rfl rfl (fun _ => rfl) fun _ => rfl]
    simp
  · rw [holds_foreignKey_iff (fun m : TenantMembershipEntity => [.uuid m.userId])
      (fun u : UserEntity => [.uuid u.id]) rfl rfl rfl (fun _ => rfl) fun _ => rfl]
    simp

theorem holds_session (hsha : ∀ e ∈ sessions, e.refreshTokenHash < 16 ^ 64) :
    (∀ c ∈ sessionTable.constraints, c.Holds "session" (b.rows sessions)) ↔
      (sessions.map (·.id)).Nodup ∧ (sessions.map (·.refreshTokenHash)).Nodup ∧
      (∀ e ∈ sessions, ∃ u ∈ b.users, u.id = e.userId) ∧
      ∀ e ∈ sessions, ∀ id, e.replacedBySessionId = some id → ∃ e' ∈ sessions, e'.id = id := by
  simp only [sessionTable, Finset.forall_mem_insert, Finset.mem_singleton, forall_eq]
  refine and_congr ?_ (and_congr ?_ (and_congr ?_ ?_))
  · exact holds_key_iff _ (fun e => [.uuid e.id]) rfl rfl (fun _ => rfl) (by simp) (by simp)
  · refine holds_key_iff _ (fun e => [.text (TokenHash.hex e.refreshTokenHash)]) rfl rfl (fun _ => rfl) (by simp) ?_
    intro e he e' he'
    rw [← hex_inj (hsha e he) (hsha e' he')]
    simp
  · rw [holds_foreignKey_iff (fun e : SessionEntity => [.uuid e.userId])
      (fun u : UserEntity => [.uuid u.id]) rfl rfl rfl (fun _ => rfl) fun _ => rfl]
    simp
  · rw [holds_foreignKey_iff (fun e : SessionEntity => [nullable .uuid e.replacedBySessionId])
      (fun e : SessionEntity => [.uuid e.id]) rfl rfl rfl (fun _ => rfl) fun _ => rfl]
    refine forall₂_congr fun e _ => ?_
    cases e.replacedBySessionId <;> simp [nullable]

end

end AccountApi

import AccountApi.Proof.TenantAccess

/-!
# Stale tokens

A token is never withdrawn and its `tenants` claim is never read again from the tables.
That is safe only because no operation removes or demotes a member of a tenant that
stays: whatever a token says of a tenant that still exists is still in the table
(`AccessInv.claims`), and the table has one row for each member (`AccessInv.unique`).
-/

namespace AccountApi

open Transition

variable {A : TenantAccess} {s : TenantAccessState}

/-- Only an `OWNER` may delete a tenant. -/
theorem deleteTenant_mem_iff {role : TenantRoleEnum} :
    .deleteTenant ∈ tenantRolePermissions role ↔ role = .owner := by
  cases role <;> simp [tenantRolePermissions]

/-- The rows of one member are the row that a lookup finds. -/
theorem AccessInv.rows (hI : AccessInv A s) {m : TenantMembershipEntity} {T u : Uuid}
    (hfind : s.db.findByTenantIdAndUserId T u = some m) :
    (s.db.memberships.filter fun x => x.tenantId = T && x.userId = u) = [m] := by
  have hkey := List.find?_some hfind
  simp only [Bool.and_eq_true, decide_eq_true_eq] at hkey
  obtain ⟨rfl, rfl⟩ := hkey
  have hrow := Table.filter_key_of_mem hI.unique (List.mem_of_find?_eq_some hfind)
  simpa [Prod.mk.injEq] using hrow

/-- The check of `AssertTenantOwnerService` passes for an `OWNER`. -/
theorem TenancyDb.advance_loaded_owner {db : TenancyDb} {m : TenantMembershipEntity} {T u : Uuid}
    (hfind : db.findByTenantIdAndUserId T u = some m) (howner : m.role = .owner) (w : TenancyWorld)
    (new : NewTenancyIds) (now : Date) (tenant : TenantAggregate) :
    db.advance w new now (.delete ⟨T, u⟩) (.loaded tenant) = some (db, .ownerAsserted tenant.delete) := by
  simp [TenancyDb.advance, hfind, howner]

/-- **Stale tokens never authorise more than the database does**: on every run, whenever the guard
lets the bearer of a token issued at any time before use a permission on a tenant that exists, the
table holds exactly one row of the bearer in that tenant, its role grants the permission, and a
bearer who may delete the tenant passes the check for its owner. -/
theorem stale_token_authorised (hg : A.guard.Sound) {os : List TenantOperation}
    (h : exec A.step TenantAccess.start os = some s) {token : AccessTokenClaims} (htoken : token ∈ s.tokens)
    {T : Uuid} {permission : TenantPermissionEnum} (hallow : A.guard token.tenants T permission = true)
    (hrow : (s.db.findTenant T).isSome = true) :
    ∃ m, (s.db.memberships.filter fun x => x.tenantId = T && x.userId = token.sub) = [m] ∧
      permission ∈ tenantRolePermissions m.role ∧
      (permission = .deleteTenant → ∀ w new now tenant,
        s.db.advance w new now (.delete ⟨T, token.sub⟩) (.loaded tenant) =
          some (s.db, .ownerAsserted tenant.delete)) := by
  have hI : AccessInv A s := invariant (fun _ _ _ hI h => accessInv_step hg hI h) accessInv_start h
  obtain ⟨m, hfind, -, hperm⟩ := hI.caller hg htoken hallow hrow
  refine ⟨m, hI.rows hfind, hperm, ?_⟩
  rintro rfl w new now tenant
  exact TenancyDb.advance_loaded_owner hfind (deleteTenant_mem_iff.1 hperm) w new now tenant

/-- Jane creates a tenant, and keeps the token that says so while John comes to own it too. -/
theorem stale_token_authorised_jane : ∃ s m,
    exec TenantAccess.small.step TenantAccess.start (escalation.take 6) = some s ∧
      ⟨11, [⟨100, .owner⟩]⟩ ∈ s.tokens ∧ s.db.memberships.length = 3 ∧
      (s.db.memberships.filter fun x => x.tenantId = 100 && x.userId = 11) = [m] ∧
      .deleteTenant ∈ tenantRolePermissions m.role := by
  obtain ⟨s, hs, htoken, hrow, hlen⟩ : ∃ s,
      exec TenantAccess.small.step TenantAccess.start (escalation.take 6) = some s ∧
        ⟨11, [⟨100, .owner⟩]⟩ ∈ s.tokens ∧ (s.db.findTenant 100).isSome = true ∧
        s.db.memberships.length = 3 := ⟨_, rfl, by decide, rfl, rfl⟩
  have hallow : TenantAccess.small.guard [⟨100, .owner⟩] 100 .deleteTenant = true := rfl
  obtain ⟨m, hm, hperm, -⟩ := stale_token_authorised small_sound hs htoken hallow hrow
  exact ⟨s, m, hs, htoken, hlen, hm, hperm⟩

end AccountApi

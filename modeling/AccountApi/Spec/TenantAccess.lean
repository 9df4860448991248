import AccountApi.Spec.Tenancy

/-!
# Who acts on a tenant

The endpoints of `TenantsController` and `TenantMutationsResolver` behind
`JwtAuthGuard` and `TenantPermissionGuard`. An access token carries the memberships
its user had when it was issued, and serves any number of later calls. The REST route
and the GraphQL mutation of an operation check the same permission and execute the
same command, so that an `Endpoint` stands for both.

A state keeps every token issued so far and the history of what was done, the latest
first.
-/

namespace AccountApi

/-- One row of the `tenants` claim. -/
structure TenantMembershipClaim where
  tenantId : Uuid
  role : TenantRoleEnum
  deriving DecidableEq, Repr

structure AccessTokenClaims where
  sub : Uuid
  tenants : List TenantMembershipClaim
  deriving DecidableEq, Repr

/-- `TenantMembershipLookupAdapter.findMembershipsByUserId`. -/
def TenancyDb.findMembershipsByUserId (db : TenancyDb) (userId : Uuid) : List TenantMembershipClaim :=
  (db.memberships.filter fun m => m.userId = userId).map fun m => ⟨m.tenantId, m.role⟩

/-- The token a login or a refresh issues. -/
def TenancyDb.accessToken (db : TenancyDb) (userId : Uuid) : AccessTokenClaims :=
  ⟨userId, db.findMembershipsByUserId userId⟩

/-- `createTenantPermissionGuard({ rolePermissions: TENANT_ROLE_PERMISSIONS })`, whose code is in a
package: the `tenants` claim, the tenant and the permission of the endpoint. -/
abbrev TenantPermissionGuard := List TenantMembershipClaim → Uuid → TenantPermissionEnum → Bool

/-- The guard rejects a caller who has no membership of the tenant in the token or whose role does
not grant the permission. -/
def TenantPermissionGuard.Sound (guard : TenantPermissionGuard) : Prop :=
  ∀ claims tenantId permission, guard claims tenantId permission = true →
    ∃ c ∈ claims, c.tenantId = tenantId ∧ permission ∈ tenantRolePermissions c.role

/-! ## Endpoints -/

inductive Endpoint where
  | create (appId : Uuid) (name slug : String)
  | update (tenantId : Uuid) (name slug : Option String)
  | addMember (tenantId : Uuid) (email : String) (role : TenantRoleEnum)
  | delete (tenantId : Uuid)
  deriving DecidableEq, Repr

/-- `@RequiresPermission` and the tenant it is checked for. -/
def Endpoint.requiresPermission : Endpoint → Option (Uuid × TenantPermissionEnum)
  | create _ _ _ => none
  | update tenantId _ _ => some (tenantId, .manageTenant)
  | addMember tenantId _ _ => some (tenantId, .manageMembers)
  | delete tenantId => some (tenantId, .deleteTenant)

/-- The command the controller executes for the current user. -/
def Endpoint.command (userId : Uuid) : Endpoint → TenancyRequest
  | create appId name slug => .create ⟨appId, name, slug, userId⟩
  | update tenantId name slug => .update ⟨tenantId, name, slug⟩
  | addMember tenantId email role => .addMember ⟨tenantId, email, role⟩
  | delete tenantId => .delete ⟨tenantId, userId⟩

/-- What a successful call has done; `callerRole` is the role of the caller in the tenant then. -/
inductive TenantAction where
  | created (tenantId userId : Uuid)
  | added (tenantId callerId userId : Uuid) (callerRole : Option TenantRoleEnum) (role : TenantRoleEnum)
  | deleted (tenantId userId : Uuid)
  deriving DecidableEq, Repr

def Endpoint.action (w : TenancyWorld) (new : NewTenancyIds) (db : TenancyDb) (userId : Uuid) :
    Endpoint → Option TenantAction
  | create _ _ _ => some (.created new.tenantId userId)
  | update _ _ _ => none
  | addMember tenantId email role => (w.findUserIdByEmail email).map fun memberId =>
      .added tenantId userId memberId ((db.findByTenantIdAndUserId tenantId userId).map (·.role)) role
  | delete tenantId => some (.deleted tenantId userId)

/-- The guard, and the ids the calls generate, all different. -/
structure TenantAccess where
  guard : TenantPermissionGuard
  newTenantId : ℕ ↪ Uuid
  newMembershipId : ℕ ↪ Uuid

structure TenantAccessState where
  db : TenancyDb
  tokens : List AccessTokenClaims
  calls : ℕ
  history : List TenantAction
  deriving DecidableEq

inductive TenantOperation where
  /-- A login or a refresh of the user. -/
  | issueToken (userId : Uuid)
  /-- A call with one of the tokens, in a world of apps and users. -/
  | call (token : AccessTokenClaims) (endpoint : Endpoint) (world : TenancyWorld) (now : Date)

namespace TenantAccess

variable (A : TenantAccess)

def start : TenantAccessState := ⟨⟨[], []⟩, [], 0, []⟩

def new (s : TenantAccessState) : NewTenancyIds := ⟨A.newTenantId s.calls, A.newMembershipId s.calls⟩

/-- Whether `TenantPermissionGuard` lets the call through; `create` is not behind it. -/
def allows (token : AccessTokenClaims) (endpoint : Endpoint) : Bool :=
  endpoint.requiresPermission.all fun p => A.guard token.tenants p.1 p.2

/-- The handler executed for the user, with nothing in between. -/
def execute (s : TenantAccessState) (userId : Uuid) (endpoint : Endpoint) (w : TenancyWorld) (now : Date) :
    TenantAccessState :=
  let q := s.db.execute w (A.new s) now (endpoint.command userId)
  { s with
    db := q.1
    calls := s.calls + 1
    history :=
      if q.2 = .succeeded then (endpoint.action w (A.new s) s.db userId).toList ++ s.history
      else s.history }

def step (s : TenantAccessState) : TenantOperation → Option TenantAccessState
  | .issueToken userId => some { s with tokens := s.db.accessToken userId :: s.tokens }
  | .call token endpoint w now =>
    -- `JwtAuthGuard` takes any token that was issued, however old its claims are
    if token ∈ s.tokens then
      some (if A.allows token endpoint then A.execute s token.sub endpoint w now else s)
    else none

end TenantAccess

/-! ## Chains of additions -/

/-- The user created the tenant, or was added to it by a user who was reached before and whose role
`may` add members. -/
inductive Reached (may : TenantRoleEnum → Prop) (tenantId : Uuid) : List TenantAction → Uuid → Prop
  | creator (h) (userId) : Reached may tenantId (.created tenantId userId :: h) userId
  | added (h) (callerId userId) (callerRole role) : Reached may tenantId h callerId → may callerRole →
      Reached may tenantId (.added tenantId callerId userId (some callerRole) role :: h) userId
  | later (a) (h) (userId) : Reached may tenantId h userId → Reached may tenantId (a :: h) userId

/-- The guard as the README describes it. -/
def TenantAccess.small : TenantAccess where
  guard claims tenantId permission := claims.any fun c =>
    c.tenantId = tenantId && (tenantRolePermissions c.role).contains permission
  newTenantId := ⟨fun i => 100 + i, fun _ _ h => Nat.add_left_cancel h⟩
  newMembershipId := ⟨fun i => 200 + i, fun _ _ h => Nat.add_left_cancel h⟩

end AccountApi

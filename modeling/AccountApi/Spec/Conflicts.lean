import AccountApi.Lib.Claim
import AccountApi.Spec.Database

/-!
# Requests for one key

`CreateApp` at the granularity of its repository calls, as `Spec.Tenancy` has the handlers
of tenants, and the three kinds of requests that claim one key of a table: apps with one
slug, tenants with one slug of an app, memberships of one user in a tenant. No call fails
for a technical reason here.
-/

namespace AccountApi

open Claim

inductive AppError where
  | appSlugAlreadyExists (slug : String)
  /-- A unique constraint rejected the INSERT. -/
  | queryFailed
  deriving DecidableEq, Repr

/-- The status `BaseExceptionFilter` answers with, `none` for an error that it does not catch. -/
def AppError.status : AppError → Option ℕ
  | appSlugAlreadyExists _ => some 409
  | queryFailed => none

def TenancyError.status : TenancyError → Option ℕ
  | tenantSlugAlreadyExists _ _ | tenantMembershipAlreadyExists _ _ => some 409
  | appNotFound _ | tenantNotFound _ | memberUserNotFound _ => some 404
  | notTenantOwner _ _ => some 403
  | queryFailed => none

/-! ## Concurrent `CreateApp` requests -/

inductive CreateAppPhase where
  | received
  | slugAvailable
  | succeeded
  | failed (error : AppError)
  deriving DecidableEq

/-- How a request has ended. -/
def CreateAppPhase.outcome : CreateAppPhase → Option (Except AppError Unit)
  | succeeded => some (.ok ())
  | failed e => some (.error e)
  | _ => none

/-- Where a request stands with its slug. -/
def CreateAppPhase.claim : CreateAppPhase → Claim.Phase
  | received => .claiming
  | slugAvailable => .checked
  | succeeded => .won
  | failed (.appSlugAlreadyExists _) => .refused
  | failed .queryFailed => .rejected

/-- The requests and the ids they generate, all different. -/
structure Apps (ι : Type) where
  requests : ι → CreateAppCommand
  newId : ι ↪ Uuid

structure AppsState (ι : Type) where
  apps : List AppEntity
  phase : ι → CreateAppPhase

/-- The next call of a request. -/
def CreateAppCommand.advance (c : CreateAppCommand) (id : Uuid) (now : Date) (apps : List AppEntity) :
    CreateAppPhase → Option (List AppEntity × CreateAppPhase)
  | .received =>
    match appBySlug apps c.slug with
    | some _ => some (apps, .failed (.appSlugAlreadyExists c.slug))
    | none => some (apps, .slugAvailable)
  | .slugAvailable =>
    match saveApp apps (c.app id now).primitives with
    | none => some (apps, .failed .queryFailed)
    | some apps => some (apps, .succeeded)
  | .succeeded | .failed _ => none

namespace Apps

variable {ι : Type} (S : Apps ι)

def start (apps : List AppEntity) : AppsState ι := ⟨apps, fun _ => .received⟩

def step [DecidableEq ι] (s : AppsState ι) (a : ι × Date) : Option (AppsState ι) :=
  ((S.requests a.1).advance (S.newId a.1) a.2 s.apps (s.phase a.1)).map fun q =>
    ⟨q.1, Function.update s.phase a.1 q.2⟩

/-- Every request is for the slug. -/
structure ClaimSlug (apps : List AppEntity) (slug : String) : Prop where
  requests : ∀ i, (S.requests i).slug = slug
  ids : (apps.map (·.id)).Nodup
  unique : (apps.map (·.slug)).Nodup
  fresh : ∀ i, ∀ a ∈ apps, a.id ≠ S.newId i

/-- The requests as claims of the slug. -/
def slugClaims [DecidableEq ι] (slug : String) :
    Claims (AppsState ι) (ι × Date) ι (List AppEntity) AppError where
  step := S.step
  request := Prod.fst
  tables s := s.apps
  rows apps := (apps.filter fun a => a.slug = slug).length
  phase s i := (s.phase i).claim
  outcome s i := (s.phase i).outcome
  conflict := .appSlugAlreadyExists slug

end Apps

def Apps.small {n : ℕ} (requests : Fin n → CreateAppCommand) : Apps (Fin n) where
  requests := requests
  newId := ⟨fun i => 300 + i.val, fun _ _ h => Fin.ext (Nat.add_left_cancel h)⟩

/-! ## Concurrent requests on tenants and members -/

/-- How a request has ended. -/
def TenancyPhase.outcome : TenancyPhase → Option (Except TenancyError Unit)
  | succeeded => some (.ok ())
  | failed e => some (.error e)
  | _ => none

/-- The number of rows with a key of `UQ_tenant_app_id_slug`. -/
def TenancyDb.countByAppIdAndSlug (db : TenancyDb) (appId : Uuid) (slug : String) : ℕ :=
  (db.tenants.filter fun t => t.appId = appId && t.slug = slug).length

/-- The number of rows with a key of `UQ_tenant_membership_tenant_id_user_id`. -/
def TenancyDb.countByTenantIdAndUserId (db : TenancyDb) (tenantId userId : Uuid) : ℕ :=
  (db.memberships.filter fun m => m.tenantId = tenantId && m.userId = userId).length

/-- Where a request stands with the slug of its tenant, which did not have it. -/
def TenancyPhase.slugClaim : TenancyPhase → Claim.Phase
  | slugAvailable | checked _ => .checked
  | tenantSaved _ | succeeded => .won
  | failed .queryFailed => .rejected
  | failed _ => .refused
  | _ => .claiming

/-- Where a request stands with its membership. -/
def TenancyPhase.membershipClaim : TenancyPhase → Claim.Phase
  | membershipAvailable _ => .checked
  | succeeded => .won
  | failed .queryFailed => .rejected
  | failed _ => .refused
  | _ => .claiming

namespace Tenancy

variable {ι : Type} (S : Tenancy ι)

/-- The next call of a request, which does not fail. -/
def call [DecidableEq ι] (s : TenancyState ι) (a : ι × Date) : Option (TenancyState ι) :=
  S.step s ⟨a.1, false, a.2⟩

/-- Every request creates a tenant of the app with the slug, for a user there is, or updates a tenant of
the app to the slug, another one each. -/
structure ClaimSlug (db : TenancyDb) (appId : Uuid) (slug : String) : Prop where
  requests : ∀ i,
    (∃ c, S.requests i = .create c ∧ c.appId = appId ∧ c.slug = slug ∧
      S.world.hasUser c.creatorUserId = true) ∨
    ∃ c t, S.requests i = .update c ∧ c.slug = some slug ∧ db.findTenant c.tenantId = some t ∧
      t.appId = appId
  different : ∀ i j c d, S.requests i = .update c → S.requests j = .update d →
    c.tenantId = d.tenantId → i = j
  app : S.world.apps.contains appId = true
  ids : (db.tenants.map (·.id)).Nodup
  unique : (db.tenants.map fun t => (t.appId, t.slug)).Nodup
  references : ∀ m ∈ db.memberships, (db.findTenant m.tenantId).isSome = true
  fresh : ∀ i, (∀ t ∈ db.tenants, t.id ≠ S.newTenantId i) ∧
    ∀ m ∈ db.memberships, m.id ≠ S.newMembershipId i

/-- The tenant that a request updates has the slug in the tables. -/
def holdsSlug (db : TenancyDb) (slug : String) (i : ι) : Bool :=
  match S.requests i with
  | .update c => (db.findTenant c.tenantId).any fun t => t.slug = slug
  | _ => false

/-- The requests on the tables `db` as claims of the slug. -/
def slugClaims [DecidableEq ι] (db : TenancyDb) (appId : Uuid) (slug : String) :
    Claims (TenancyState ι) (ι × Date) ι TenancyDb TenancyError where
  step := S.call
  request := Prod.fst
  tables s := s.db
  rows db := db.countByAppIdAndSlug appId slug
  phase s i := if S.holdsSlug db slug i then .holder else (s.phase i).slugClaim
  outcome s i := (s.phase i).outcome
  conflict := .tenantSlugAlreadyExists slug appId

/-- Every request adds the user to the tenant. -/
structure ClaimMembership (db : TenancyDb) (tenantId userId : Uuid) : Prop where
  requests : ∀ i, ∃ c, S.requests i = .addMember c ∧ c.tenantId = tenantId ∧
    S.world.findUserIdByEmail c.email = some userId
  tenant : (db.findTenant tenantId).isSome = true
  ids : (db.memberships.map (·.id)).Nodup
  unique : (db.memberships.map fun m => (m.tenantId, m.userId)).Nodup
  fresh : ∀ i, ∀ m ∈ db.memberships, m.id ≠ S.newMembershipId i

/-- The requests as claims of the membership. -/
def membershipClaims [DecidableEq ι] (tenantId userId : Uuid) :
    Claims (TenancyState ι) (ι × Date) ι TenancyDb TenancyError where
  step := S.call
  request := Prod.fst
  tables s := s.db
  rows db := db.countByTenantIdAndUserId tenantId userId
  phase s i := (s.phase i).membershipClaim
  outcome s i := (s.phase i).outcome
  conflict := .tenantMembershipAlreadyExists tenantId userId

end Tenancy

end AccountApi

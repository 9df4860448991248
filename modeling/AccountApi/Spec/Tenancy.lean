import AccountApi.Spec.Session
import AccountApi.Lib.Run
import Mathlib.Data.Fin.VecNotation
import Mathlib.Logic.Embedding.Basic
import Mathlib.Logic.Function.Basic

/-!
# Tenants and their members

The handlers of `CreateTenant`, `UpdateTenant`, `AddTenantMember` and `DeleteTenant`
at the granularity of their repository calls: each call is one atomic statement on
the `tenant` and `tenant_membership` tables, under the constraints of the migrations,
and the calls of any number of requests interleave. A statement that fails aborts its
request and changes nothing.

`advance` is the next call of one request; `execute` performs all of them with
nothing in between.
-/

namespace AccountApi

inductive TenantRoleEnum where
  | owner
  | member
  | admin
  deriving DecidableEq, Repr

inductive TenantPermissionEnum where
  | viewTenant
  | manageTenant
  | deleteTenant
  | manageMembers
  deriving DecidableEq, Repr

/-- `TENANT_ROLE_PERMISSIONS`. -/
def tenantRolePermissions : TenantRoleEnum → List TenantPermissionEnum
  | .owner => [.viewTenant, .manageTenant, .deleteTenant, .manageMembers]
  | .admin => [.viewTenant, .manageTenant, .manageMembers]
  | .member => [.viewTenant]

/-- A row of the `tenant` table, and the primitives of `TenantAggregate`. -/
structure TenantEntity where
  id : Uuid
  appId : Uuid
  name : String
  slug : String
  createdAt : Date
  updatedAt : Date
  deriving DecidableEq, Repr

/-- A row of the `tenant_membership` table, and the primitives of its aggregate. -/
structure TenantMembershipEntity where
  id : Uuid
  tenantId : Uuid
  userId : Uuid
  role : TenantRoleEnum
  createdAt : Date
  updatedAt : Date
  deriving DecidableEq, Repr

/-- `role.isOwner()`. -/
abbrev TenantMembershipEntity.isOwner (m : TenantMembershipEntity) : Bool := m.role = .owner

inductive TenantEvent where
  | created (tenant : TenantEntity)
  | updated (tenant : TenantEntity)
  | deleted (tenant : TenantEntity)
  | nameChanged (id : Uuid) (oldValue newValue : String)
  | slugChanged (id : Uuid) (oldValue newValue : String)
  deriving DecidableEq, Repr

/-- The primitives and the events applied since the aggregate was built. -/
structure TenantAggregate where
  primitives : TenantEntity
  events : List TenantEvent
  deriving DecidableEq, Repr

namespace TenantAggregate

def apply (t : TenantAggregate) (e : TenantEvent) : TenantAggregate :=
  { t with events := t.events ++ [e] }

def touch (t : TenantAggregate) (now : Date) : TenantAggregate :=
  { t with primitives := { t.primitives with updatedAt := now } }

def create (t : TenantAggregate) : TenantAggregate := t.apply (.created t.primitives)

def changeName (t : TenantAggregate) (name : String) (now : Date) : TenantAggregate :=
  let oldValue := t.primitives.name
  if oldValue = name then t
  else
    (({ t with primitives := { t.primitives with name } }).touch now).apply
      (.nameChanged t.primitives.id oldValue name)

def changeSlug (t : TenantAggregate) (slug : String) (now : Date) : TenantAggregate :=
  let oldValue := t.primitives.slug
  if oldValue = slug then t
  else
    (({ t with primitives := { t.primitives with slug } }).touch now).apply
      (.slugChanged t.primitives.id oldValue slug)

def update (t : TenantAggregate) (name slug : Option String) (now : Date) : TenantAggregate :=
  let t := name.elim t fun name => t.changeName name now
  let t := slug.elim t fun slug => t.changeSlug slug now
  t.apply (.updated t.primitives)

def delete (t : TenantAggregate) : TenantAggregate := t.apply (.deleted t.primitives)

end TenantAggregate

/-- `TenantTypeOrmMapper.toAggregate`. The columns of a row have passed their value objects when it
was saved, and pass them unchanged again. -/
def TenantEntity.toAggregate (e : TenantEntity) : TenantAggregate := ⟨e, []⟩

/-- The two tables. -/
structure TenancyDb where
  tenants : List TenantEntity
  memberships : List TenantMembershipEntity
  deriving DecidableEq, Repr

/-- What the other contexts hold: apps, and users with their emails. -/
structure TenancyWorld where
  apps : List Uuid
  users : List (String × Uuid)
  deriving DecidableEq, Repr

namespace TenancyWorld

def findUserIdByEmail (w : TenancyWorld) (email : String) : Option Uuid :=
  (w.users.find? fun u => u.1 = email).map (·.2)

def hasUser (w : TenancyWorld) (userId : Uuid) : Bool := w.users.any fun u => u.2 = userId

end TenancyWorld

namespace TenancyDb

variable (db : TenancyDb)

def findTenant (id : Uuid) : Option TenantEntity := db.tenants.find? fun t => t.id = id

def findByAppIdAndSlug (appId : Uuid) (slug : String) : Option TenantEntity :=
  db.tenants.find? fun t => t.appId = appId && t.slug = slug

def findByTenantIdAndUserId (tenantId userId : Uuid) : Option TenantMembershipEntity :=
  db.memberships.find? fun m => m.tenantId = tenantId && m.userId = userId

/-- `save`, under `UQ_tenant_app_id_slug` and `FK_tenant_app_id`. -/
def saveTenant (w : TenancyWorld) (t : TenantEntity) : Option TenancyDb :=
  if w.apps.contains t.appId then
    (Table.upsert (·.id) (fun x t => x.appId = t.appId && x.slug = t.slug) db.tenants t).map
      fun tenants => { db with tenants }
  else none

/-- `save`, under `UQ_tenant_membership_tenant_id_user_id` and the two foreign keys. -/
def saveMembership (w : TenancyWorld) (m : TenantMembershipEntity) : Option TenancyDb :=
  if (db.findTenant m.tenantId).isSome && w.hasUser m.userId then
    (Table.upsert (·.id) (fun x m => x.tenantId = m.tenantId && x.userId = m.userId)
      db.memberships m).map fun memberships => { db with memberships }
  else none

def deleteAllByTenantId (tenantId : Uuid) : TenancyDb :=
  { db with memberships := db.memberships.filter fun m => m.tenantId ≠ tenantId }

/-- `FK_tenant_membership_tenant_id` is `ON DELETE CASCADE`. -/
def deleteTenant (id : Uuid) : TenancyDb where
  tenants := db.tenants.filter fun t => t.id ≠ id
  memberships := db.memberships.filter fun m => m.tenantId ≠ id

end TenancyDb

structure CreateTenantCommand where
  appId : Uuid
  name : String
  slug : String
  creatorUserId : Uuid
  deriving DecidableEq, Repr

structure UpdateTenantCommand where
  tenantId : Uuid
  name : Option String
  slug : Option String
  deriving DecidableEq, Repr

structure AddTenantMemberCommand where
  tenantId : Uuid
  email : String
  role : TenantRoleEnum
  deriving DecidableEq, Repr

structure DeleteTenantCommand where
  tenantId : Uuid
  requesterUserId : Uuid
  deriving DecidableEq, Repr

inductive TenancyRequest where
  | create (c : CreateTenantCommand)
  | update (c : UpdateTenantCommand)
  | addMember (c : AddTenantMemberCommand)
  | delete (c : DeleteTenantCommand)
  deriving DecidableEq, Repr

inductive TenancyError where
  | appNotFound (id : Uuid)
  | tenantNotFound (id : Uuid)
  | tenantSlugAlreadyExists (slug : String) (appId : Uuid)
  | memberUserNotFound (email : String)
  | tenantMembershipAlreadyExists (tenantId userId : Uuid)
  | notTenantOwner (tenantId userId : Uuid)
  /-- A statement failed. -/
  | queryFailed
  deriving DecidableEq, Repr

/-- Where a request stands between two of its calls. -/
inductive TenancyPhase where
  | received
  -- CreateTenant
  | appExists
  | slugAvailable
  | tenantSaved (tenant : TenantAggregate)
  -- UpdateTenant
  | slugUnchecked (tenant : TenantAggregate)
  | checked (tenant : TenantAggregate)
  -- AddTenantMember
  | tenantExists
  | userFound (userId : Uuid)
  | membershipAvailable (userId : Uuid)
  -- DeleteTenant
  | loaded (tenant : TenantAggregate)
  | ownerAsserted (tenant : TenantAggregate)
  | membershipsDeleted (tenant : TenantAggregate)
  | succeeded
  | failed (error : TenancyError)
  deriving DecidableEq

def TenancyPhase.inProgress : TenancyPhase → Bool
  | received | succeeded | failed _ => false
  | _ => true

/-- The ids a request generates. -/
structure NewTenancyIds where
  tenantId : Uuid
  membershipId : Uuid
  deriving DecidableEq, Repr

/-- `tenantBuilder.withId(…)…build()`, then `tenant.create()`. -/
def CreateTenantCommand.tenant (c : CreateTenantCommand) (id : Uuid) (now : Date) : TenantAggregate :=
  (TenantEntity.toAggregate ⟨id, c.appId, c.name, c.slug, now, now⟩).create

/-- The next call of a request, when its statement does not fail for a technical reason. -/
def TenancyDb.advance (w : TenancyWorld) (new : NewTenancyIds) (now : Date) (db : TenancyDb) :
    TenancyRequest → TenancyPhase → Option (TenancyDb × TenancyPhase)
  | .create c, .received =>
    if w.apps.contains c.appId then some (db, .appExists) else some (db, .failed (.appNotFound c.appId))
  | .create c, .appExists =>
    match db.findByAppIdAndSlug c.appId c.slug with
    | some _ => some (db, .failed (.tenantSlugAlreadyExists c.slug c.appId))
    | none => some (db, .slugAvailable)
  | .create c, .slugAvailable =>
    -- between the check and this INSERT another request can take the slug: the constraint answers then
    let tenant := c.tenant new.tenantId now
    match db.saveTenant w tenant.primitives with
    | some db => some (db, .tenantSaved tenant)
    | none => some (db, .failed .queryFailed)
  | .create c, .tenantSaved tenant =>
    match db.saveMembership w
      ⟨new.membershipId, tenant.primitives.id, c.creatorUserId, .owner, now, now⟩ with
    | some db => some (db, .succeeded)
    | none => some (db, .failed .queryFailed)
  | .update c, .received =>
    match db.findTenant c.tenantId with
    | none => some (db, .failed (.tenantNotFound c.tenantId))
    | some t =>
      -- a slug that stays is not checked: its own row has it
      if c.slug.any fun slug => slug ≠ t.slug then some (db, .slugUnchecked t.toAggregate)
      else some (db, .checked t.toAggregate)
  | .update c, .slugUnchecked tenant =>
    let slug := c.slug.getD tenant.primitives.slug
    match db.findByAppIdAndSlug tenant.primitives.appId slug with
    | some _ => some (db, .failed (.tenantSlugAlreadyExists slug tenant.primitives.appId))
    | none => some (db, .checked tenant)
  | .update c, .checked tenant =>
    -- the whole aggregate is saved, as it was loaded but for the columns the command supplies
    match db.saveTenant w (tenant.update c.name c.slug now).primitives with
    | some db => some (db, .succeeded)
    | none => some (db, .failed .queryFailed)
  | .addMember c, .received =>
    match db.findTenant c.tenantId with
    | none => some (db, .failed (.tenantNotFound c.tenantId))
    | some _ => some (db, .tenantExists)
  | .addMember c, .tenantExists =>
    match w.findUserIdByEmail c.email with
    | none => some (db, .failed (.memberUserNotFound c.email))
    | some userId => some (db, .userFound userId)
  | .addMember c, .userFound userId =>
    match db.findByTenantIdAndUserId c.tenantId userId with
    | some _ => some (db, .failed (.tenantMembershipAlreadyExists c.tenantId userId))
    | none => some (db, .membershipAvailable userId)
  | .addMember c, .membershipAvailable userId =>
    match db.saveMembership w ⟨new.membershipId, c.tenantId, userId, c.role, now, now⟩ with
    | some db => some (db, .succeeded)
    | none => some (db, .failed .queryFailed)
  | .delete c, .received =>
    match db.findTenant c.tenantId with
    | none => some (db, .failed (.tenantNotFound c.tenantId))
    | some t => some (db, .loaded t.toAggregate)
  | .delete c, .loaded tenant =>
    if (db.findByTenantIdAndUserId c.tenantId c.requesterUserId).any (·.isOwner) then
      some (db, .ownerAsserted tenant.delete)
    else some (db, .failed (.notTenantOwner c.tenantId c.requesterUserId))
  | .delete c, .ownerAsserted tenant =>
    -- neither this statement nor the next one fails when there is no row left
    some (db.deleteAllByTenantId c.tenantId, .membershipsDeleted tenant)
  | .delete _, .membershipsDeleted tenant =>
    some (db.deleteTenant tenant.primitives.id, .succeeded)
  | _, _ => none

/-- The calls of a request one after the other, at most `n` of them. -/
def TenancyDb.complete (w : TenancyWorld) (new : NewTenancyIds) (now : Date) (r : TenancyRequest) :
    ℕ → TenancyDb × TenancyPhase → TenancyDb × TenancyPhase
  | 0, q => q
  | n + 1, q =>
    match q.1.advance w new now r q.2 with
    | some q => complete w new now r n q
    | none => q

/-- The handler with nothing in between. -/
def TenancyDb.execute (w : TenancyWorld) (new : NewTenancyIds) (now : Date) (db : TenancyDb)
    (r : TenancyRequest) : TenancyDb × TenancyPhase :=
  complete w new now r 4 (db, .received)

/-! ## The system -/

/-- The requests and the ids they generate, all different. -/
structure Tenancy (ι : Type) where
  world : TenancyWorld
  requests : ι → TenancyRequest
  newTenantId : ι ↪ Uuid
  newMembershipId : ι ↪ Uuid

structure TenancyState (ι : Type) where
  db : TenancyDb
  phase : ι → TenancyPhase

/-- The next call of request `request`: its statement fails, or is performed at `now`. -/
structure TenancyStep (ι : Type) where
  request : ι
  fails : Bool
  now : Date

namespace Tenancy

variable {ι : Type} (S : Tenancy ι)

def start (db : TenancyDb) : TenancyState ι := ⟨db, fun _ => .received⟩

def new (i : ι) : NewTenancyIds := ⟨S.newTenantId i, S.newMembershipId i⟩

/-- Where the next call of request `i` leads. -/
def next (s : TenancyState ι) (i : ι) (now : Date) : Option (TenancyDb × TenancyPhase) :=
  s.db.advance S.world (S.new i) now (S.requests i) (s.phase i)

def step [DecidableEq ι] (s : TenancyState ι) (a : TenancyStep ι) : Option (TenancyState ι) :=
  (S.next s a.request a.now).map fun q =>
    if a.fails then ⟨s.db, Function.update s.phase a.request (.failed .queryFailed)⟩
    else ⟨q.1, Function.update s.phase a.request q.2⟩

end Tenancy

/-- Requests in a world of one app and two users. -/
def Tenancy.small {n : ℕ} (requests : Fin n → TenancyRequest) : Tenancy (Fin n) where
  world := ⟨[1], [("jane@example.com", 11), ("john@example.com", 12)]⟩
  requests := requests
  newTenantId := ⟨fun i => 100 + i.val, fun _ _ h => Fin.ext (Nat.add_left_cancel h)⟩
  newMembershipId := ⟨fun i => 200 + i.val, fun _ _ h => Fin.ext (Nat.add_left_cancel h)⟩

/-- Tenant 7, whose owner is Jane. -/
def TenancyDb.small : TenancyDb where
  tenants := [⟨7, 1, "Acme", "acme", .millis 0, .millis 0⟩]
  memberships := [⟨8, 7, 11, .owner, .millis 0, .millis 0⟩]

end AccountApi

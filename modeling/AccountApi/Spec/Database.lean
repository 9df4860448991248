import AccountApi.Spec.Aggregates

/-!
# The commands that write, and the events they publish

The handlers of the `app`, `user` and `tenancy` contexts over the four tables, each
without anything in between. A handler that throws has no result. One that succeeds
gives the tables after it and the events it published: `publishEvents` publishes the
uncommitted events of the aggregate in order, and an aggregate has no others left.

`project` is what a subscriber does that keeps the four tables from the events alone.
-/

namespace AccountApi

open Sourced

/-- The tables. -/
structure Database where
  apps : List AppEntity
  users : List UserEntity
  tenancy : TenancyDb
  deriving DecidableEq, Repr

inductive DomainEvent where
  | app (e : AppEvent)
  | user (e : UserEvent)
  | tenant (e : TenantEvent)
  | membership (e : TenantMembershipEvent)
  deriving DecidableEq, Repr

namespace Database

def empty : Database := ⟨[], [], ⟨[], []⟩⟩

/-- What the `tenancy` context reads through its lookup ports, and what its foreign keys refer to. -/
def world (b : Database) : TenancyWorld := ⟨b.apps.map (·.id), b.users.map fun u => (u.email, u.id)⟩

end Database

def appBySlug (apps : List AppEntity) (slug : String) : Option AppEntity := apps.find? fun a => a.slug = slug

/-- `save`, under `UQ_app_slug`. -/
def saveApp : List AppEntity → AppEntity → Option (List AppEntity) :=
  Table.upsert (·.id) fun x a => x.slug = a.slug

def userById (users : List UserEntity) (id : Uuid) : Option UserEntity := users.find? fun u => u.id = id

structure CreateAppCommand where
  slug : String
  name : String
  deriving DecidableEq, Repr

structure SetUserPlatformAdminCommand where
  userId : Uuid
  platformAdmin : Bool
  deriving DecidableEq, Repr

inductive WriteCommand where
  | createApp (c : CreateAppCommand)
  | createUser (c : CreateUserCommand)
  | setUserPlatformAdmin (c : SetUserPlatformAdminCommand)
  | createTenant (c : CreateTenantCommand)
  | updateTenant (c : UpdateTenantCommand)
  | addTenantMember (c : AddTenantMemberCommand)
  | deleteTenant (c : DeleteTenantCommand)
  deriving DecidableEq, Repr

def WriteCommand.isDeleteTenant : WriteCommand → Bool
  | deleteTenant _ => true
  | _ => false

/-- What a handler draws while it runs: the ids it generates and the times it reads. -/
structure Draws where
  id : Uuid
  membershipId : Uuid
  now : Date
  membershipNow : Date
  deriving DecidableEq, Repr

/-- `appBuilder.withId(…)…build()`, then `app.create()`. -/
def CreateAppCommand.app (c : CreateAppCommand) (id : Uuid) (now : Date) : AppAggregate :=
  AppAggregate.create ⟨⟨id, c.slug, c.name, now, now⟩, []⟩

/-- `tenantMembershipBuilder.withId(…)…build()`, then `membership.create()`. -/
def TenantMembershipAggregate.new (id tenantId userId : Uuid) (role : TenantRoleEnum) (now : Date) :
    TenantMembershipAggregate :=
  TenantMembershipAggregate.create ⟨⟨id, tenantId, userId, role, now, now⟩, []⟩

/-- The tables after a handler, and what it published. -/
abbrev Published := Database × List DomainEvent

namespace Database

variable (k : Kit) (b : Database) (d : Draws)

/-- `CreateAppCommandHandler`. -/
def createApp (c : CreateAppCommand) : Option Published := do
  guard (appBySlug b.apps c.slug).isNone
  let app := c.app d.id d.now
  let apps ← saveApp b.apps app.primitives
  return ({ b with apps }, app.events.map .app)

/-- `CreateUserCommandHandler`. -/
def createUser (c : CreateUserCommand) : Option Published := do
  guard (userByEmail b.users c.email).isNone
  let user ← c.build k d.id d.now
  let user := user.toAggregate.create
  let users ← saveUser b.users user.primitives
  return ({ b with users }, user.events.map .user)

/-- `SetUserPlatformAdminCommandHandler`. -/
def setUserPlatformAdmin (c : SetUserPlatformAdminCommand) : Option Published := do
  let user ← userById b.users c.userId
  if user.platformAdmin = c.platformAdmin then return (b, [])
  let user := user.toAggregate.update ⟨none, none, some c.platformAdmin⟩ d.now
  let users ← saveUser b.users user.primitives
  return ({ b with users }, user.events.map .user)

/-- `CreateTenantCommandHandler`. -/
def createTenant (c : CreateTenantCommand) : Option Published := do
  guard (b.world.apps.contains c.appId)
  guard (b.tenancy.findByAppIdAndSlug c.appId c.slug).isNone
  let tenant := c.tenant d.id d.now
  let tenancy ← b.tenancy.saveTenant b.world tenant.primitives
  let membership :=
    TenantMembershipAggregate.new d.membershipId tenant.primitives.id c.creatorUserId .owner d.membershipNow
  let tenancy ← tenancy.saveMembership b.world membership.primitives
  return ({ b with tenancy }, tenant.events.map .tenant ++ membership.events.map .membership)

/-- `UpdateTenantCommandHandler`. -/
def updateTenant (c : UpdateTenantCommand) : Option Published := do
  let t ← b.tenancy.findTenant c.tenantId
  guard (c.slug.all fun slug =>
    slug = t.slug || (b.tenancy.findByAppIdAndSlug t.appId slug).isNone)
  let tenant := t.toAggregate.update c.name c.slug d.now
  let tenancy ← b.tenancy.saveTenant b.world tenant.primitives
  return ({ b with tenancy }, tenant.events.map .tenant)

/-- `AddTenantMemberCommandHandler`. -/
def addTenantMember (c : AddTenantMemberCommand) : Option Published := do
  let _ ← b.tenancy.findTenant c.tenantId
  let userId ← b.world.findUserIdByEmail c.email
  guard (b.tenancy.findByTenantIdAndUserId c.tenantId userId).isNone
  let membership := TenantMembershipAggregate.new d.membershipId c.tenantId userId c.role d.now
  let tenancy ← b.tenancy.saveMembership b.world membership.primitives
  return ({ b with tenancy }, membership.events.map .membership)

/-- `DeleteTenantCommandHandler`. -/
def deleteTenant (c : DeleteTenantCommand) : Option Published := do
  let t ← b.tenancy.findTenant c.tenantId
  guard ((b.tenancy.findByTenantIdAndUserId c.tenantId c.requesterUserId).any (·.isOwner))
  let tenant := t.toAggregate.delete
  -- the rows of the members go without their aggregates, so nothing is published about them
  let tenancy := (b.tenancy.deleteAllByTenantId c.tenantId).deleteTenant tenant.primitives.id
  return ({ b with tenancy }, tenant.events.map .tenant)

def execute : WriteCommand → Option Published
  | .createApp c => b.createApp d c
  | .createUser c => b.createUser k d c
  | .setUserPlatformAdmin c => b.setUserPlatformAdmin d c
  | .createTenant c => b.createTenant d c
  | .updateTenant c => b.updateTenant d c
  | .addTenantMember c => b.addTenantMember d c
  | .deleteTenant c => b.deleteTenant c

/-- Commands executed one after another; `none` as soon as one fails. -/
def executeAll : Database → List (WriteCommand × Draws) → Option Published
  | b, [] => some (b, [])
  | b, (c, d) :: cs => do
    let (b, es) ← b.execute k d c
    let (b, es') ← executeAll b cs
    return (b, es ++ es')

end Database

/-! ## The projection -/

def AppEvent.rowChange : AppEvent → RowChange AppEntity
  | created a | updated a => .put a
  | deleted a => .remove a
  | e => .redo fun a => e.replay a

def UserEvent.rowChange : UserEvent → RowChange UserEntity
  | registered u | updated u => .put u
  | deleted u => .remove u
  | e => .redo fun u => e.replay u

def TenantEvent.rowChange : TenantEvent → RowChange TenantEntity
  | created t | updated t => .put t
  | deleted t => .remove t
  | e => .redo fun t => e.replay t

def TenantMembershipEvent.rowChange : TenantMembershipEvent → RowChange TenantMembershipEntity
  | created m | updated m => .put m
  | deleted m => .remove m
  | e => .redo fun m => e.replay m

namespace Database

/-- A published event on the rows of the aggregate root it names. -/
def replay (b : Database) : DomainEvent → Database
  | .app e => { b with apps := e.rowChange.apply (·.id) b.apps }
  | .user e => { b with users := e.rowChange.apply (·.id) b.users }
  | .tenant e => { b with tenancy.tenants := e.rowChange.apply (·.id) b.tenancy.tenants }
  | .membership e => { b with tenancy.memberships := e.rowChange.apply (·.id) b.tenancy.memberships }

/-- The tables without their timestamps. -/
def untimed (b : Database) :
    List (Uuid × String × String) × List (Uuid × String × String × Option String × Bool) ×
      List (Uuid × Uuid × String × String) × List (Uuid × Uuid × Uuid × TenantRoleEnum) :=
  (b.apps.map fun a => (a.id, a.slug, a.name),
    b.users.map fun u => (u.id, u.externalId, u.email, u.displayName, u.platformAdmin),
    b.tenancy.tenants.map fun t => (t.id, t.appId, t.name, t.slug),
    b.tenancy.memberships.map fun m => (m.id, m.tenantId, m.userId, m.role))

/-- The same rows up to timestamps, in any order. -/
def SameRows (b b' : Database) : Prop :=
  b.untimed.1.Perm b'.untimed.1 ∧ b.untimed.2.1.Perm b'.untimed.2.1 ∧
    b.untimed.2.2.1.Perm b'.untimed.2.2.1 ∧ b.untimed.2.2.2.Perm b'.untimed.2.2.2

end Database

end AccountApi

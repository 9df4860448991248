import AccountApi.Spec.Database

/-!
# The shared builders

Each builder is one mutable object that every handler and every mapper of its context
uses. A chain of `with…` calls is one record update here: a field without a setter in
the chain keeps what an earlier use left in it. `build()` reads the fields and changes
none of them, also when it throws. A chain up to its `build()` runs uninterrupted.
-/

namespace AccountApi

inductive BuilderError where
  | fieldIsRequired (field : String)
  /-- A value object refused a value. -/
  | invalidValue
  deriving DecidableEq, Repr

/-- The fields of `BaseBuilder`, `none` for `undefined`. -/
structure BaseBuilder where
  id : Option Uuid
  createdAt : Option Date
  updatedAt : Option Date
  deriving DecidableEq, Repr

/-- What the builders use of the library. -/
structure BuilderKit extends Kit where
  uuidValue : Uuid → Option Uuid
  dateValue : Date → Option Date
  refreshTokenHashValue : TokenHash → Option TokenHash
  slugValue : String → Option String
  /-- `super.validate()`; what it accepts has an id. -/
  validate : BaseBuilder → Except BuilderError Unit

namespace BuilderKit

variable (k : BuilderKit)

/-- `AppNameValueObject` and `TenantNameValueObject`. -/
def nameValue : String → Option String := k.stringValue ⟨some 1, some 150, true⟩

/-- The value of some value object. -/
def IsValue {α : Type} (value : α → Option α) (v : α) : Prop := ∃ raw, value raw = some v

/-- A value that was normalised once is accepted as it is, where a character is required the value
is not empty, and a base with its three fields set is valid. -/
structure Lawful : Prop extends k.toKit.Lawful where
  uuidValue_again : ∀ v w, k.uuidValue v = some w → k.uuidValue w = some w
  dateValue_again : ∀ v w, k.dateValue v = some w → k.dateValue w = some w
  refreshTokenHashValue_again : ∀ v w, k.refreshTokenHashValue v = some w →
    k.refreshTokenHashValue w = some w
  slugValue_again : ∀ v w, k.slugValue v = some w → k.slugValue w = some w
  slugValue_ne : ∀ v w, k.slugValue v = some w → w ≠ ""
  stringValue_ne : ∀ o v w, o.minLength = some 1 → k.stringValue o v = some w → w ≠ ""
  validate_set : ∀ id createdAt updatedAt,
    k.validate ⟨some id, some createdAt, some updatedAt⟩ = .ok ()

/-- A kit that takes every id, date and hash, and every slug that is not empty. -/
def permissive : BuilderKit where
  toKit := Kit.permissive
  uuidValue := some
  dateValue := some
  refreshTokenHashValue := some
  slugValue v := if v = "" then none else some v
  validate b := if b.id.isNone then .error (.fieldIsRequired "id") else .ok ()

end BuilderKit

/-- `if (!this._field) throw new FieldIsRequiredException('field')`. -/
def required {α : Type} (field : String) (content : Option α) : Except BuilderError α :=
  content.elim (.error (.fieldIsRequired field)) .ok

/-- The same for a string, where the empty one counts as missing. -/
def requiredString (field : String) (content : Option String) : Except BuilderError String :=
  required field (content.filter (· ≠ ""))

/-- `new …ValueObject(value)`. -/
def valueObject {α : Type} (value : Option α) : Except BuilderError α :=
  value.elim (.error .invalidValue) .ok

/-- `value ? new …ValueObject(value) : null`. -/
def optionalObject {α : Type} (value : α → Option α) : Option α → Except BuilderError (Option α)
  | none => .ok none
  | some v => (valueObject (value v)).map some

/-! ## `SessionBuilder` -/

structure SessionBuilder extends BaseBuilder where
  userId : Option Uuid
  refreshTokenHash : Option TokenHash
  expiresAt : Option Date
  revokedAt : Option Date
  replacedBySessionId : Option Uuid
  deriving DecidableEq, Repr

/-- `clock` is what `new Date()` answers where a timestamp is missing. -/
def SessionBuilder.build (k : BuilderKit) (clock : Date) (b : SessionBuilder) :
    Except BuilderError SessionAggregate := do
  k.validate b.toBaseBuilder
  let userId ← required "userId" b.userId
  let refreshTokenHash ← required "refreshTokenHash" b.refreshTokenHash
  let expiresAt ← required "expiresAt" b.expiresAt
  let id ← valueObject (b.id.bind k.uuidValue)
  let userId ← valueObject (k.uuidValue userId)
  let refreshTokenHash ← valueObject (k.refreshTokenHashValue refreshTokenHash)
  let expiresAt ← valueObject (k.dateValue expiresAt)
  let revokedAt ← optionalObject k.dateValue b.revokedAt
  let replacedBySessionId ← optionalObject k.uuidValue b.replacedBySessionId
  let createdAt ← valueObject (k.dateValue (b.createdAt.getD clock))
  let updatedAt ← valueObject (k.dateValue (b.updatedAt.getD clock))
  return { id, userId, refreshTokenHash, expiresAt, revokedAt, replacedBySessionId, createdAt, updatedAt }

/-- The chain of `LoginUserCommandHandler` and of `RefreshSessionCommandHandler`. -/
def SessionBuilder.newSession (k : BuilderKit) (clock : Date) (n : NewSession) (userId : Uuid) (now : Date)
    (b : SessionBuilder) : Except BuilderError SessionAggregate × SessionBuilder :=
  let b := { b with
    id := some n.id
    userId := some userId
    refreshTokenHash := some n.refreshTokenHash
    expiresAt := some n.expiresAt
    revokedAt := none
    replacedBySessionId := none
    createdAt := some now
    updatedAt := some now }
  (b.build k clock, b)

def SessionTypeOrmMapper.toAggregate (k : BuilderKit) (clock : Date) (entity : SessionEntity)
    (b : SessionBuilder) : Except BuilderError SessionAggregate × SessionBuilder :=
  let b := { b with
    id := some entity.id
    userId := some entity.userId
    refreshTokenHash := some entity.refreshTokenHash
    expiresAt := some entity.refreshTokenExpiresAt
    revokedAt := entity.revokedAt
    replacedBySessionId := entity.replacedBySessionId
    createdAt := some entity.createdAt
    updatedAt := some entity.updatedAt }
  (b.build k clock, b)

/-! ## `UserBuilder` -/

structure UserBuilder extends BaseBuilder where
  externalId : Option String
  email : Option String
  displayName : Option String
  platformAdmin : Bool
  deriving DecidableEq, Repr

/-- The view model holds the primitives. -/
abbrev UserViewModel := UserEntity

namespace UserBuilder

def build (k : BuilderKit) (clock : Date) (b : UserBuilder) : Except BuilderError UserAggregate := do
  k.validate b.toBaseBuilder
  let externalId ← requiredString "externalId" b.externalId
  let email ← requiredString "email" b.email
  let id ← valueObject (b.id.bind k.uuidValue)
  let externalId ← valueObject (k.externalIdValue externalId)
  let email ← valueObject (k.emailValue email)
  let displayName ← optionalObject k.displayNameValue b.displayName
  let createdAt ← valueObject (k.dateValue (b.createdAt.getD clock))
  let updatedAt ← valueObject (k.dateValue (b.updatedAt.getD clock))
  return UserEntity.toAggregate
    { id, externalId, email, displayName, platformAdmin := b.platformAdmin, createdAt, updatedAt }

def buildViewModel (k : BuilderKit) (clock : Date) (b : UserBuilder) :
    Except BuilderError UserViewModel := do
  k.validate b.toBaseBuilder
  let externalId ← requiredString "externalId" b.externalId
  let email ← requiredString "email" b.email
  let id ← required "id" b.id
  return {
    id, externalId, email
    displayName := b.displayName
    platformAdmin := b.platformAdmin
    createdAt := b.createdAt.getD clock
    updatedAt := b.updatedAt.getD clock }

/-- The chain of `CreateUserCommandHandler`. -/
def newUser (k : BuilderKit) (clock : Date) (c : CreateUserCommand) (id : Uuid) (now : Date)
    (b : UserBuilder) : Except BuilderError UserAggregate × UserBuilder :=
  let b := { b with
    id := some id
    externalId := some c.externalId
    email := some c.email
    displayName := c.displayName
    platformAdmin := false
    createdAt := some now
    updatedAt := some now }
  (b.build k clock, b)

end UserBuilder

namespace UserTypeOrmMapper

/-- The chain of `toAggregate` and of `toViewModel`. -/
def load (entity : UserEntity) (b : UserBuilder) : UserBuilder :=
  { b with
    id := some entity.id
    externalId := some entity.externalId
    email := some entity.email
    displayName := entity.displayName
    platformAdmin := entity.platformAdmin
    createdAt := some entity.createdAt
    updatedAt := some entity.updatedAt }

def toAggregate (k : BuilderKit) (clock : Date) (entity : UserEntity) (b : UserBuilder) :
    Except BuilderError UserAggregate × UserBuilder :=
  let b := load entity b
  (b.build k clock, b)

def toViewModel (k : BuilderKit) (clock : Date) (entity : UserEntity) (b : UserBuilder) :
    Except BuilderError UserViewModel × UserBuilder :=
  let b := load entity b
  (b.buildViewModel k clock, b)

def toEntity (aggregate : UserAggregate) : UserEntity :=
  let primitives := aggregate.primitives
  { id := primitives.id
    externalId := primitives.externalId
    email := primitives.email
    displayName := primitives.displayName
    platformAdmin := primitives.platformAdmin
    createdAt := primitives.createdAt
    updatedAt := primitives.updatedAt }

end UserTypeOrmMapper

/-! ## `TenantBuilder` -/

structure TenantBuilder extends BaseBuilder where
  appId : Option Uuid
  name : Option String
  slug : Option String
  deriving DecidableEq, Repr

abbrev TenantViewModel := TenantEntity

namespace TenantBuilder

def build (k : BuilderKit) (clock : Date) (b : TenantBuilder) : Except BuilderError TenantAggregate := do
  k.validate b.toBaseBuilder
  let appId ← required "appId" b.appId
  let name ← requiredString "name" b.name
  let slug ← requiredString "slug" b.slug
  let id ← valueObject (b.id.bind k.uuidValue)
  let appId ← valueObject (k.uuidValue appId)
  let name ← valueObject (k.nameValue name)
  let slug ← valueObject (k.slugValue slug)
  let createdAt ← valueObject (k.dateValue (b.createdAt.getD clock))
  let updatedAt ← valueObject (k.dateValue (b.updatedAt.getD clock))
  return TenantEntity.toAggregate { id, appId, name, slug, createdAt, updatedAt }

def buildViewModel (k : BuilderKit) (clock : Date) (b : TenantBuilder) :
    Except BuilderError TenantViewModel := do
  k.validate b.toBaseBuilder
  let appId ← required "appId" b.appId
  let name ← requiredString "name" b.name
  let slug ← requiredString "slug" b.slug
  let id ← required "id" b.id
  return {
    id, appId, name, slug
    createdAt := b.createdAt.getD clock
    updatedAt := b.updatedAt.getD clock }

/-- The chain of `CreateTenantCommandHandler`. -/
def newTenant (k : BuilderKit) (clock : Date) (c : CreateTenantCommand) (id : Uuid) (now : Date)
    (b : TenantBuilder) : Except BuilderError TenantAggregate × TenantBuilder :=
  let b := { b with
    id := some id
    appId := some c.appId
    name := some c.name
    slug := some c.slug
    createdAt := some now
    updatedAt := some now }
  (b.build k clock, b)

end TenantBuilder

namespace TenantTypeOrmMapper

def load (entity : TenantEntity) (b : TenantBuilder) : TenantBuilder :=
  { b with
    id := some entity.id
    appId := some entity.appId
    name := some entity.name
    slug := some entity.slug
    createdAt := some entity.createdAt
    updatedAt := some entity.updatedAt }

def toAggregate (k : BuilderKit) (clock : Date) (entity : TenantEntity) (b : TenantBuilder) :
    Except BuilderError TenantAggregate × TenantBuilder :=
  let b := load entity b
  (b.build k clock, b)

def toViewModel (k : BuilderKit) (clock : Date) (entity : TenantEntity) (b : TenantBuilder) :
    Except BuilderError TenantViewModel × TenantBuilder :=
  let b := load entity b
  (b.buildViewModel k clock, b)

def toEntity (aggregate : TenantAggregate) : TenantEntity :=
  let primitives := aggregate.primitives
  { id := primitives.id
    appId := primitives.appId
    name := primitives.name
    slug := primitives.slug
    createdAt := primitives.createdAt
    updatedAt := primitives.updatedAt }

end TenantTypeOrmMapper

/-! ## `TenantMembershipBuilder` -/

/-- The string of an enum value, what the `role` column holds. -/
def TenantRoleEnum.value : TenantRoleEnum → String
  | owner => "OWNER"
  | member => "MEMBER"
  | admin => "ADMIN"

/-- `new TenantRoleValueObject(value)`. -/
def tenantRoleValue (value : String) : Option TenantRoleEnum :=
  [TenantRoleEnum.owner, .member, .admin].find? fun role => role.value = value

structure TenantMembershipBuilder extends BaseBuilder where
  tenantId : Option Uuid
  userId : Option Uuid
  role : Option String
  deriving DecidableEq, Repr

structure TenantMembershipViewModel where
  id : Uuid
  tenantId : Uuid
  userId : Uuid
  role : String
  createdAt : Date
  updatedAt : Date
  deriving DecidableEq, Repr

namespace TenantMembershipBuilder

def build (k : BuilderKit) (clock : Date) (b : TenantMembershipBuilder) :
    Except BuilderError TenantMembershipAggregate := do
  k.validate b.toBaseBuilder
  let tenantId ← required "tenantId" b.tenantId
  let userId ← required "userId" b.userId
  let role ← requiredString "role" b.role
  let id ← valueObject (b.id.bind k.uuidValue)
  let tenantId ← valueObject (k.uuidValue tenantId)
  let userId ← valueObject (k.uuidValue userId)
  let role ← valueObject (tenantRoleValue role)
  let createdAt ← valueObject (k.dateValue (b.createdAt.getD clock))
  let updatedAt ← valueObject (k.dateValue (b.updatedAt.getD clock))
  return ⟨{ id, tenantId, userId, role, createdAt, updatedAt }, []⟩

def buildViewModel (k : BuilderKit) (clock : Date) (b : TenantMembershipBuilder) :
    Except BuilderError TenantMembershipViewModel := do
  k.validate b.toBaseBuilder
  let tenantId ← required "tenantId" b.tenantId
  let userId ← required "userId" b.userId
  let role ← requiredString "role" b.role
  let id ← required "id" b.id
  return {
    id, tenantId, userId, role
    createdAt := b.createdAt.getD clock
    updatedAt := b.updatedAt.getD clock }

/-- The chain of `CreateTenantCommandHandler`, for the owner, and of `AddTenantMemberCommandHandler`. -/
def newMembership (k : BuilderKit) (clock : Date) (id tenantId userId : Uuid) (role : TenantRoleEnum)
    (now : Date) (b : TenantMembershipBuilder) :
    Except BuilderError TenantMembershipAggregate × TenantMembershipBuilder :=
  let b := { b with
    id := some id
    tenantId := some tenantId
    userId := some userId
    role := some role.value
    createdAt := some now
    updatedAt := some now }
  (b.build k clock, b)

end TenantMembershipBuilder

namespace TenantMembershipTypeOrmMapper

def load (entity : TenantMembershipEntity) (b : TenantMembershipBuilder) : TenantMembershipBuilder :=
  { b with
    id := some entity.id
    tenantId := some entity.tenantId
    userId := some entity.userId
    role := some entity.role.value
    createdAt := some entity.createdAt
    updatedAt := some entity.updatedAt }

def toAggregate (k : BuilderKit) (clock : Date) (entity : TenantMembershipEntity)
    (b : TenantMembershipBuilder) : Except BuilderError TenantMembershipAggregate × TenantMembershipBuilder :=
  let b := load entity b
  (b.build k clock, b)

def toViewModel (k : BuilderKit) (clock : Date) (entity : TenantMembershipEntity)
    (b : TenantMembershipBuilder) : Except BuilderError TenantMembershipViewModel × TenantMembershipBuilder :=
  let b := load entity b
  (b.buildViewModel k clock, b)

def toEntity (aggregate : TenantMembershipAggregate) : TenantMembershipEntity :=
  let primitives := aggregate.primitives
  { id := primitives.id
    tenantId := primitives.tenantId
    userId := primitives.userId
    role := primitives.role
    createdAt := primitives.createdAt
    updatedAt := primitives.updatedAt }

end TenantMembershipTypeOrmMapper

/-! ## `AppBuilder` -/

structure AppBuilder extends BaseBuilder where
  slug : Option String
  name : Option String
  deriving DecidableEq, Repr

abbrev AppViewModel := AppEntity

namespace AppBuilder

def build (k : BuilderKit) (clock : Date) (b : AppBuilder) : Except BuilderError AppAggregate := do
  k.validate b.toBaseBuilder
  let slug ← requiredString "slug" b.slug
  let name ← requiredString "name" b.name
  let id ← valueObject (b.id.bind k.uuidValue)
  let slug ← valueObject (k.slugValue slug)
  let name ← valueObject (k.nameValue name)
  let createdAt ← valueObject (k.dateValue (b.createdAt.getD clock))
  let updatedAt ← valueObject (k.dateValue (b.updatedAt.getD clock))
  return ⟨{ id, slug, name, createdAt, updatedAt }, []⟩

def buildViewModel (k : BuilderKit) (clock : Date) (b : AppBuilder) :
    Except BuilderError AppViewModel := do
  k.validate b.toBaseBuilder
  let slug ← requiredString "slug" b.slug
  let name ← requiredString "name" b.name
  let id ← required "id" b.id
  return {
    id, slug, name
    createdAt := b.createdAt.getD clock
    updatedAt := b.updatedAt.getD clock }

/-- The chain of `CreateAppCommandHandler`. -/
def newApp (k : BuilderKit) (clock : Date) (c : CreateAppCommand) (id : Uuid) (now : Date)
    (b : AppBuilder) : Except BuilderError AppAggregate × AppBuilder :=
  let b := { b with
    id := some id
    slug := some c.slug
    name := some c.name
    createdAt := some now
    updatedAt := some now }
  (b.build k clock, b)

end AppBuilder

namespace AppTypeOrmMapper

def load (entity : AppEntity) (b : AppBuilder) : AppBuilder :=
  { b with
    id := some entity.id
    slug := some entity.slug
    name := some entity.name
    createdAt := some entity.createdAt
    updatedAt := some entity.updatedAt }

def toAggregate (k : BuilderKit) (clock : Date) (entity : AppEntity) (b : AppBuilder) :
    Except BuilderError AppAggregate × AppBuilder :=
  let b := load entity b
  (b.build k clock, b)

def toViewModel (k : BuilderKit) (clock : Date) (entity : AppEntity) (b : AppBuilder) :
    Except BuilderError AppViewModel × AppBuilder :=
  let b := load entity b
  (b.buildViewModel k clock, b)

def toEntity (aggregate : AppAggregate) : AppEntity :=
  let primitives := aggregate.primitives
  { id := primitives.id
    slug := primitives.slug
    name := primitives.name
    createdAt := primitives.createdAt
    updatedAt := primitives.updatedAt }

end AppTypeOrmMapper

/-! ## The call sites -/

/-- The five builders, one object each. -/
structure Builders where
  session : SessionBuilder
  user : UserBuilder
  tenant : TenantBuilder
  membership : TenantMembershipBuilder
  app : AppBuilder
  deriving DecidableEq, Repr

/-- A use of a builder, with its inputs. -/
inductive CallSite where
  | login (n : NewSession) (userId : Uuid) (now : Date)
  | refresh (n : NewSession) (userId : Uuid) (now : Date)
  | createUser (c : CreateUserCommand) (id : Uuid) (now : Date)
  | createTenant (c : CreateTenantCommand) (id : Uuid) (now : Date)
  | createTenantOwner (c : CreateTenantCommand) (id tenantId : Uuid) (now : Date)
  | addTenantMember (c : AddTenantMemberCommand) (id userId : Uuid) (now : Date)
  | createApp (c : CreateAppCommand) (id : Uuid) (now : Date)
  | sessionToAggregate (entity : SessionEntity)
  | userToAggregate (entity : UserEntity)
  | userToViewModel (entity : UserEntity)
  | tenantToAggregate (entity : TenantEntity)
  | tenantToViewModel (entity : TenantEntity)
  | membershipToAggregate (entity : TenantMembershipEntity)
  | membershipToViewModel (entity : TenantMembershipEntity)
  | appToAggregate (entity : AppEntity)
  | appToViewModel (entity : AppEntity)
  deriving DecidableEq, Repr

inductive Built where
  | session (s : SessionAggregate)
  | user (u : UserAggregate)
  | userView (v : UserViewModel)
  | tenant (t : TenantAggregate)
  | tenantView (v : TenantViewModel)
  | membership (m : TenantMembershipAggregate)
  | membershipView (v : TenantMembershipViewModel)
  | app (a : AppAggregate)
  | appView (v : AppViewModel)
  deriving DecidableEq

namespace Builders

variable (b : Builders)

def onSession (use : SessionBuilder → Except BuilderError SessionAggregate × SessionBuilder) :
    Except BuilderError Built × Builders :=
  ((use b.session).1.map .session, { b with session := (use b.session).2 })

def onUser {α : Type} (built : α → Built) (use : UserBuilder → Except BuilderError α × UserBuilder) :
    Except BuilderError Built × Builders :=
  ((use b.user).1.map built, { b with user := (use b.user).2 })

def onTenant {α : Type} (built : α → Built) (use : TenantBuilder → Except BuilderError α × TenantBuilder) :
    Except BuilderError Built × Builders :=
  ((use b.tenant).1.map built, { b with tenant := (use b.tenant).2 })

def onMembership {α : Type} (built : α → Built)
    (use : TenantMembershipBuilder → Except BuilderError α × TenantMembershipBuilder) :
    Except BuilderError Built × Builders :=
  ((use b.membership).1.map built, { b with membership := (use b.membership).2 })

def onApp {α : Type} (built : α → Built) (use : AppBuilder → Except BuilderError α × AppBuilder) :
    Except BuilderError Built × Builders :=
  ((use b.app).1.map built, { b with app := (use b.app).2 })

end Builders

/-- What a call site gets, and the builders after it. -/
def CallSite.run (k : BuilderKit) (clock : Date) (b : Builders) :
    CallSite → Except BuilderError Built × Builders
  | login n userId now => b.onSession (SessionBuilder.newSession k clock n userId now)
  | refresh n userId now => b.onSession (SessionBuilder.newSession k clock n userId now)
  | createUser c id now => b.onUser .user (UserBuilder.newUser k clock c id now)
  | createTenant c id now => b.onTenant .tenant (TenantBuilder.newTenant k clock c id now)
  | createTenantOwner c id tenantId now =>
    b.onMembership .membership (TenantMembershipBuilder.newMembership k clock id tenantId c.creatorUserId
      .owner now)
  | addTenantMember c id userId now =>
    b.onMembership .membership (TenantMembershipBuilder.newMembership k clock id c.tenantId userId c.role now)
  | createApp c id now => b.onApp .app (AppBuilder.newApp k clock c id now)
  | sessionToAggregate e => b.onSession (SessionTypeOrmMapper.toAggregate k clock e)
  | userToAggregate e => b.onUser .user (UserTypeOrmMapper.toAggregate k clock e)
  | userToViewModel e => b.onUser .userView (UserTypeOrmMapper.toViewModel k clock e)
  | tenantToAggregate e => b.onTenant .tenant (TenantTypeOrmMapper.toAggregate k clock e)
  | tenantToViewModel e => b.onTenant .tenantView (TenantTypeOrmMapper.toViewModel k clock e)
  | membershipToAggregate e => b.onMembership .membership (TenantMembershipTypeOrmMapper.toAggregate k clock e)
  | membershipToViewModel e =>
    b.onMembership .membershipView (TenantMembershipTypeOrmMapper.toViewModel k clock e)
  | appToAggregate e => b.onApp .app (AppTypeOrmMapper.toAggregate k clock e)
  | appToViewModel e => b.onApp .appView (AppTypeOrmMapper.toViewModel k clock e)

/-- The builders as they are constructed. -/
def Builders.new : Builders where
  session := ⟨⟨none, none, none⟩, none, none, none, none, none⟩
  user := ⟨⟨none, none, none⟩, none, none, none, false⟩
  tenant := ⟨⟨none, none, none⟩, none, none, none⟩
  membership := ⟨⟨none, none, none⟩, none, none, none⟩
  app := ⟨⟨none, none, none⟩, none, none⟩

/-- The builders after some uses, whether these built something or threw. -/
def Builders.after (k : BuilderKit) (b : Builders) (uses : List (CallSite × Date)) : Builders :=
  uses.foldl (fun b use => (use.1.run k use.2 b).2) b

end AccountApi

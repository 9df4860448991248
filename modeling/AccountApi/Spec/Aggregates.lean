import AccountApi.Lib.Aggregate
import AccountApi.Spec.Registration
import AccountApi.Spec.Tenancy

/-!
# The aggregates and their events

`UserAggregate`, `AppAggregate` and `TenantMembershipAggregate`; `TenantAggregate` is in
`Spec.Tenancy`. Every private `change…` method compares the value with the current one,
sets it, touches the aggregate and applies the event that announces the change. The
`updatable` of a class says what its `update` is for.
-/

namespace AccountApi

open Sourced

/-! ## `UserAggregate` -/

inductive UserEvent where
  | registered (user : UserEntity)
  | updated (user : UserEntity)
  | deleted (user : UserEntity)
  | emailChanged (id : Uuid) (oldValue newValue : String)
  | displayNameChanged (id : Uuid) (oldValue newValue : Option String)
  | platformAdminChanged (id : Uuid) (oldValue newValue : Bool)
  deriving DecidableEq, Repr

abbrev UserAggregate := Aggregate UserEntity UserEvent

/-- `Omit<Partial<IUser>, 'id' | 'externalId' | 'createdAt' | 'updatedAt'>`, the supplied values. -/
structure UserProps where
  email : Option String
  displayName : Option String
  platformAdmin : Option Bool
  deriving DecidableEq, Repr

namespace UserEntity

def emailField : Field UserEntity UserEvent String where
  get u := u.email
  set u email := { u with email }
  changed u := .emailChanged u.id

/-- The display name `undefined` of the aggregate is the primitive `null`. -/
def displayNameField : Field UserEntity UserEvent (Option String) where
  get u := u.displayName
  set u displayName := { u with displayName }
  changed u := .displayNameChanged u.id

def platformAdminField : Field UserEntity UserEvent Bool where
  get u := u.platformAdmin
  set u platformAdmin := { u with platformAdmin }
  changed u := .platformAdminChanged u.id

def touch (now : Date) (u : UserEntity) : UserEntity := { u with updatedAt := now }

/-- `UserTypeOrmMapper.toAggregate`, of a row that passed its value objects when it was saved. -/
def toAggregate (u : UserEntity) : UserAggregate := ⟨u, []⟩

end UserEntity

namespace UserAggregate

def create (u : UserAggregate) : UserAggregate := u.apply (.registered u.primitives)

def changeEmail (u : UserAggregate) (email : String) (now : Date) : UserAggregate :=
  UserEntity.emailField.change (UserEntity.touch now) u email

def changeDisplayName (u : UserAggregate) (displayName : Option String) (now : Date) : UserAggregate :=
  UserEntity.displayNameField.change (UserEntity.touch now) u displayName

def changePlatformAdmin (u : UserAggregate) (platformAdmin : Bool) (now : Date) : UserAggregate :=
  UserEntity.platformAdminField.change (UserEntity.touch now) u platformAdmin

def update (u : UserAggregate) (props : UserProps) (now : Date) : UserAggregate :=
  let u := props.email.elim u fun email => changeEmail u email now
  let u := props.displayName.elim u fun displayName => changeDisplayName u (some displayName) now
  let u := props.platformAdmin.elim u fun platformAdmin => changePlatformAdmin u platformAdmin now
  u.apply (.updated u.primitives)

def delete (u : UserAggregate) : UserAggregate := u.apply (.deleted u.primitives)

end UserAggregate

/-- A field-changed event on the primitives it names. -/
def UserEvent.replay (u : UserEntity) : UserEvent → UserEntity
  | emailChanged id _ email => if u.id = id then { u with email } else u
  | displayNameChanged id _ displayName => if u.id = id then { u with displayName } else u
  | platformAdminChanged id _ platformAdmin => if u.id = id then { u with platformAdmin } else u
  | _ => u

def UserAggregate.updatable : Updatable UserAggregate UserEntity UserEvent UserProps Date where
  primitives := Aggregate.primitives
  events := Aggregate.events
  update := UserAggregate.update
  announced u props :=
    UserEntity.emailField.announced u props.email ++
      UserEntity.displayNameField.announced u (props.displayName.map some) ++
      UserEntity.platformAdminField.announced u props.platformAdmin
  overwrite u props :=
    { u with
      email := props.email.getD u.email
      displayName := (props.displayName.map some).getD u.displayName
      platformAdmin := props.platformAdmin.getD u.platformAdmin }
  updated := .updated
  updatedAt := UserEntity.updatedAt
  setUpdatedAt u now := u.touch now
  replay := UserEvent.replay

/-! ## `AppAggregate` -/

/-- A row of the `app` table, and the primitives of its aggregate. -/
structure AppEntity where
  id : Uuid
  slug : String
  name : String
  createdAt : Date
  updatedAt : Date
  deriving DecidableEq, Repr

inductive AppEvent where
  | created (app : AppEntity)
  | updated (app : AppEntity)
  | deleted (app : AppEntity)
  | nameChanged (id : Uuid) (oldValue newValue : String)
  | slugChanged (id : Uuid) (oldValue newValue : String)
  deriving DecidableEq, Repr

abbrev AppAggregate := Aggregate AppEntity AppEvent

structure AppProps where
  name : Option String
  slug : Option String
  deriving DecidableEq, Repr

namespace AppEntity

def nameField : Field AppEntity AppEvent String where
  get a := a.name
  set a name := { a with name }
  changed a := .nameChanged a.id

def slugField : Field AppEntity AppEvent String where
  get a := a.slug
  set a slug := { a with slug }
  changed a := .slugChanged a.id

def touch (now : Date) (a : AppEntity) : AppEntity := { a with updatedAt := now }

end AppEntity

namespace AppAggregate

def create (a : AppAggregate) : AppAggregate := a.apply (.created a.primitives)

def changeName (a : AppAggregate) (name : String) (now : Date) : AppAggregate :=
  AppEntity.nameField.change (AppEntity.touch now) a name

def changeSlug (a : AppAggregate) (slug : String) (now : Date) : AppAggregate :=
  AppEntity.slugField.change (AppEntity.touch now) a slug

def update (a : AppAggregate) (props : AppProps) (now : Date) : AppAggregate :=
  let a := props.name.elim a fun name => changeName a name now
  let a := props.slug.elim a fun slug => changeSlug a slug now
  a.apply (.updated a.primitives)

def delete (a : AppAggregate) : AppAggregate := a.apply (.deleted a.primitives)

end AppAggregate

def AppEvent.replay (a : AppEntity) : AppEvent → AppEntity
  | nameChanged id _ name => if a.id = id then { a with name } else a
  | slugChanged id _ slug => if a.id = id then { a with slug } else a
  | _ => a

def AppAggregate.updatable : Updatable AppAggregate AppEntity AppEvent AppProps Date where
  primitives := Aggregate.primitives
  events := Aggregate.events
  update := AppAggregate.update
  announced a props :=
    AppEntity.nameField.announced a props.name ++ AppEntity.slugField.announced a props.slug
  overwrite a props := { a with name := props.name.getD a.name, slug := props.slug.getD a.slug }
  updated := .updated
  updatedAt := AppEntity.updatedAt
  setUpdatedAt a now := a.touch now
  replay := AppEvent.replay

/-! ## `TenantAggregate` -/

namespace TenantEntity

def nameField : Field TenantEntity TenantEvent String where
  get t := t.name
  set t name := { t with name }
  changed t := .nameChanged t.id

def slugField : Field TenantEntity TenantEvent String where
  get t := t.slug
  set t slug := { t with slug }
  changed t := .slugChanged t.id

def touch (now : Date) (t : TenantEntity) : TenantEntity := { t with updatedAt := now }

end TenantEntity

/-- `Omit<Partial<ITenant>, 'id' | 'appId' | 'createdAt' | 'updatedAt'>`. -/
structure TenantProps where
  name : Option String
  slug : Option String
  deriving DecidableEq, Repr

def TenantEvent.replay (t : TenantEntity) : TenantEvent → TenantEntity
  | nameChanged id _ name => if t.id = id then { t with name } else t
  | slugChanged id _ slug => if t.id = id then { t with slug } else t
  | _ => t

def TenantAggregate.updatable : Updatable TenantAggregate TenantEntity TenantEvent TenantProps Date where
  primitives := TenantAggregate.primitives
  events := TenantAggregate.events
  update t props now := t.update props.name props.slug now
  announced t props :=
    TenantEntity.nameField.announced t props.name ++ TenantEntity.slugField.announced t props.slug
  overwrite t props := { t with name := props.name.getD t.name, slug := props.slug.getD t.slug }
  updated := .updated
  updatedAt := TenantEntity.updatedAt
  setUpdatedAt t now := t.touch now
  replay := TenantEvent.replay

/-! ## `TenantMembershipAggregate` -/

inductive TenantMembershipEvent where
  | created (membership : TenantMembershipEntity)
  | updated (membership : TenantMembershipEntity)
  | deleted (membership : TenantMembershipEntity)
  | roleChanged (id : Uuid) (oldValue newValue : TenantRoleEnum)
  deriving DecidableEq, Repr

abbrev TenantMembershipAggregate := Aggregate TenantMembershipEntity TenantMembershipEvent

structure TenantMembershipProps where
  role : Option TenantRoleEnum
  deriving DecidableEq, Repr

namespace TenantMembershipEntity

def roleField : Field TenantMembershipEntity TenantMembershipEvent TenantRoleEnum where
  get m := m.role
  set m role := { m with role }
  changed m := .roleChanged m.id

def touch (now : Date) (m : TenantMembershipEntity) : TenantMembershipEntity := { m with updatedAt := now }

end TenantMembershipEntity

namespace TenantMembershipAggregate

def create (m : TenantMembershipAggregate) : TenantMembershipAggregate := m.apply (.created m.primitives)

def changeRole (m : TenantMembershipAggregate) (role : TenantRoleEnum) (now : Date) :
    TenantMembershipAggregate :=
  TenantMembershipEntity.roleField.change (TenantMembershipEntity.touch now) m role

def update (m : TenantMembershipAggregate) (props : TenantMembershipProps) (now : Date) :
    TenantMembershipAggregate :=
  let m := props.role.elim m fun role => changeRole m role now
  m.apply (.updated m.primitives)

def delete (m : TenantMembershipAggregate) : TenantMembershipAggregate := m.apply (.deleted m.primitives)

end TenantMembershipAggregate

def TenantMembershipEvent.replay (m : TenantMembershipEntity) : TenantMembershipEvent → TenantMembershipEntity
  | roleChanged id _ role => if m.id = id then { m with role } else m
  | _ => m

def TenantMembershipAggregate.updatable :
    Updatable TenantMembershipAggregate TenantMembershipEntity TenantMembershipEvent TenantMembershipProps
      Date where
  primitives := Aggregate.primitives
  events := Aggregate.events
  update := TenantMembershipAggregate.update
  announced m props := TenantMembershipEntity.roleField.announced m props.role
  overwrite m props := { m with role := props.role.getD m.role }
  updated := .updated
  updatedAt := TenantMembershipEntity.updatedAt
  setUpdatedAt m now := m.touch now
  replay := TenantMembershipEvent.replay

end AccountApi

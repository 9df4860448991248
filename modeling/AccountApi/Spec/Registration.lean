import AccountApi.Spec.Session
import AccountApi.Lib.JsString
import AccountApi.Lib.Run
import Mathlib.Logic.Embedding.Basic
import Mathlib.Logic.Function.Basic

/-!
# Registration: an identity in Keycloak, then a local user

`RegisterUserCommandHandler.execute` call by call, for any number of requests at
once. No call fails for a technical reason; a value object may refuse its value, and
Keycloak and the unique constraints of the `user` table may refuse a duplicate.

The value objects come from a library (`Kit`): the value each holds is a function of
the one given to its constructor, undefined where the constructor throws.
-/

namespace AccountApi

/-- The options of a `StringValueObject`. -/
structure StringOptions where
  minLength : Option ℕ
  maxLength : Option ℕ
  trim : Bool
  deriving DecidableEq, Repr

/-- The value a value object holds, `none` when its constructor throws. -/
structure Kit where
  emailValue : String → Option String
  passwordValue : String → Option String
  stringValue : StringOptions → String → Option String

namespace Kit

variable (k : Kit)

/-- `new StringValueObject(value)`. -/
def plainValue : String → Option String := k.stringValue ⟨none, none, true⟩

def displayNameValue : String → Option String := k.stringValue ⟨some 1, some 120, true⟩

def externalIdValue : String → Option String := k.stringValue ⟨some 1, some 255, true⟩

/-- `value !== undefined ? new …(value) : undefined`. -/
def optional (value : String → Option String) : Option String → Option (Option String)
  | none => some none
  | some v => (value v).map some

/-- A value that was normalised once is accepted as it is, and an email is not empty. -/
structure Lawful : Prop where
  emailValue_again : ∀ v w, k.emailValue v = some w → k.emailValue w = some w
  emailValue_ne : ∀ v w, k.emailValue v = some w → w ≠ ""
  stringValue_again : ∀ o v w, k.stringValue o v = some w → k.stringValue o w = some w

/-- `new StringValueObject(value, options)`, its documented behaviour: trimmed unless `trim` is false,
then bounded in UTF-16 code units. -/
def boundedValue (o : StringOptions) (v : String) : Option String :=
  let w := if o.trim then JsString.trim v else v
  if o.minLength.all (· ≤ JsString.length w) && o.maxLength.all (JsString.length w ≤ ·) then some w
  else none

/-- A kit that takes everything with an `@` for an email and everything for a password. -/
def permissive : Kit where
  emailValue v := if '@' ∈ v.toList then some v else none
  passwordValue := some
  stringValue := boundedValue

theorem permissive_lawful : permissive.Lawful where
  emailValue_again v w h := by
    simp only [permissive, Option.ite_none_right_eq_some, Option.some.injEq] at h ⊢
    obtain ⟨hv, rfl⟩ := h
    exact ⟨hv, trivial⟩
  emailValue_ne v w h := by
    simp only [permissive, Option.ite_none_right_eq_some, Option.some.injEq] at h
    rintro rfl
    rw [h.2] at h
    simp at h
  stringValue_again o v w h := by
    simp only [permissive, boundedValue, Option.ite_none_right_eq_some, Option.some.injEq] at h ⊢
    obtain ⟨hb, rfl⟩ := h
    have hagain : (if o.trim then JsString.trim (if o.trim then JsString.trim v else v)
        else (if o.trim then JsString.trim v else v)) = if o.trim then JsString.trim v else v := by
      split
      · exact JsString.trim_trim v
      · rfl
    rw [hagain]
    exact ⟨hb, rfl⟩

end Kit

structure RegisterUserCommandInput where
  email : String
  password : String
  displayName : Option String
  deriving DecidableEq, Repr

structure RegisterUserCommand where
  email : String
  password : String
  displayName : Option String
  deriving DecidableEq, Repr

def RegisterUserCommand.new (k : Kit) (input : RegisterUserCommandInput) :
    Option RegisterUserCommand := do
  let email ← k.emailValue input.email
  let password ← k.passwordValue input.password
  let displayName ← Kit.optional k.plainValue input.displayName
  return { email, password, displayName }

structure CreateUserCommand where
  externalId : String
  email : String
  displayName : Option String
  deriving DecidableEq, Repr

def CreateUserCommand.new (k : Kit) (externalId email : String) (displayName : Option String) :
    Option CreateUserCommand := do
  let externalId ← k.externalIdValue externalId
  let email ← k.emailValue email
  let displayName ← Kit.optional k.displayNameValue displayName
  return { externalId, email, displayName }

inductive RegisterError where
  | emailAlreadyRegistered (email : String)
  | userEmailAlreadyRegistered (email : String)
  /-- A value object or the builder refused a value. -/
  | invalidValue
  /-- A unique constraint rejected the INSERT. -/
  | queryFailed
  deriving DecidableEq, Repr

/-! ## Keycloak -/

structure KeycloakAccount where
  subject : String
  username : String
  email : String
  firstName : String
  lastName : String
  password : String
  deriving DecidableEq, Repr

/-- The account `registerIdentity` posts; Keycloak gives it its subject. -/
def RegisterUserCommand.identity (c : RegisterUserCommand) (subject : String) : KeycloakAccount :=
  let trimmed := (c.displayName.map JsString.trim).getD ""
  let nameSource := if trimmed = "" then JsString.beforeFirst '@' c.email else trimmed
  let words := JsString.splitWhiteSpace nameSource
  let firstName := words.headI
  { subject, username := c.email, email := c.email, firstName
    lastName := if words.tail = [] then firstName else String.intercalate " " words.tail
    password := c.password }

/-! ## The `user` table -/

structure UserEntity where
  id : Uuid
  externalId : String
  email : String
  displayName : Option String
  platformAdmin : Bool
  createdAt : Date
  updatedAt : Date
  deriving DecidableEq, Repr

/-- `UserBuilder.build()` as `CreateUserCommandHandler` uses it. -/
def CreateUserCommand.build (k : Kit) (c : CreateUserCommand) (id : Uuid) (now : Date) :
    Option UserEntity := do
  guard (c.externalId ≠ "" ∧ c.email ≠ "")
  let externalId ← k.externalIdValue c.externalId
  let email ← k.emailValue c.email
  let displayName ← Kit.optional k.displayNameValue c.displayName
  return { id, externalId, email, displayName, platformAdmin := false, createdAt := now, updatedAt := now }

def userByEmail (users : List UserEntity) (email : String) : Option UserEntity :=
  users.find? fun u => u.email = email

/-- `save`, under `UQ_user_external_id` and `UQ_user_email`. -/
def saveUser : List UserEntity → UserEntity → Option (List UserEntity) :=
  Table.upsert (·.id) fun x u => x.externalId = u.externalId || x.email = u.email

inductive RegistrationPhase where
  | received
  | accepted (c : RegisterUserCommand)
  /-- `findByEmail` answered `null`. -/
  | available (c : RegisterUserCommand)
  /-- The account exists in Keycloak. -/
  | identified (c : RegisterUserCommand) (externalId : String)
  | provisioning (c : CreateUserCommand)
  /-- `AssertUserEmailAvailableService` found no user. -/
  | emailAvailable (c : CreateUserCommand)
  | registered (user : UserEntity)
  | failed (error : RegisterError)
  deriving DecidableEq

def RegistrationPhase.inProgress : RegistrationPhase → Bool
  | received | registered _ | failed _ => false
  | _ => true

/-- The requests and what Keycloak and the server generate for them; both are random. -/
structure Registrations (ι : Type) where
  kit : Kit
  /-- What Keycloak compares accounts by. -/
  accountKey : String → String
  requests : ι → RegisterUserCommandInput
  newSubject : ι ↪ String
  newUserId : ι ↪ Uuid

structure RegistrationState (ι : Type) where
  accounts : List KeycloakAccount
  users : List UserEntity
  phase : ι → RegistrationPhase

namespace Registrations

variable {ι : Type} (S : Registrations ι)

def start (accounts : List KeycloakAccount) (users : List UserEntity) : RegistrationState ι :=
  ⟨accounts, users, fun _ => .received⟩

/-- The next call of request `i`: the accounts and the users after it, and where it leads. -/
def advance (i : ι) (now : Date) (accounts : List KeycloakAccount) (users : List UserEntity) :
    RegistrationPhase → Option (List KeycloakAccount × List UserEntity × RegistrationPhase)
  | .received =>
    match RegisterUserCommand.new S.kit (S.requests i) with
    | none => some (accounts, users, .failed .invalidValue)
    | some c => some (accounts, users, .accepted c)
  | .accepted c =>
    -- `UserFindByEmailQuery` wraps the email once more
    match S.kit.emailValue c.email with
    | none => some (accounts, users, .failed .invalidValue)
    | some email =>
      if (userByEmail users email).isSome then
        some (accounts, users, .failed (.emailAlreadyRegistered c.email))
      else some (accounts, users, .available c)
  | .available c =>
    if accounts.any fun a => S.accountKey a.email = S.accountKey c.email then
      some (accounts, users, .failed (.emailAlreadyRegistered c.email))
    else some (accounts ++ [c.identity (S.newSubject i)], users, .identified c (S.newSubject i))
  | .identified c externalId =>
    match CreateUserCommand.new S.kit externalId c.email c.displayName with
    | none => some (accounts, users, .failed .invalidValue)
    | some c' => some (accounts, users, .provisioning c')
  | .provisioning c =>
    if (userByEmail users c.email).isSome then
      some (accounts, users, .failed (.userEmailAlreadyRegistered c.email))
    else some (accounts, users, .emailAvailable c)
  | .emailAvailable c =>
    match c.build S.kit (S.newUserId i) now with
    | none => some (accounts, users, .failed .invalidValue)
    | some user =>
      match saveUser users user with
      | none => some (accounts, users, .failed .queryFailed)
      | some users' => some (accounts, users', .registered user)
  | .registered _ | .failed _ => none

def step [DecidableEq ι] (s : RegistrationState ι) (a : ι × Date) : Option (RegistrationState ι) :=
  (S.advance a.1 a.2 s.accounts s.users (s.phase a.1)).map fun q =>
    ⟨q.1, q.2.1, Function.update s.phase a.1 q.2.2⟩

end Registrations

end AccountApi

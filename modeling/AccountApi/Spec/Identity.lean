import AccountApi.Spec.Config
import AccountApi.Spec.Database
import AccountApi.Spec.TenantAccess

/-!
# Logins and refreshes over the `user` table

Any number of registrations, logins and refreshes, interleaved call by call. A login
verifies its credentials at Keycloak, finds the local user by email, reconciles the
platform-admin flag with `PLATFORM_ADMIN_EMAILS` and signs the claims. A refresh is
followed from the lookup of its user on; its rotation, which reads and writes sessions
only, is in `Spec.Rotation`.

Any call of a login or a refresh may fail for a technical reason. `findMembershipsByUserId`
reads a table that is not modelled here, so that its answer comes with the step.
-/

namespace AccountApi

structure LoginUserCommand where
  email : String
  password : String
  deriving DecidableEq, Repr

/-- `LoginPasswordValueObject` bounds the password from below only. -/
def LoginUserCommand.new (k : Kit) (email password : String) : Option LoginUserCommand := do
  let email ← k.emailValue email
  let password ← k.stringValue ⟨some 1, none, false⟩ password
  return { email, password }

structure UserLookupResult where
  userId : Uuid
  email : String
  platformAdmin : Bool
  deriving DecidableEq, Repr

/-- `UserLookupAdapter.toResult`. -/
def UserEntity.toResult (u : UserEntity) : UserLookupResult := ⟨u.id, u.email, u.platformAdmin⟩

/-- `IAccessTokenClaims`, as they are signed. -/
structure SignedClaims where
  sub : Uuid
  email : String
  platformAdmin : Bool
  tenants : List TenantMembershipClaim
  deriving DecidableEq, Repr

/-- The claims of a user with the given flag. -/
def UserLookupResult.claims (u : UserLookupResult) (platformAdmin : Bool)
    (tenants : List TenantMembershipClaim) : SignedClaims := ⟨u.userId, u.email, platformAdmin, tenants⟩

/-- `ReconcilePlatformAdminService`: the flag to store and to sign, `none` when nothing changes. -/
def reconcilePlatformAdmin (toLowerCase : String → String) (email : String) (currentPlatformAdmin : Bool)
    (platformAdminEmails : Option (List String)) : Option Bool :=
  match platformAdminEmails with
  | none => none
  | some platformAdminEmails =>
    let normalizedEmail := toLowerCase (JsString.trim email)
    let shouldBeAdmin := platformAdminEmails.contains normalizedEmail
    if shouldBeAdmin = currentPlatformAdmin then none else some shouldBeAdmin

inductive TokenRequest where
  | login (email password : String)
  /-- A refresh whose rotation was committed, for a session of the user. -/
  | refresh (userId : Uuid)
  deriving DecidableEq, Repr

inductive TokenError where
  | auth (error : AuthError)
  /-- A value object refused a value. -/
  | invalidValue
  | userNotFound (id : Uuid)
  /-- A unique constraint rejected the UPDATE. -/
  | queryFailed
  deriving DecidableEq, Repr

/-- Where a login or a refresh stands. `externalId` is the subject Keycloak verified, `none` for a
refresh; the handler of a login does not use it. -/
inductive TokenPhase where
  | received
  | accepted (c : LoginUserCommand)
  | verified (c : LoginUserCommand) (externalId : String)
  | userFound (externalId : Option String) (user : UserLookupResult)
  | tenantsFound (externalId : Option String) (user : UserLookupResult)
      (tenants : List TenantMembershipClaim)
  /-- `setPlatformAdmin(user.userId, target)` is next. -/
  | reconciling (externalId : String) (user : UserLookupResult) (tenants : List TenantMembershipClaim)
      (target : Bool)
  /-- `SetUserPlatformAdminCommandHandler` has updated the aggregate, `save` is next. -/
  | saving (externalId : String) (claims : SignedClaims) (user : UserAggregate)
  /-- Its row is saved, its events are not published yet. -/
  | publishing (externalId : String) (claims : SignedClaims)
  | signing (externalId : Option String) (claims : SignedClaims)
  /-- The token of a login is signed, its session not stored yet. -/
  | signed (externalId : String) (claims : SignedClaims)
  | returned (externalId : Option String) (claims : SignedClaims)
  | failed (error : TokenError)
  deriving DecidableEq

namespace TokenPhase

def finished : TokenPhase → Bool
  | returned _ _ | failed _ => true
  | _ => false

/-- The login has passed the reconciliation of the flag; the id of its user. -/
def reconciled : TokenPhase → Option Uuid
  | publishing _ c | signing (some _) c | signed _ c | returned (some _) c => some c.sub
  | _ => none

end TokenPhase

/-- Registrations of `ι`, logins and refreshes of `κ`, and what they depend on. -/
structure Identity (ι κ : Type) where
  registrations : Registrations ι
  toLowerCase : String → String
  env : ProcessEnv
  /-- Keycloak takes the password for the account. -/
  accepts : KeycloakAccount → String → Bool
  requests : κ → TokenRequest

structure IdentityState (ι κ : Type) where
  registration : RegistrationState ι
  tokens : κ → TokenPhase

inductive IdentityEvent (ι κ : Type) where
  | register (i : ι) (now : Date)
  /-- The next call of a login or a refresh; `tenants` are the memberships of its user, when it reads
  them. -/
  | token (j : κ) (now : Date) (tenants : List TenantMembershipClaim)
  /-- The next call of a login or a refresh fails. -/
  | failure (j : κ)
  deriving DecidableEq

namespace Identity

variable {ι κ : Type} (S : Identity ι κ)

def start (accounts : List KeycloakAccount) (users : List UserEntity) : IdentityState ι κ :=
  ⟨Registrations.start accounts users, fun _ => .received⟩

/-- `auth.platformAdminEmails`. -/
def platformAdminEmails : Option (List String) :=
  parsePlatformAdminEmails S.toLowerCase (S.env "PLATFORM_ADMIN_EMAILS")

/-- Keycloak's answer to `verifyCredentials`: the account it keeps for the email, if it takes the
password for it. -/
def verifyCredentials (accounts : List KeycloakAccount) (c : LoginUserCommand) : Option KeycloakAccount :=
  accounts.find? fun a =>
    S.registrations.accountKey a.email = S.registrations.accountKey c.email && S.accepts a c.password

/-- The next call of a login or a refresh: the users after it, and where it leads. -/
def advance (j : κ) (now : Date) (tenants : List TenantMembershipClaim)
    (accounts : List KeycloakAccount) (users : List UserEntity) :
    TokenPhase → Option (List UserEntity × TokenPhase)
  | .received =>
    match S.requests j with
    | .login email password =>
      match LoginUserCommand.new S.registrations.kit email password with
      | none => some (users, .failed .invalidValue)
      | some c => some (users, .accepted c)
    | .refresh userId =>
      match userById users userId with
      | none => some (users, .failed (.auth .invalidRefreshToken))
      | some u => some (users, .userFound none u.toResult)
  | .accepted c =>
    match S.verifyCredentials accounts c with
    | none => some (users, .failed (.auth .invalidCredentials))
    | some a => some (users, .verified c a.subject)
  | .verified c externalId =>
    -- `UserFindByEmailQuery` wraps the email once more
    match S.registrations.kit.emailValue c.email with
    | none => some (users, .failed .invalidValue)
    | some email =>
      match userByEmail users email with
      | none => some (users, .failed (.auth .invalidCredentials))
      | some u => some (users, .userFound (some externalId) u.toResult)
  | .userFound externalId user => some (users, .tenantsFound externalId user tenants)
  | .tenantsFound none user tenants => some (users, .signing none (user.claims user.platformAdmin tenants))
  | .tenantsFound (some externalId) user tenants =>
    match reconcilePlatformAdmin S.toLowerCase user.email user.platformAdmin S.platformAdminEmails with
    | none => some (users, .signing (some externalId) (user.claims user.platformAdmin tenants))
    | some target => some (users, .reconciling externalId user tenants target)
  | .reconciling externalId user tenants target =>
    match userById users user.userId with
    | none => some (users, .failed (.userNotFound user.userId))
    | some u =>
      -- the row may have the flag by now
      if u.platformAdmin = target then some (users, .signing (some externalId) (user.claims target tenants))
      else
        let u := u.toAggregate.update ⟨none, none, some target⟩ now
        some (users, .saving externalId (user.claims target tenants) u)
  | .saving externalId claims u =>
    match saveUser users u.primitives with
    | none => some (users, .failed .queryFailed)
    | some users' => some (users', .publishing externalId claims)
  | .publishing externalId claims => some (users, .signing (some externalId) claims)
  | .signing (some externalId) claims => some (users, .signed externalId claims)
  | .signing none claims => some (users, .returned none claims)
  | .signed externalId claims => some (users, .returned (some externalId) claims)
  | .returned _ _ | .failed _ => none

def step [DecidableEq ι] [DecidableEq κ] (s : IdentityState ι κ) :
    IdentityEvent ι κ → Option (IdentityState ι κ)
  | .register i now => (S.registrations.step s.registration (i, now)).map fun r => { s with registration := r }
  | .token j now tenants =>
    (S.advance j now tenants s.registration.accounts s.registration.users (s.tokens j)).map fun q =>
      ⟨{ s.registration with users := q.1 }, Function.update s.tokens j q.2⟩
  | .failure j =>
    if (s.tokens j).finished then none
    else some { s with tokens := Function.update s.tokens j (.failed (.auth .failure)) }

/-- The email is one of the comma-separated ones, up to white space at the ends and capitals. -/
def IsTarget (raw email : String) : Prop :=
  ∃ segment ∈ JsString.split ',' raw, S.toLowerCase (JsString.trim segment) ≠ "" ∧
    S.toLowerCase (JsString.trim segment) = S.toLowerCase (JsString.trim email)

end Identity

end AccountApi

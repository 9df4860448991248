import AccountApi.Spec.Identity

/-!
# The response to a request that failed

`BaseExceptionFilter` over HTTP, with the resolvers of the four contexts. What it does not catch is
answered by Nest, with status 500.
-/

namespace AccountApi

/-- What extends `BaseException`. -/
inductive BaseException where
  | userEmailAlreadyRegistered (email : String)
  | userNotFound (identifier : String)
  | emailAlreadyRegistered (email : String)
  | invalidCredentials
  | invalidRefreshToken
  | refreshTokenReuseDetected
  | appSlugAlreadyExists (slug : String)
  | appNotFound (identifier : String)
  | tenantSlugAlreadyExists (slug appId : String)
  | tenantMembershipAlreadyExists (tenantId userId : String)
  | tenantNotFound (identifier : String)
  | memberUserNotFound (identifier : String)
  | notTenantOwner (tenantId userId : String)
  /-- An exception of the package. -/
  | ofKit (name message : String)
  deriving DecidableEq, Repr

namespace BaseException

def name : BaseException → String
  | userEmailAlreadyRegistered _ => "UserEmailAlreadyRegisteredException"
  | userNotFound _ => "UserNotFoundException"
  | emailAlreadyRegistered _ => "EmailAlreadyRegisteredException"
  | invalidCredentials => "InvalidCredentialsException"
  | invalidRefreshToken => "InvalidRefreshTokenException"
  | refreshTokenReuseDetected => "RefreshTokenReuseDetectedException"
  | appSlugAlreadyExists _ => "AppSlugAlreadyExistsException"
  | appNotFound _ => "AppNotFoundException"
  | tenantSlugAlreadyExists _ _ => "TenantSlugAlreadyExistsException"
  | tenantMembershipAlreadyExists _ _ => "TenantMembershipAlreadyExistsException"
  | tenantNotFound _ => "TenantNotFoundException"
  | memberUserNotFound _ => "MemberUserNotFoundException"
  | notTenantOwner _ _ => "NotTenantOwnerException"
  | ofKit name _ => name

def message : BaseException → String
  | userEmailAlreadyRegistered email | emailAlreadyRegistered email =>
    "A user with email \"" ++ email ++ "\" is already registered"
  | userNotFound identifier => "User \"" ++ identifier ++ "\" was not found"
  | invalidCredentials => "Invalid email or password"
  | invalidRefreshToken => "Refresh token is invalid, expired, or already used"
  | refreshTokenReuseDetected => "Refresh token reuse detected; session chain invalidated"
  | appSlugAlreadyExists slug => "An app with slug \"" ++ slug ++ "\" already exists"
  | appNotFound identifier => "App \"" ++ identifier ++ "\" was not found"
  | tenantSlugAlreadyExists slug appId =>
    "A tenant with slug \"" ++ slug ++ "\" already exists for app \"" ++ appId ++ "\""
  | tenantMembershipAlreadyExists tenantId userId =>
    "User \"" ++ userId ++ "\" is already a member of tenant \"" ++ tenantId ++ "\""
  | tenantNotFound identifier => "Tenant \"" ++ identifier ++ "\" was not found"
  | memberUserNotFound identifier => "No user found for \"" ++ identifier ++ "\" to add as a tenant member"
  | notTenantOwner tenantId userId => "User \"" ++ userId ++ "\" is not an owner of tenant \"" ++ tenantId ++ "\""
  | ofKit _ message => message

/-! ## The filter -/

def resolveUserExceptionStatus : BaseException → Option ℕ
  | userEmailAlreadyRegistered _ => some 409
  | userNotFound _ => some 404
  | _ => none

def resolveAuthExceptionStatus : BaseException → Option ℕ
  | emailAlreadyRegistered _ => some 409
  | invalidCredentials | invalidRefreshToken | refreshTokenReuseDetected => some 401
  | _ => none

def resolveAppExceptionStatus : BaseException → Option ℕ
  | appSlugAlreadyExists _ => some 409
  | appNotFound _ => some 404
  | _ => none

def resolveTenancyExceptionStatus : BaseException → Option ℕ
  | tenantSlugAlreadyExists _ _ | tenantMembershipAlreadyExists _ _ => some 409
  | tenantNotFound _ | memberUserNotFound _ => some 404
  | notTenantOwner _ _ => some 403
  | _ => none

def exceptionStatusResolvers : List (BaseException → Option ℕ) :=
  [resolveUserExceptionStatus, resolveAuthExceptionStatus, resolveAppExceptionStatus, resolveTenancyExceptionStatus]

def resolveStatus (e : BaseException) : ℕ := (exceptionStatusResolvers.findSome? fun resolve => resolve e).getD 400

end BaseException

structure ErrorResponse where
  statusCode : ℕ
  message : String
  error : Option String
  deriving DecidableEq, Repr

/-- `BaseExceptionFilter.catch` for an HTTP host. -/
def baseExceptionFilter (e : BaseException) : ErrorResponse := ⟨e.resolveStatus, e.message, some e.name⟩

def internalServerError : ErrorResponse := ⟨500, "Internal server error", none⟩

/-! ## Logins and refreshes -/

/-- What the value objects throw for a request that they refuse, and how an id is written. -/
structure Refusals where
  refused : TokenRequest → BaseException
  identifier : Uuid → String

/-- The response to a request that has failed with the error. -/
def Refusals.response (R : Refusals) (request : TokenRequest) : TokenError → ErrorResponse
  | .auth .invalidCredentials => baseExceptionFilter .invalidCredentials
  | .auth .invalidRefreshToken => baseExceptionFilter .invalidRefreshToken
  | .auth .refreshTokenReuseDetected => baseExceptionFilter .refreshTokenReuseDetected
  | .invalidValue => baseExceptionFilter (R.refused request)
  | .userNotFound id => baseExceptionFilter (.userNotFound (R.identifier id))
  | .auth .failure | .queryFailed => internalServerError

/-- The response to a failed login as far as it depends on the request alone: 400 with what the value
objects say, or 401. -/
def Refusals.loginResponse (R : Refusals) (k : Kit) (email password : String) : ErrorResponse :=
  match LoginUserCommand.new k email password with
  | none => baseExceptionFilter (R.refused (.login email password))
  | some _ => ⟨401, "Invalid email or password", some "InvalidCredentialsException"⟩

end AccountApi

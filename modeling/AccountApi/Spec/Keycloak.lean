import AccountApi.Lib.Base64
import AccountApi.Spec.Identity

/-!
# The Keycloak adapter

`KeycloakIdentityProviderAdapter` call by call, over any HTTP service: a state and what a POST does to
it. A reply with a status outside 2xx, or none at all, is thrown by the HTTP client.

`Keycloak` is the service the adapter is written for, with what it documents of the two endpoints, and
with faults: a call may find it down, its reply may get lost or be a server error after the work was
done, and a proxy may drop the headers of the reply.

`HttpIdentity` are the registrations and logins of `Spec.Identity` with the adapter for their identity
provider: one POST a step, each with its own fault.
-/

namespace AccountApi

/-- The body of the request that creates a user. -/
structure UserRepresentation where
  username : String
  email : String
  firstName : String
  lastName : String
  enabled : Bool
  emailVerified : Bool
  /-- `credentials`: one of type `password`, not temporary. -/
  password : String
  deriving DecidableEq, Repr

inductive HttpBody where
  | form (fields : List (String × String))
  | json (user : UserRepresentation)
  deriving DecidableEq, Repr

structure HttpPost where
  url : String
  body : HttpBody
  headers : List (String × String)
  deriving DecidableEq, Repr

structure HttpResponse where
  /-- `headers['location']`. -/
  location : Option String
  /-- `data.access_token`. -/
  accessToken : Option String
  deriving DecidableEq, Repr

/-- What the client throws; `response` is missing when there was no reply. -/
structure AxiosError where
  /-- The status and the JSON of the data. -/
  response : Option (ℕ × String)
  deriving DecidableEq, Repr

/-- A service that answers POST requests. -/
abbrev HttpService (σ : Type) := HttpPost → σ → Except AxiosError HttpResponse × σ

/-! ## The adapter -/

structure KeycloakConfig where
  baseUrl : String
  realm : String
  clientId : String
  clientSecret : String
  deriving DecidableEq, Repr

structure RegisterIdentityInput where
  email : String
  password : String
  displayName : Option String
  deriving DecidableEq, Repr

structure VerifyCredentialsInput where
  email : String
  password : String
  deriving DecidableEq, Repr

inductive KeycloakError where
  | emailAlreadyRegistered (email : String)
  | error (message : String)
  /-- What decoding a token threw. -/
  | malformedToken
  deriving DecidableEq, Repr

/-- `firstName` and `lastName`. -/
def RegisterIdentityInput.names (input : RegisterIdentityInput) : String × String :=
  let trimmed := (input.displayName.map JsString.trim).getD ""
  let nameSource := if trimmed = "" then JsString.beforeFirst '@' input.email else trimmed
  let words := JsString.splitWhiteSpace nameSource
  let firstName := words.headI
  (firstName, if words.tail = [] then firstName else String.intercalate " " words.tail)

/-- `${status}`, `undefined` without a response. -/
def AxiosError.status (e : AxiosError) : String := (e.response.map fun r => toString r.1).getD "undefined"

/-- `${JSON.stringify(data)}`. -/
def AxiosError.data (e : AxiosError) : String := (e.response.map (·.2)).getD "undefined"

/-- The adapter; `payloadSub` is `JSON.parse(buffer.toString('utf8')).sub`, `none` when that throws. -/
structure KeycloakIdentityProviderAdapter where
  config : KeycloakConfig
  payloadSub : List UInt8 → Option (Option String)

namespace KeycloakIdentityProviderAdapter

variable (A : KeycloakIdentityProviderAdapter) {σ : Type} (http : HttpService σ)

def tokenUrl : String := A.config.baseUrl ++ "/realms/" ++ A.config.realm ++ "/protocol/openid-connect/token"

def usersUrl : String := A.config.baseUrl ++ "/admin/realms/" ++ A.config.realm ++ "/users"

/-- `firstValueFrom(this.httpService.post(…))`. -/
def post (request : HttpPost) : EStateM KeycloakError σ (Except AxiosError HttpResponse) := fun s =>
  let (reply, s) := http request s
  .ok reply s

/-- `new URLSearchParams(…)` of `getServiceAccountToken`. -/
def clientForm : List (String × String) :=
  [("grant_type", "client_credentials"), ("client_id", A.config.clientId), ("client_secret", A.config.clientSecret)]

/-- `new URLSearchParams(…)` of `verifyCredentials`. -/
def passwordForm (input : VerifyCredentialsInput) : List (String × String) :=
  [("grant_type", "password"), ("client_id", A.config.clientId), ("client_secret", A.config.clientSecret),
    ("username", input.email), ("password", input.password)]

def getServiceAccountToken : EStateM KeycloakError σ (Option String) := do
  match ← post http ⟨A.tokenUrl, .form A.clientForm, [("Content-Type", "application/x-www-form-urlencoded")]⟩ with
  | .error e => throw (.error ("Failed to obtain a Keycloak service-account token (" ++ e.status ++ ")"))
  | .ok response => return response.accessToken

/-- The account the input asks for. -/
def representation (input : RegisterIdentityInput) : UserRepresentation where
  username := input.email
  email := input.email
  firstName := input.names.1
  lastName := input.names.2
  enabled := true
  emailVerified := true
  password := input.password

/-- `registerIdentity`, once it has its token. -/
def createIdentity (input : RegisterIdentityInput) (token : Option String) : EStateM KeycloakError σ String := do
  match ← post http ⟨A.usersUrl, .json (representation input),
      [("Authorization", "Bearer " ++ token.getD "undefined")]⟩ with
  | .error e =>
    if e.response.map (·.1) = some 409 then throw (.emailAlreadyRegistered input.email)
    else throw (.error ("Keycloak user creation failed (" ++ e.status ++ "): " ++ e.data))
  | .ok response =>
    let externalId := (response.location.bind fun l => (JsString.split '/' l).getLast?).getD ""
    if externalId = "" then throw (.error "Keycloak did not return a Location header with the new user id")
    else return externalId

def registerIdentity (input : RegisterIdentityInput) : EStateM KeycloakError σ String := do
  let token ← A.getServiceAccountToken http
  A.createIdentity http input token

/-- `decodeSub`, `none` when it throws. -/
def decodeSub (jwt : String) : Option (Option String) :=
  match (JsString.split '.' jwt)[1]? with
  | none => none
  | some payloadSegment => A.payloadSub (Base64.decode payloadSegment)

def verifyCredentials (input : VerifyCredentialsInput) : EStateM KeycloakError σ (Option String) := do
  match ← post http ⟨A.tokenUrl, .form (A.passwordForm input),
      [("Content-Type", "application/x-www-form-urlencoded")]⟩ with
  | .error _ => throw (.error "Keycloak rejected the credentials")
  | .ok response =>
    match response.accessToken.bind A.decodeSub with
    | none => throw .malformedToken
    | some externalId => return externalId

end KeycloakIdentityProviderAdapter

/-! ## Keycloak -/

inductive HttpFault where
  /-- A reply with status 503, and nothing done. -/
  | unavailable
  /-- No reply, and nothing done. -/
  | unreachable
  /-- No reply, but the request was carried out. -/
  | replyLost
  /-- A reply with status `500 + code`, as of a gateway that times out, but the request was carried out. -/
  | serverError (code : Fin 100) (data : String)
  /-- The reply without its headers. -/
  | headersLost
  deriving DecidableEq, Repr

/-- A Keycloak server with one realm and one client. -/
structure Keycloak where
  config : KeycloakConfig
  /-- What accounts are compared by. -/
  accountKey : String → String
  /-- The password is right for the account. -/
  accepts : KeycloakAccount → String → Bool
  serviceToken : String
  /-- The three parts of the token of a subject; the payload holds it. -/
  header : List UInt8
  payload : String → List UInt8
  signature : String → List UInt8

structure KeycloakState where
  accounts : List KeycloakAccount
  /-- The subject of the next account; it is random. -/
  nextSubject : String
  /-- What goes wrong with the calls to come. -/
  faults : List (Option HttpFault)
  deriving DecidableEq, Repr

namespace Keycloak

variable (K : Keycloak)

def userToken (subject : String) : String :=
  Base64.encode K.header ++ "." ++ Base64.encode (K.payload subject) ++ "." ++ Base64.encode (K.signature subject)

def clientKnown (fields : List (String × String)) : Bool :=
  fields.lookup "client_id" = some K.config.clientId && fields.lookup "client_secret" = some K.config.clientSecret

/-- The token endpoint. -/
def issueToken (fields : List (String × String)) (accounts : List KeycloakAccount) :
    Except AxiosError HttpResponse :=
  if !K.clientKnown fields then .error ⟨some (401, "\x7b\"error\":\"invalid_client\"\x7d")⟩
  else
    match fields.lookup "grant_type" with
    | some "client_credentials" => .ok ⟨none, some K.serviceToken⟩
    | some "password" =>
      match accounts.find? fun a =>
          K.accountKey a.email = K.accountKey ((fields.lookup "username").getD "") &&
            K.accepts a ((fields.lookup "password").getD "") with
      | some a => .ok ⟨none, some (K.userToken a.subject)⟩
      | none => .error ⟨some (401, "\x7b\"error\":\"invalid_grant\"\x7d")⟩
    | _ => .error ⟨some (400, "\x7b\"error\":\"unsupported_grant_type\"\x7d")⟩

def account (subject : String) (u : UserRepresentation) : KeycloakAccount :=
  ⟨subject, u.username, u.email, u.firstName, u.lastName, u.password⟩

/-- The endpoint that creates a user. -/
def createUser (url : String) (headers : List (String × String)) (u : UserRepresentation) (s : KeycloakState) :
    Except AxiosError HttpResponse × KeycloakState :=
  if headers.lookup "Authorization" ≠ some ("Bearer " ++ K.serviceToken) then
    (.error ⟨some (401, "\x7b\"error\":\"HTTP 401 Unauthorized\"\x7d")⟩, s)
  else if s.accounts.any fun a => K.accountKey a.email = K.accountKey u.email then
    (.error ⟨some (409, "\x7b\"errorMessage\":\"User exists with same username\"\x7d")⟩, s)
  else
    (.ok ⟨some (url ++ "/" ++ s.nextSubject), none⟩,
      { s with accounts := s.accounts ++ [account s.nextSubject u] })

def tokenEndpoint : String := K.config.baseUrl ++ "/realms/" ++ K.config.realm ++ "/protocol/openid-connect/token"

def usersEndpoint : String := K.config.baseUrl ++ "/admin/realms/" ++ K.config.realm ++ "/users"

/-- A request that is carried out. -/
def handle (request : HttpPost) (s : KeycloakState) : Except AxiosError HttpResponse × KeycloakState :=
  match request.body with
  | .form fields =>
    if request.url = K.tokenEndpoint then (K.issueToken fields s.accounts, s)
    else (.error ⟨some (404, "")⟩, s)
  | .json u =>
    if request.url = K.usersEndpoint then K.createUser request.url request.headers u s
    else (.error ⟨some (404, "")⟩, s)

def service : HttpService KeycloakState := fun request s =>
  let fault := s.faults.head?.join
  let s := { s with faults := s.faults.tail }
  match fault with
  | none => K.handle request s
  | some .unavailable => (.error ⟨some (503, "")⟩, s)
  | some .unreachable => (.error ⟨none⟩, s)
  | some .replyLost => (.error ⟨none⟩, (K.handle request s).2)
  | some (.serverError code data) => (.error ⟨some (500 + (code : ℕ), data)⟩, (K.handle request s).2)
  | some .headersLost => ((K.handle request s).1.map fun r => { r with location := none }, (K.handle request s).2)

end Keycloak

/-! ## Registrations and logins over HTTP -/

inductive HttpRegistrationPhase where
  | handler (p : RegistrationPhase)
  /-- `registerIdentity` has its service-account token. -/
  | authorized (c : RegisterUserCommand) (token : Option String)
  /-- The adapter threw an error of its own. -/
  | failed (error : KeycloakError)
  deriving DecidableEq

/-- The registrations and logins, and the Keycloak server they talk to. -/
structure HttpIdentity (ι κ : Type) where
  identity : Identity ι κ
  adapter : KeycloakIdentityProviderAdapter
  keycloak : Keycloak

structure HttpIdentityState (ι κ : Type) where
  accounts : List KeycloakAccount
  users : List UserEntity
  registrations : ι → HttpRegistrationPhase
  tokens : κ → TokenPhase

/-- As for `IdentityEvent`, with the fault of the POST, if the step makes one. -/
inductive HttpIdentityEvent (ι κ : Type) where
  | register (i : ι) (now : Date) (fault : Option HttpFault)
  | token (j : κ) (now : Date) (tenants : List TenantMembershipClaim) (fault : Option HttpFault)
  | failure (j : κ)
  deriving DecidableEq

namespace HttpIdentity

variable {ι κ : Type} (H : HttpIdentity ι κ)

def start (accounts : List KeycloakAccount) (users : List UserEntity) : HttpIdentityState ι κ :=
  ⟨accounts, users, fun _ => .handler .received, fun _ => .received⟩

/-- The next call of a registration: the accounts and the users after it, and where it leads. -/
def advance (i : ι) (now : Date) (fault : Option HttpFault) (accounts : List KeycloakAccount)
    (users : List UserEntity) :
    HttpRegistrationPhase → Option (List KeycloakAccount × List UserEntity × HttpRegistrationPhase)
  | .handler (.available c) =>
    match H.adapter.getServiceAccountToken H.keycloak.service
        ⟨accounts, H.identity.registrations.newSubject i, [fault]⟩ with
    | .ok token keycloak => some (keycloak.accounts, users, .authorized c token)
    | .error e keycloak => some (keycloak.accounts, users, .failed e)
  | .authorized c token =>
    match H.adapter.createIdentity H.keycloak.service ⟨c.email, c.password, c.displayName⟩ token
        ⟨accounts, H.identity.registrations.newSubject i, [fault]⟩ with
    | .ok externalId keycloak => some (keycloak.accounts, users, .handler (.identified c externalId))
    | .error (.emailAlreadyRegistered email) keycloak =>
      some (keycloak.accounts, users, .handler (.failed (.emailAlreadyRegistered email)))
    | .error e keycloak => some (keycloak.accounts, users, .failed e)
  | .handler p =>
    (H.identity.registrations.advance i now accounts users p).map fun q => (q.1, q.2.1, .handler q.2.2)
  | .failed _ => none

/-- The next call of a login or a refresh; the handler of a login drops the subject and the error. -/
def advanceToken (j : κ) (now : Date) (tenants : List TenantMembershipClaim) (fault : Option HttpFault)
    (accounts : List KeycloakAccount) (users : List UserEntity) : TokenPhase → Option (List UserEntity × TokenPhase)
  | .accepted c =>
    match H.adapter.verifyCredentials H.keycloak.service ⟨c.email, c.password⟩ ⟨accounts, "", [fault]⟩ with
    | .ok externalId _ => some (users, .verified c (externalId.getD ""))
    | .error _ _ => some (users, .failed (.auth .invalidCredentials))
  | p => H.identity.advance j now tenants accounts users p

def step [DecidableEq ι] [DecidableEq κ] (s : HttpIdentityState ι κ) :
    HttpIdentityEvent ι κ → Option (HttpIdentityState ι κ)
  | .register i now fault => (H.advance i now fault s.accounts s.users (s.registrations i)).map fun q =>
    { s with accounts := q.1, users := q.2.1, registrations := Function.update s.registrations i q.2.2 }
  | .token j now tenants fault => (H.advanceToken j now tenants fault s.accounts s.users (s.tokens j)).map fun q =>
    { s with users := q.1, tokens := Function.update s.tokens j q.2 }
  | .failure j =>
    if (s.tokens j).finished then none
    else some { s with tokens := Function.update s.tokens j (.failed (.auth .failure)) }

/-- The server is the one that `Identity` describes; a subject is a UUID, and the payload of a token
names it. -/
structure Documented : Prop where
  accountKey : H.keycloak.accountKey = H.identity.registrations.accountKey
  accepts : H.keycloak.accepts = H.identity.accepts
  subjects : ∀ i, H.identity.registrations.newSubject i ≠ "" ∧
    '/' ∉ (H.identity.registrations.newSubject i).toList
  payload : ∀ subject, H.adapter.payloadSub (H.keycloak.payload subject) = some (some subject)

end HttpIdentity

end AccountApi

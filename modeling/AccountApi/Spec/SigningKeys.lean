import AccountApi.Spec.Config
import AccountApi.Spec.Identity

/-!
# Signing keys, access tokens and the guards that read them

`resolveSigningKeyPair` and what of `authConfig` depends on it, the published key set, the signature
and the verification of an access token, and the two guards of `core/security`.

`node:crypto`, `jsonwebtoken` and the resource servers are not part of the repository. They are
parameters (`NodeCrypto`, `Jwt`), with what is documented of them as assumptions (`NodeCrypto.Lawful`,
`Jwt.Documented`). A token is the string that is sent.
-/

namespace AccountApi

/-- The members of an RSA public key in a JWK. -/
structure RsaPublicKey where
  n : String
  e : String
  deriving DecidableEq, Repr

/-- What `node:crypto` and `Buffer` compute. -/
structure NodeCrypto where
  /-- `Buffer.from(value, 'base64').toString('utf8')`. -/
  fromBase64 : String → String
  /-- `createPublicKey(pem)` of a private or a public key, `none` when it throws. -/
  createPublicKey : String → Option RsaPublicKey
  /-- The public half of the private key of a PEM, `none` when it holds none. -/
  privateKey : String → Option RsaPublicKey
  /-- `export({ type: 'spki', format: 'pem' })`. -/
  spkiPem : RsaPublicKey → String
  /-- `createHash('sha256').update(value).digest('base64url')`. -/
  sha256 : String → String
  /-- `asymmetricKeyDetails.modulusLength`. -/
  modulusLength : RsaPublicKey → ℕ

structure NodeCrypto.Lawful (C : NodeCrypto) : Prop where
  createPublicKey_spkiPem : ∀ pem k, C.createPublicKey pem = some k → C.createPublicKey (C.spkiPem k) = some k
  createPublicKey_privateKey : ∀ pem k, C.privateKey pem = some k → C.createPublicKey pem = some k

structure SigningKeyPair where
  privateKeyPem : String
  publicKeyPem : String
  kid : String
  deriving DecidableEq, Repr

inductive SigningKeyError where
  | privateKeyRequired
  /-- `createPublicKey` threw. -/
  | invalidKey
  deriving DecidableEq, Repr

def SigningKeyError.message : SigningKeyError → Option String
  | privateKeyRequired => some ("JWT_PRIVATE_KEY is required when NODE_ENV is \"production\" — " ++
      "refusing to start without an explicit signing key.")
  | invalidKey => none

namespace NodeCrypto

variable (C : NodeCrypto)

/-- `JSON.stringify({ e: jwk.e, kty: jwk.kty, n: jwk.n })`. -/
def canonicalJwk (k : RsaPublicKey) : String :=
  "\x7b\"e\":\"" ++ k.e ++ "\",\"kty\":\"RSA\",\"n\":\"" ++ k.n ++ "\"\x7d"

def computeRsaJwkThumbprint (publicKeyPem : String) : Except SigningKeyError String :=
  match C.createPublicKey publicKeyPem with
  | none => .error .invalidKey
  | some k => .ok (C.sha256 (canonicalJwk k))

/-- `resolveSigningKeyPair`; `generated` is what `generateKeyPairSync` would give, a private and a
public PEM. -/
def resolveSigningKeyPair (env : ProcessEnv) (generated : String × String) :
    Except SigningKeyError SigningKeyPair := do
  if isBlank env "JWT_PRIVATE_KEY" then
    if env "NODE_ENV" = some "production" then .error .privateKeyRequired
    else
      let kid ← C.computeRsaJwkThumbprint generated.2
      return ⟨generated.1, generated.2, kid⟩
  else
    let privateKeyPem := C.fromBase64 ((env "JWT_PRIVATE_KEY").getD "")
    match C.createPublicKey privateKeyPem with
    | none => .error .invalidKey
    | some k =>
      let publicKeyPem := C.spkiPem k
      let kid ← C.computeRsaJwkThumbprint publicKeyPem
      return ⟨privateKeyPem, publicKeyPem, kid⟩

/-! ## The published key set -/

structure JsonWebKey where
  kty : String
  use : String
  alg : String
  kid : String
  n : String
  e : String
  deriving DecidableEq, Repr

end NodeCrypto

/-! ## Access tokens -/

/-- What the header and the payload of a token say. -/
structure TokenContent where
  alg : String
  kid : String
  claims : SignedClaims
  /-- In seconds. -/
  iat : ℤ
  exp : ℤ
  deriving DecidableEq, Repr

/-- What `JwtModule` is configured with. -/
structure JwtConfig where
  keyPair : SigningKeyPair
  expiresIn : String
  deriving DecidableEq, Repr

/-- `authConfig`, as far as it is about tokens. -/
def NodeCrypto.jwtConfig (C : NodeCrypto) (env : ProcessEnv) (generated : String × String) :
    Except SigningKeyError JwtConfig := do
  let keyPair ← C.resolveSigningKeyPair env generated
  return ⟨keyPair, (env "JWT_EXPIRES_IN").getD "15m"⟩

structure JwtSignOptions where
  privateKey : String
  algorithm : String
  keyid : String
  expiresIn : String
  deriving DecidableEq, Repr

structure JwtVerifyOptions where
  publicKey : String
  algorithms : List String
  deriving DecidableEq, Repr

def JwtConfig.signOptions (config : JwtConfig) : JwtSignOptions :=
  ⟨config.keyPair.privateKeyPem, "RS256", config.keyPair.kid, config.expiresIn⟩

def JwtConfig.verifyOptions (config : JwtConfig) : JwtVerifyOptions := ⟨config.keyPair.publicKeyPem, ["RS256"]⟩

/-- `jsonwebtoken`, and what a resource server verifies with. Times are in seconds. -/
structure Jwt where
  crypto : NodeCrypto
  /-- A time span in seconds, `none` when `sign` refuses the string. -/
  timespan : String → Option ℤ
  /-- `decode(token, { complete: true })`, `none` where the payload has not exactly these members. -/
  decode : String → Option TokenContent
  /-- The RS256 signature of the token is valid for the key. -/
  signed : String → RsaPublicKey → Bool
  /-- `sign`, `none` when it throws. -/
  sign : JwtSignOptions → ℤ → SignedClaims → Option String
  /-- `verify`, `none` when it throws. -/
  verify : JwtVerifyOptions → ℤ → String → Option SignedClaims
  /-- What a resource server takes a token for, given a key set. -/
  resourceServer : List NodeCrypto.JsonWebKey → ℤ → String → Option SignedClaims

/-- What is documented of the packages, for RS256, and what the resource servers are told to do. -/
structure Jwt.Documented (J : Jwt) : Prop extends crypto_lawful : J.crypto.Lawful where
  /-- `sign` refuses RSA keys of less than 2048 bits. -/
  sign_content : ∀ privateKey keyid expiresIn now claims token,
    J.sign ⟨privateKey, "RS256", keyid, expiresIn⟩ now claims = some token → ∃ k l,
      J.crypto.privateKey privateKey = some k ∧ 2048 ≤ J.crypto.modulusLength k ∧
      J.timespan expiresIn = some l ∧ J.decode token = some ⟨"RS256", keyid, claims, now, now + l⟩ ∧
      J.signed token k = true
  verify_signed : ∀ publicKey now token claims, J.verify ⟨publicKey, ["RS256"]⟩ now token = some claims →
    ∃ k, J.crypto.createPublicKey publicKey = some k ∧ J.signed token k = true
  verify_decoded : ∀ publicKey now token content claims, J.decode token = some content →
    (J.verify ⟨publicKey, ["RS256"]⟩ now token = some claims ↔
      ∃ k, J.crypto.createPublicKey publicKey = some k ∧ content.alg = "RS256" ∧ J.signed token k = true ∧
        now < content.exp ∧ content.claims = claims)
  /-- The payload has these members, and the key is the first whose `kid` is that of the token. -/
  resourceServer_iff : ∀ keys now token claims, J.resourceServer keys now token = some claims ↔
    ∃ content key, J.decode token = some content ∧ keys.find? (fun k => k.kid = content.kid) = some key ∧
      content.alg = "RS256" ∧ J.signed token ⟨key.n, key.e⟩ = true ∧ now < content.exp ∧ content.claims = claims
  /-- A signature is valid for one key. -/
  signed_unique : ∀ token k k', J.signed token k = true → J.signed token k' = true → k = k'

/-- `TokenSignService.execute` at `now`. -/
def Jwt.tokenSign (J : Jwt) (config : JwtConfig) (now : ℤ) (claims : SignedClaims) : Option String :=
  J.sign config.signOptions now claims

/-- `TokenVerifyService.execute` at `now`, and what `JwtAuthGuard` calls. -/
def Jwt.tokenVerify (J : Jwt) (config : JwtConfig) (now : ℤ) (token : String) : Option SignedClaims :=
  J.verify config.verifyOptions now token

/-! ## The guards -/

inductive HttpException where
  | unauthorized (message : String)
  | forbidden (message : String)
  deriving DecidableEq, Repr

structure HttpRequest where
  authorization : Option String
  user : Option SignedClaims
  deriving DecidableEq, Repr

/-- `JwtAuthGuard.extractToken`. -/
def HttpRequest.extractToken (request : HttpRequest) : Option String :=
  match request.authorization with
  | none => none
  | some header =>
    if "Bearer ".toList.isPrefixOf header.toList then some (String.ofList (header.toList.drop 7)) else none

/-- `JwtAuthGuard.canActivate`: the request with its user. -/
def Jwt.jwtAuthGuard (J : Jwt) (config : JwtConfig) (now : ℤ) (request : HttpRequest) :
    Except HttpException HttpRequest :=
  match request.extractToken with
  | none => .error (.unauthorized "Missing bearer token")
  | some token =>
    -- the empty string is falsy
    if token = "" then .error (.unauthorized "Missing bearer token")
    else
      match J.tokenVerify config now token with
      | none => .error (.unauthorized "Invalid or expired access token")
      | some claims => .ok { request with user := some claims }

/-- `PlatformAdminGuard.canActivate`. -/
def platformAdminGuard (request : HttpRequest) : Except HttpException HttpRequest :=
  if (request.user.map (·.platformAdmin)).getD false then .ok request
  else .error (.forbidden "Platform admin access required")

/-- The routes whose guards read nothing but the token. -/
inductive GuardedRoute where
  /-- `GET /tenants` and `tenantsFindByCriteria`. -/
  | tenantsFindByCriteria
  | tenantCreate
  | appCreate
  /-- `GET /apps`. -/
  | appsFindByCriteria
  deriving DecidableEq, Repr

def GuardedRoute.platformAdmin : GuardedRoute → Bool
  | tenantsFindByCriteria => true
  | _ => false

/-- The guards of a route, `@UseGuards` of the class before that of the method. -/
def Jwt.guards (J : Jwt) (config : JwtConfig) (now : ℤ) (route : GuardedRoute) (request : HttpRequest) :
    Except HttpException HttpRequest := do
  let request ← J.jwtAuthGuard config now request
  if route.platformAdmin then platformAdminGuard request else return request

end AccountApi

import AccountApi.Spec.SigningKeys
import AccountApi.Lib.Run

/-!
# Access tokens in a deployment

Any number of processes of the service, each with the environment it was started with and the keys it
resolved then; they all read one clock. Processes start and stop, logins and refreshes sign the claims
that the database holds of a user, and anybody sends requests with any header. Nobody else can sign:
what has a valid signature of a process says what an issued token says. What changes the database, and
when, is left open.

A process is referred to by its index, tokens and requests are kept once they were issued or let
through. A generated key is known to its process alone.
-/

namespace AccountApi

/-- The processes, and what they depend on; `δ` is the database. -/
structure Deployment (δ : Type) where
  jwt : Jwt
  zod : Zod
  /-- The claims a login or a refresh of the user signs, `none` when there is no such user. -/
  claims : δ → Uuid → Option SignedClaims
  claims_sub : ∀ db userId c, claims db userId = some c → c.sub = userId

structure Process where
  env : ProcessEnv
  config : JwtConfig
  /-- What its tokens are signed with. -/
  key : RsaPublicKey

/-- The key comes from `JWT_PRIVATE_KEY`. -/
def Process.explicit (p : Process) : Bool := !isBlank p.env "JWT_PRIVATE_KEY"

structure IssuedToken where
  process : ℕ
  userId : Uuid
  token : String
  claims : SignedClaims
  /-- When it was signed. -/
  time : ℤ
  deriving DecidableEq, Repr

/-- A request that its guards let through. -/
structure PassedRequest where
  process : ℕ
  route : GuardedRoute
  time : ℤ
  claims : SignedClaims
  deriving DecidableEq, Repr

structure DeploymentState (δ : Type) where
  /-- In seconds, for all processes. -/
  now : ℤ
  db : δ
  processes : List Process
  stopped : List ℕ
  issued : List IssuedToken
  passed : List PassedRequest

inductive DeploymentEvent (δ : Type) where
  /-- `generated` is what `generateKeyPairSync` gives, if it is called. -/
  | boot (env : ProcessEnv) (generated : String × String)
  | stop (p : ℕ)
  | tick (seconds : ℕ)
  | write (db : δ)
  /-- A login or a refresh of the user. -/
  | issue (p : ℕ) (userId : Uuid)
  | request (p : ℕ) (route : GuardedRoute) (authorization : Option String)

namespace Deployment

variable {δ : Type} (D : Deployment δ)

def start (now : ℤ) (db : δ) : DeploymentState δ := ⟨now, db, [], [], [], []⟩

/-- The process, if it is running. -/
def running (s : DeploymentState δ) (p : ℕ) : Option Process :=
  if s.stopped.contains p then none else s.processes[p]?

/-- A process with this environment, if it starts. -/
def boot (env : ProcessEnv) (generated : String × String) : Option Process :=
  match validateEnv D.zod env with
  | .error _ => none
  | .ok _ =>
    match D.jwt.crypto.jwtConfig env generated with
    | .error _ => none
    | .ok config => (D.jwt.crypto.createPublicKey config.keyPair.publicKeyPem).map fun key => ⟨env, config, key⟩

/-- What is generated is a key pair that nobody has yet, and what is configured was not generated for a
process. -/
def keyAllowed (s : DeploymentState δ) (generated : String × String) (p : Process) : Bool :=
  if p.explicit then s.processes.all fun q => q.explicit || q.key ≠ p.key
  else D.jwt.crypto.privateKey generated.1 = some p.key && s.processes.all fun q => q.key ≠ p.key

/-- Where the token has the valid signature of a process, what it says was issued with that key. -/
def presentable (s : DeploymentState δ) (token : String) : Bool :=
  s.processes.all fun q => !D.jwt.signed token q.key ||
    s.issued.any fun i => D.jwt.signed i.token q.key && D.jwt.decode i.token = D.jwt.decode token

/-- Whether somebody can send the header. -/
def sendable (s : DeploymentState δ) (authorization : Option String) : Bool :=
  (⟨authorization, none⟩ : HttpRequest).extractToken.all fun token => D.presentable s token

def step (s : DeploymentState δ) : DeploymentEvent δ → Option (DeploymentState δ)
  | .boot env generated => do
    let p ← D.boot env generated
    guard (D.keyAllowed s generated p)
    return { s with processes := s.processes ++ [p] }
  | .stop p => some { s with stopped := p :: s.stopped }
  | .tick seconds => some { s with now := s.now + seconds }
  | .write db => some { s with db }
  | .issue p userId => do
    let process ← running s p
    let claims ← D.claims s.db userId
    let token ← D.jwt.tokenSign process.config s.now claims
    return { s with issued := s.issued ++ [⟨p, userId, token, claims, s.now⟩] }
  | .request p route authorization => do
    let process ← running s p
    guard (D.sendable s authorization)
    match D.jwt.guards process.config s.now route ⟨authorization, none⟩ with
    | .error _ => return s
    | .ok request => return { s with
        passed := s.passed ++ (request.user.map fun claims => ⟨p, route, s.now, claims⟩).toList }

end Deployment

end AccountApi

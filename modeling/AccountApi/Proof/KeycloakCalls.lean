import AccountApi.Spec.Keycloak
import Mathlib.Tactic.Common

/-!
# The calls of the Keycloak adapter

What each POST can lead to, whatever goes wrong with it, and what it leads to when nothing does.

* `serviceToken_cases`, `createIdentity_cases`, `verifyCredentials_cases`: with faults.
* `serviceToken_noFault`, `registerIdentity_noFault`, `verifyCredentials_noFault`: without.
-/

namespace AccountApi

/-- What comes after the last slash. -/
theorem location_subject (url : String) {subject : String} (h : '/' ∉ subject.toList) :
    (JsString.split '/' (url ++ "/" ++ subject)).getLast? = some subject := by
  have hsplit := JsString.split_append '/' url subject
  rw [JsString.split_self h] at hsplit
  rw [show ("/" : String) = String.ofList ['/'] from rfl, hsplit, List.getLast?_append]
  rfl

namespace Keycloak

variable {K : Keycloak} {A : KeycloakIdentityProviderAdapter} {s : KeycloakState}

/-- The subject is read from the second part of the token. -/
theorem decodeSub_userToken (hpayload : ∀ subject, A.payloadSub (K.payload subject) = some (some subject))
    (subject : String) : A.decodeSub (K.userToken subject) = some (some subject) := by
  have hsplit : JsString.split '.' (K.userToken subject) = [Base64.encode K.header,
      Base64.encode (K.payload subject), Base64.encode (K.signature subject)] := by
    rw [userToken, show ("." : String) = String.ofList ['.'] from rfl, JsString.split_append, JsString.split_append,
      JsString.split_self (Base64.dot_notMem_encode _), JsString.split_self (Base64.dot_notMem_encode _),
      JsString.split_self (Base64.dot_notMem_encode _)]
    rfl
  simp only [KeycloakIdentityProviderAdapter.decodeSub, hsplit, List.getElem?_cons_succ, List.getElem?_cons_zero,
    Base64.decode_encode, hpayload]

theorem post_bind {σ α : Type} (http : HttpService σ) (request : HttpPost)
    (f : Except AxiosError HttpResponse → EStateM KeycloakError σ α) (s : σ) :
    (KeycloakIdentityProviderAdapter.post http request >>= f) s = f (http request s).1 (http request s).2 := rfl

/-- What a POST leads to; `s'` is the server with the fault struck. -/
theorem service_cases (K : Keycloak) (request : HttpPost) (s : KeycloakState) : ∃ s' : KeycloakState,
    s' = { s with faults := s.faults.tail } ∧
      (K.service request s = K.handle request s' ∨
        (∃ e, K.service request s = (.error ⟨e⟩, s') ∧ e.map Prod.fst ≠ some 409) ∨
        (∃ e, K.service request s = (.error ⟨e⟩, (K.handle request s').2) ∧
          (e = none ∨ ∃ (code : Fin 100) (data : String), e = some (500 + (code : ℕ), data))) ∨
        K.service request s =
          ((K.handle request s').1.map fun r => { r with location := none }, (K.handle request s').2)) := by
  refine ⟨_, rfl, ?_⟩
  unfold service
  rcases s.faults.head?.join with _ | fault
  · exact .inl rfl
  · cases fault with
    | unavailable => exact .inr (.inl ⟨_, rfl, by simp⟩)
    | unreachable => exact .inr (.inl ⟨_, rfl, by simp⟩)
    | replyLost => exact .inr (.inr (.inl ⟨_, rfl, .inl rfl⟩))
    | serverError code data => exact .inr (.inr (.inl ⟨_, rfl, .inr ⟨code, data, rfl⟩⟩))
    | headersLost => exact .inr (.inr (.inr rfl))

theorem service_noFault (request : HttpPost) (h : s.faults.head?.join = none) :
    K.service request s = K.handle request { s with faults := s.faults.tail } := by
  unfold service
  rw [h]

/-- The endpoint is asked for a token of the service account. -/
theorem serviceToken_cases (K : Keycloak) (A : KeycloakIdentityProviderAdapter) (s : KeycloakState) :
    (∃ s' : KeycloakState, s' = { s with faults := s.faults.tail } ∧
      (A.getServiceAccountToken K.service s = .ok (some K.serviceToken) s' ∨
        ∃ m, A.getServiceAccountToken K.service s =
          .error (.error ("Failed to obtain a Keycloak service-account token (" ++ m ++ ")")) s')) := by
  refine ⟨_, rfl, ?_⟩
  unfold KeycloakIdentityProviderAdapter.getServiceAccountToken
  rw [post_bind]
  generalize hrequest : HttpPost.mk _ _ _ = request
  have hhandle : ∀ s', K.handle request s' = (.ok ⟨none, some K.serviceToken⟩, s') ∨
      ∃ e, K.handle request s' = (.error e, s') := by
    intro s'
    subst hrequest
    unfold handle
    simp only
    split
    · unfold issueToken
      split
      · exact .inr ⟨_, rfl⟩
      · exact .inl rfl
    · exact .inr ⟨_, rfl⟩
  obtain ⟨s', rfl, h | ⟨e, h, -⟩ | ⟨e, h, -⟩ | h⟩ := service_cases K request s
  · rw [h]
    rcases hhandle _ with hok | ⟨e, he⟩
    · rw [hok]; exact .inl rfl
    · rw [he]; exact .inr ⟨_, rfl⟩
  · rw [h]; exact .inr ⟨_, rfl⟩
  · rw [h]
    rcases hhandle _ with hok | ⟨e, he⟩
    · rw [hok]; exact .inr ⟨_, rfl⟩
    · rw [he]; exact .inr ⟨_, rfl⟩
  · rw [h]
    rcases hhandle _ with hok | ⟨e, he⟩
    · rw [hok]; exact .inl rfl
    · rw [he]; exact .inr ⟨_, rfl⟩

/-- The message of a registration that got no reply. -/
def noReplyMessage : String := "Keycloak user creation failed (undefined): undefined"

/-- The messages that leave it open whether the account was created: of no reply, and of a server error. -/
def untold (message : String) : Bool :=
  message = noReplyMessage || "Keycloak user creation failed (5".toList.isPrefixOf message.toList

/-- The message of a registration whose account was created all the same. -/
def noLocationMessage : String := "Keycloak did not return a Location header with the new user id"

/-- What the second call of `registerIdentity` leads to. -/
inductive CreateMove (K : Keycloak) (input : RegisterIdentityInput) (s : KeycloakState) :
    EStateM.Result KeycloakError KeycloakState String → Prop
  | created (s' : KeycloakState) : (∀ a ∈ s.accounts, K.accountKey a.email ≠ K.accountKey input.email) →
      s'.accounts =
        s.accounts ++ [account s.nextSubject (KeycloakIdentityProviderAdapter.representation input)] →
      CreateMove K input s (.ok s.nextSubject s')
  | conflict (s' : KeycloakState) : (∃ a ∈ s.accounts, K.accountKey a.email = K.accountKey input.email) →
      s'.accounts = s.accounts → CreateMove K input s (.error (.emailAlreadyRegistered input.email) s')
  | refused (s' : KeycloakState) (m) : m ≠ noLocationMessage → s'.accounts = s.accounts →
      CreateMove K input s (.error (.error m) s')
  | orphaned (s' : KeycloakState) (m) : (∀ a ∈ s.accounts, K.accountKey a.email ≠ K.accountKey input.email) →
      untold m = true ∨ m = noLocationMessage →
      s'.accounts =
        s.accounts ++ [account s.nextSubject (KeycloakIdentityProviderAdapter.representation input)] →
      CreateMove K input s (.error (.error m) s')

theorem refused_message (e : AxiosError) :
    "Keycloak user creation failed (" ++ e.status ++ "): " ++ e.data ≠ noLocationMessage := by
  intro h
  have hchar := congrArg (fun m => m.toList[9]?) h
  simp [noLocationMessage] at hchar

/-- What is thrown without a reply, or with the status of a server error. -/
theorem untold_message {e : Option (ℕ × String)}
    (h : e = none ∨ ∃ (code : Fin 100) (data : String), e = some (500 + (code : ℕ), data)) :
    e.map Prod.fst ≠ some 409 ∧ untold
      ("Keycloak user creation failed (" ++ AxiosError.status ⟨e⟩ ++ "): " ++ AxiosError.data ⟨e⟩) = true := by
  rcases h with rfl | ⟨code, data, rfl⟩
  · exact ⟨by simp, by decide⟩
  · have hfive : ∀ code : Fin 100, ∃ rest, (toString (500 + (code : ℕ))).toList = '5' :: rest := by
      have hhead : ∀ code : Fin 100, (toString (500 + (code : ℕ))).toList.head? = some '5' := by decide +kernel
      intro code
      exact ⟨_, (List.cons_head?_tail (hhead code)).symm⟩
    obtain ⟨rest, hrest⟩ := hfive code
    have hstatus : (AxiosError.status ⟨some (500 + (code : ℕ), data)⟩).toList = '5' :: rest := hrest
    refine ⟨?_, ?_⟩
    · simp only [Option.map_some, ne_eq, Option.some.injEq]
      omega
    · unfold untold
      rw [Bool.or_eq_true, List.isPrefixOf_iff_prefix]
      have hopens : "Keycloak user creation failed (5".toList =
          "Keycloak user creation failed (".toList ++ ['5'] := by decide
      refine .inr ⟨rest ++ "): ".toList ++ data.toList, ?_⟩
      simp only [AxiosError.data, String.toList_append, hstatus, hopens, List.append_assoc, List.cons_append,
        List.nil_append, Option.map_some, Option.getD_some]

/-- What the endpoint that creates a user does. -/
theorem handle_create (K : Keycloak) (url : String) (u : UserRepresentation) (headers : List (String × String))
    (s : KeycloakState) :
    (∃ status data, status ≠ 409 ∧ K.handle ⟨url, .json u, headers⟩ s = (.error ⟨some (status, data)⟩, s)) ∨
      (∃ data, (∃ a ∈ s.accounts, K.accountKey a.email = K.accountKey u.email) ∧
        K.handle ⟨url, .json u, headers⟩ s = (.error ⟨some (409, data)⟩, s)) ∨
      (∀ a ∈ s.accounts, K.accountKey a.email ≠ K.accountKey u.email) ∧
        K.handle ⟨url, .json u, headers⟩ s = (.ok ⟨some (url ++ "/" ++ s.nextSubject), none⟩,
          { s with accounts := s.accounts ++ [account s.nextSubject u] }) := by
  unfold handle createUser
  simp only
  split
  · split
    · exact .inl ⟨401, _, by omega, rfl⟩
    · split
      · rename_i htaken
        exact .inr (.inl ⟨_, by simpa using htaken, rfl⟩)
      · rename_i hfree
        exact .inr (.inr ⟨by simpa using hfree, rfl⟩)
  · exact .inl ⟨404, _, by omega, rfl⟩

theorem createIdentity_cases (K : Keycloak) (A : KeycloakIdentityProviderAdapter) (input : RegisterIdentityInput)
    (token : Option String) {s : KeycloakState} (hsubject : s.nextSubject ≠ "" ∧ '/' ∉ s.nextSubject.toList) :
    CreateMove K input s (A.createIdentity K.service input token s) := by
  unfold KeycloakIdentityProviderAdapter.createIdentity
  rw [post_bind]
  have hcreate := handle_create K A.usersUrl (KeycloakIdentityProviderAdapter.representation input)
    [("Authorization", "Bearer " ++ token.getD "undefined")] { s with faults := s.faults.tail }
  obtain ⟨s', rfl, h | ⟨e, h, he⟩ | ⟨e, h, he⟩ | h⟩ := service_cases K ⟨A.usersUrl,
    .json (KeycloakIdentityProviderAdapter.representation input),
    [("Authorization", "Bearer " ++ token.getD "undefined")]⟩ s
  all_goals rw [h]
  · obtain ⟨status, data, hstatus, h⟩ | ⟨data, htaken, h⟩ | ⟨hfree, h⟩ := hcreate
    all_goals rw [h]
    · simp only [Option.map_some, Option.some.injEq, hstatus, if_false]
      exact .refused _ _ (refused_message _) rfl
    · exact .conflict _ htaken rfl
    · simp only [Option.bind_some, location_subject _ hsubject.2, Option.getD_some]
      rw [if_neg hsubject.1]
      exact .created _ hfree rfl
  · simp only [he, if_false]
    exact .refused _ _ (refused_message _) rfl
  · -- the request was carried out, or not, and the reply does not say
    obtain ⟨hstatus, hmessage⟩ := untold_message he
    simp only [hstatus, if_false]
    obtain ⟨status, data, -, h⟩ | ⟨data, -, h⟩ | ⟨hfree, h⟩ := hcreate
    all_goals rw [h]
    · exact .refused _ _ (refused_message _) rfl
    · exact .refused _ _ (refused_message _) rfl
    · exact .orphaned _ _ hfree (.inl hmessage) rfl
  · obtain ⟨status, data, hstatus, h⟩ | ⟨data, htaken, h⟩ | ⟨hfree, h⟩ := hcreate
    all_goals rw [h]
    · simp only [Except.map, Option.map_some, Option.some.injEq, hstatus, if_false]
      exact .refused _ _ (refused_message _) rfl
    · exact .conflict _ htaken rfl
    · exact .orphaned _ _ hfree (.inr rfl) rfl

/-- What `verifyCredentials` leads to: the account is the one found, or it throws. -/
theorem verifyCredentials_cases (K : Keycloak) (A : KeycloakIdentityProviderAdapter)
    (hpayload : ∀ subject, A.payloadSub (K.payload subject) = some (some subject)) (input : VerifyCredentialsInput)
    (s : KeycloakState) : ∃ s' : KeycloakState, s' = { s with faults := s.faults.tail } ∧
      ((∃ a, s.accounts.find? (fun a => K.accountKey a.email = K.accountKey input.email &&
          K.accepts a input.password) = some a ∧
          A.verifyCredentials K.service input s = .ok (some a.subject) s') ∨
        ∃ e, A.verifyCredentials K.service input s = .error e s') := by
  refine ⟨_, rfl, ?_⟩
  unfold KeycloakIdentityProviderAdapter.verifyCredentials
  rw [post_bind]
  generalize hrequest : HttpPost.mk _ _ _ = request
  have hhandle : ∀ s' : KeycloakState, (∃ a, s'.accounts.find? (fun a =>
        K.accountKey a.email = K.accountKey input.email && K.accepts a input.password) = some a ∧
      K.handle request s' = (.ok ⟨none, some (K.userToken a.subject)⟩, s')) ∨
      ∃ e, K.handle request s' = (.error e, s') := by
    intro s'
    subst hrequest
    unfold handle
    simp only
    split
    · have husername : (A.passwordForm input).lookup "username" = some input.email := rfl
      have hpassword : (A.passwordForm input).lookup "password" = some input.password := rfl
      have hgrant : (A.passwordForm input).lookup "grant_type" = some "password" := rfl
      unfold issueToken
      simp only [husername, hpassword, hgrant, Option.getD_some]
      split
      · exact .inr ⟨_, rfl⟩
      · split
        · rename_i a ha
          exact .inl ⟨a, ha, rfl⟩
        · exact .inr ⟨_, rfl⟩
    · exact .inr ⟨_, rfl⟩
  obtain ⟨s', rfl, h | ⟨e, h, -⟩ | ⟨e, h, -⟩ | h⟩ := service_cases K request s
  all_goals rw [h]
  · obtain ⟨a, ha, h⟩ | ⟨e, h⟩ := hhandle { s with faults := s.faults.tail }
    all_goals rw [h]
    · simp only [Option.bind_some, decodeSub_userToken hpayload]
      exact .inl ⟨a, ha, rfl⟩
    · exact .inr ⟨_, rfl⟩
  · exact .inr ⟨_, rfl⟩
  · obtain ⟨a, ha, h⟩ | ⟨e, h⟩ := hhandle { s with faults := s.faults.tail }
    all_goals rw [h]
    · exact .inr ⟨_, rfl⟩
    · exact .inr ⟨_, rfl⟩
  · obtain ⟨a, ha, h⟩ | ⟨e, h⟩ := hhandle { s with faults := s.faults.tail }
    all_goals rw [h]
    · simp only [Except.map, Option.bind_some, decodeSub_userToken hpayload]
      exact .inl ⟨a, ha, rfl⟩
    · exact .inr ⟨_, rfl⟩

/-! ## The calls without faults -/

theorem serviceToken_noFault (hconfig : A.config = K.config) (h : s.faults.head?.join = none) :
    A.getServiceAccountToken K.service s = .ok (some K.serviceToken) { s with faults := s.faults.tail } := by
  have hurl : A.tokenUrl = K.tokenEndpoint := by
    unfold KeycloakIdentityProviderAdapter.tokenUrl tokenEndpoint
    rw [hconfig]
  have hid : A.clientForm.lookup "client_id" = some A.config.clientId := rfl
  have hsecret : A.clientForm.lookup "client_secret" = some A.config.clientSecret := rfl
  have hknown : K.clientKnown A.clientForm = true := by
    unfold clientKnown
    rw [hid, hsecret, hconfig]
    simp
  have hgrant : A.clientForm.lookup "grant_type" = some "client_credentials" := rfl
  unfold KeycloakIdentityProviderAdapter.getServiceAccountToken
  rw [post_bind, service_noFault _ h]
  simp only [handle, hurl, if_true, issueToken, hknown, hgrant, Bool.not_true, Bool.false_eq_true, if_false]
  rfl

theorem createIdentity_noFault (hconfig : A.config = K.config) (h : s.faults.head?.join = none)
    (hsubject : s.nextSubject ≠ "" ∧ '/' ∉ s.nextSubject.toList) (input : RegisterIdentityInput) :
    A.createIdentity K.service input (some K.serviceToken) s =
      if s.accounts.any fun a => K.accountKey a.email = K.accountKey input.email then
        .error (.emailAlreadyRegistered input.email) { s with faults := s.faults.tail }
      else
        .ok s.nextSubject
          { s with
            accounts :=
              s.accounts ++ [account s.nextSubject (KeycloakIdentityProviderAdapter.representation input)]
            faults := s.faults.tail } := by
  have hurl : A.usersUrl = K.usersEndpoint := by
    unfold KeycloakIdentityProviderAdapter.usersUrl usersEndpoint
    rw [hconfig]
  have hemail : (KeycloakIdentityProviderAdapter.representation input).email = input.email := rfl
  unfold KeycloakIdentityProviderAdapter.createIdentity
  rw [post_bind, service_noFault _ h]
  simp only [handle, hurl, if_true, createUser, Option.getD_some, List.lookup_cons_self, ne_eq,
    not_true_eq_false, if_false, hemail]
  split
  · rfl
  · simp only [Option.bind_some, location_subject _ hsubject.2, Option.getD_some]
    rw [if_neg hsubject.1]
    rfl

/-- The whole of `registerIdentity`. -/
theorem registerIdentity_noFault (hconfig : A.config = K.config) (h : s.faults = [])
    (hsubject : s.nextSubject ≠ "" ∧ '/' ∉ s.nextSubject.toList) (input : RegisterIdentityInput) :
    A.registerIdentity K.service input s =
      if s.accounts.any fun a => K.accountKey a.email = K.accountKey input.email then
        .error (.emailAlreadyRegistered input.email) s
      else
        .ok s.nextSubject
          { s with
            accounts :=
              s.accounts ++ [account s.nextSubject (KeycloakIdentityProviderAdapter.representation input)] } := by
  obtain ⟨accounts, nextSubject, faults⟩ := s
  subst h
  have htoken := serviceToken_noFault (s := ⟨accounts, nextSubject, []⟩) hconfig rfl
  have hcreate := createIdentity_noFault (s := ⟨accounts, nextSubject, []⟩) hconfig rfl hsubject input
  simp only [KeycloakIdentityProviderAdapter.registerIdentity, bind, EStateM.bind, htoken, List.tail_nil] at hcreate ⊢
  rw [hcreate]

theorem verifyCredentials_noFault (hconfig : A.config = K.config) (h : s.faults.head?.join = none)
    (hpayload : ∀ subject, A.payloadSub (K.payload subject) = some (some subject)) (input : VerifyCredentialsInput) :
    A.verifyCredentials K.service input s =
      match s.accounts.find? fun a =>
          K.accountKey a.email = K.accountKey input.email && K.accepts a input.password with
      | some a => .ok (some a.subject) { s with faults := s.faults.tail }
      | none => .error (.error "Keycloak rejected the credentials") { s with faults := s.faults.tail } := by
  have hurl : A.tokenUrl = K.tokenEndpoint := by
    unfold KeycloakIdentityProviderAdapter.tokenUrl tokenEndpoint
    rw [hconfig]
  have hid : (A.passwordForm input).lookup "client_id" = some A.config.clientId := rfl
  have hsecret : (A.passwordForm input).lookup "client_secret" = some A.config.clientSecret := rfl
  have hknown : K.clientKnown (A.passwordForm input) = true := by
    unfold clientKnown
    rw [hid, hsecret, hconfig]
    simp
  have husername : (A.passwordForm input).lookup "username" = some input.email := rfl
  have hpassword : (A.passwordForm input).lookup "password" = some input.password := rfl
  have hgrant : (A.passwordForm input).lookup "grant_type" = some "password" := rfl
  unfold KeycloakIdentityProviderAdapter.verifyCredentials
  rw [post_bind, service_noFault _ h]
  simp only [handle, hurl, if_true, issueToken, hknown, hgrant, husername, hpassword, Option.getD_some, Bool.not_true,
    Bool.false_eq_true, if_false]
  cases s.accounts.find? fun a => K.accountKey a.email = K.accountKey input.email && K.accepts a input.password with
  | some a =>
    simp only [Option.bind_some, decodeSub_userToken hpayload]
    rfl
  | none => rfl

end Keycloak

end AccountApi

import AccountApi.Proof.Identity

/-!
# A login authenticates as the identity that was verified

The handler of a login finds the user by email and does not compare the external id
with the verified subject. The two agree because every row is bound to the account of
its email (`Bound`): registrations create the account first, under the key of the email,
and nobody else can.

* `BindingInv`: the invariant between the table and Keycloak.
* `login_authenticates_verified`: the result over all runs.
-/

namespace AccountApi

open Transition

variable {ι κ : Type} {S : Identity ι κ} {s t : IdentityState ι κ} {i : ι} {j : κ} {now : Date}
  {A A' : List KeycloakAccount} {U U' : List UserEntity} {p p' : TokenPhase} {e : IdentityEvent ι κ}
  {phase : ι → RegistrationPhase} {q q' : RegistrationPhase} {x email : String}

/-- Keycloak has an account with the subject under the key of the email. -/
def Bound (S : Identity ι κ) (A : List KeycloakAccount) (externalId email : String) : Prop :=
  ∃ a ∈ A, a.subject = externalId ∧
    S.registrations.accountKey a.email = S.registrations.accountKey email

/-- Keycloak takes the credentials of the login `j` for the account. -/
def Identity.Verifies (S : Identity ι κ) (j : κ) (a : KeycloakAccount) : Prop :=
  ∃ email password c, S.requests j = .login email password ∧
    LoginUserCommand.new S.registrations.kit email password = some c ∧
    S.registrations.accountKey a.email = S.registrations.accountKey c.email ∧
    S.accepts a c.password = true

/-- What a registration that has created its account knows. -/
def RegistrationBound (S : Identity ι κ) (i : ι) (A : List KeycloakAccount) : RegistrationPhase → Prop
  | .accepted c | .available c =>
    RegisterUserCommand.new S.registrations.kit (S.registrations.requests i) = some c
  | .identified c externalId =>
    RegisterUserCommand.new S.registrations.kit (S.registrations.requests i) = some c ∧
      externalId = S.registrations.newSubject i ∧ Bound S A externalId c.email
  | .provisioning c | .emailAvailable c =>
    Bound S A c.externalId c.email ∧ ∀ id now u, c.build S.registrations.kit id now = some u →
      u.externalId = c.externalId ∧ u.email = c.email
  | .registered u => Bound S A u.externalId u.email
  | _ => True

/-- The verified subject of a login. -/
def TokenPhase.subject : TokenPhase → Option String
  | verified _ x | reconciling x _ _ _ | saving x _ _ | publishing x _ | signed x _ => some x
  | userFound x _ | tenantsFound x _ _ | signing x _ | returned x _ => x
  | _ => none

/-- What a login knows of the identity that was verified. -/
structure TokenVerified (S : Identity ι κ) (j : κ) (A : List KeycloakAccount) (p : TokenPhase) : Prop where
  command : ∀ c, p = .accepted c ∨ (∃ x, p = .verified c x) → ∃ email password,
    S.requests j = .login email password ∧
      LoginUserCommand.new S.registrations.kit email password = some c
  account : ∀ x, p.subject = some x → ∃ a ∈ A, a.subject = x ∧ S.Verifies j a
  bound : ∀ c x, p = .verified c x → Bound S A x c.email

/-- What a login knows of its user too. -/
structure TokenBound (S : Identity ι κ) (j : κ) (A : List KeycloakAccount) (U : List UserEntity)
    (p : TokenPhase) : Prop where
  verified : TokenVerified S j A p
  user : ∀ x id email, p.subject = some x → p.about = some (id, email) →
    ∃ u ∈ U, u.id = id ∧ u.externalId = x

/-- What holds in every state. -/
structure BindingInv (S : Identity ι κ) (s : IdentityState ι κ) : Prop where
  identity : IdentityInv S s
  keys : (s.registration.accounts.map fun a => S.registrations.accountKey a.email).Nodup
  externalIds : ∀ u ∈ s.registration.users, ∀ v ∈ s.registration.users,
    u.externalId = v.externalId → u.id = v.id
  bound : ∀ u ∈ s.registration.users, Bound S s.registration.accounts u.externalId u.email
  registrations : ∀ i, RegistrationBound S i s.registration.accounts (s.registration.phase i)
  tokens : ∀ j, TokenBound S j s.registration.accounts s.registration.users (s.tokens j)

/-- One account answers for an email. -/
theorem Bound.subject_unique
    (hkeys : (A.map fun a => S.registrations.accountKey a.email).Nodup) {y : String}
    (hx : Bound S A x email) (hy : Bound S A y email) : x = y := by
  obtain ⟨a, ha, rfl, hae⟩ := hx
  obtain ⟨b, hb, rfl, hbe⟩ := hy
  rw [List.inj_on_of_nodup_map hkeys ha hb (hae.trans hbe.symm)]

theorem Bound.mono (h : Bound S A x email) (hA : ∀ a ∈ A, a ∈ A') : Bound S A' x email := by
  obtain ⟨a, ha, hsubject, hkey⟩ := h
  exact ⟨a, hA a ha, hsubject, hkey⟩

theorem RegistrationBound.mono (h : RegistrationBound S i A q) (hA : ∀ a ∈ A, a ∈ A') :
    RegistrationBound S i A' q := by
  cases q with
  | identified c x => exact ⟨h.1, h.2.1, h.2.2.mono hA⟩
  | provisioning c | emailAvailable c => exact ⟨h.1.mono hA, h.2⟩
  | registered u => exact Bound.mono h hA
  | _ => exact h

theorem TokenVerified.mono (h : TokenVerified S j A p) (hA : ∀ a ∈ A, a ∈ A') : TokenVerified S j A' p := by
  refine ⟨h.command, fun x hx => ?_, fun c x hp => (h.bound c x hp).mono hA⟩
  obtain ⟨a, ha, hsubject, hverifies⟩ := h.account x hx
  exact ⟨a, hA a ha, hsubject, hverifies⟩

theorem TokenBound.mono (h : TokenBound S j A U p) (hA : ∀ a ∈ A, a ∈ A')
    (hU : ∀ u ∈ U, ∃ u' ∈ U', SameUser u' u) : TokenBound S j A' U' p := by
  refine ⟨h.verified.mono hA, fun x id email hx hp => ?_⟩
  obtain ⟨u, hu, hid, hext⟩ := h.user x id email hx hp
  obtain ⟨u', hu', hid', hext', -⟩ := hU u hu
  exact ⟨u', hu', hid'.trans hid, hext'.trans hext⟩

theorem accounts_move (h : RegistrationMove S.registrations i now A U A' U' q q') : ∀ a ∈ A, a ∈ A' := by
  cases h with
  | identify c _ => exact fun a ha => List.mem_append_left _ ha
  | _ => exact fun a ha => ha

/-- An account is added under a key of its own. -/
theorem keys_move (hkeys : (A.map fun a => S.registrations.accountKey a.email).Nodup)
    (h : RegistrationMove S.registrations i now A U A' U' q q') :
    (A'.map fun a => S.registrations.accountKey a.email).Nodup := by
  cases h with
  | identify c hfree => exact Table.nodup_insert hkeys hfree
  | _ => exact hkeys

theorem accounts_step (h : IdentityMove S s t e) :
    ∀ a ∈ s.registration.accounts, a ∈ t.registration.accounts := by
  cases h with
  | register i now hmove _ _ => exact accounts_move hmove
  | token j _ _ _ _ hsame _ => rw [hsame]; exact fun a ha => ha

variable {A₀ : List KeycloakAccount} {U₀ : List UserEntity}

theorem registrationBound_move (hF : S.registrations.Fresh A₀ U₀) (hview : RegistrationBound S i A q)
    (h : RegistrationMove S.registrations i now A U A' U' q q') : RegistrationBound S i A' q' := by
  cases h with
  | accept c hc => exact hc
  | available c email _ _ => exact hview
  | identify c _ =>
    refine ⟨hview, rfl, c.identity (S.registrations.newSubject i), ?_, rfl, rfl⟩
    exact List.mem_append_right _ (List.mem_singleton_self _)
  | provision c x c' hc' =>
    obtain ⟨hc, rfl, hbound⟩ := hview
    have hagain := CreateUserCommand.build_again hF hc hc'
    obtain ⟨hext, hemail, -⟩ := hagain 0 .invalid
    refine ⟨by rw [hext, hemail]; exact hbound, fun id now u hu => ?_⟩
    rw [(hagain id now).2.2] at hu
    cases hu
    exact ⟨hext.symm, hemail.symm⟩
  | userFree c _ => exact hview
  | save c u _ hbuild _ =>
    obtain ⟨hext, hemail⟩ := hview.2 _ _ u hbuild
    change Bound S _ u.externalId u.email
    rw [hext, hemail]
    exact hview.1
  | _ => trivial

theorem tokenVerified_move (hview : TokenVerified S j A p) (h : TokenMove S j A U U' p p') :
    TokenVerified S j A p' := by
  cases h with
  | fails _ _ _ => constructor <;> simp [TokenPhase.subject]
  | accept email password c hreq hc =>
    refine ⟨fun d hd => ?_, fun x hx => (by cases hx), fun d x hd => (by cases hd)⟩
    rcases hd with hd | ⟨x, hd⟩ <;> cases hd
    exact ⟨email, password, hreq, hc⟩
  | verify c a ha =>
    obtain ⟨email, password, hreq, hc⟩ := hview.command c (Or.inl rfl)
    have hmem := List.mem_of_find?_eq_some ha
    have haccepts := List.find?_some ha
    simp only [Bool.and_eq_true, decide_eq_true_eq] at haccepts
    refine ⟨fun d hd => ?_, fun x hx => ?_, fun d x hd => ?_⟩
    · rcases hd with hd | ⟨x, hd⟩ <;> cases hd
      exact ⟨email, password, hreq, hc⟩
    · cases hx
      exact ⟨a, hmem, rfl, email, password, c, hreq, hc, haccepts⟩
    · cases hd
      exact ⟨a, hmem, rfl, haccepts.1⟩
  | findById userId u _ hu =>
    refine ⟨fun d hd => ?_, fun x hx => (by cases hx), fun d x hd => (by cases hd)⟩
    rcases hd with hd | ⟨x, hd⟩ <;> cases hd
  | _ =>
    refine ⟨fun d hd => ?_, fun x hx => hview.account x hx, fun d x hd => (by cases hd)⟩
    rcases hd with hd | ⟨x, hd⟩ <;> cases hd

/-- Every login has verified the credentials of the subject it carries, whatever the tables. -/
theorem tokenVerified_step (h : IdentityMove S s t e)
    (hview : ∀ j, TokenVerified S j s.registration.accounts (s.tokens j)) :
    ∀ j, TokenVerified S j t.registration.accounts (t.tokens j) := by
  have hA := accounts_step h
  cases h with
  | register i now _ _ htokens => exact fun j => htokens ▸ (hview j).mono hA
  | token k _ _ hmove hothers _ _ =>
    exact forall_moved hothers ((tokenVerified_move (hview k) hmove).mono hA) fun j _ => (hview j).mono hA

theorem tokenBound_move (hF : S.registrations.Fresh A₀ U₀) (hI : BindingInv S s)
    (h : TokenMove S j s.registration.accounts s.registration.users U (s.tokens j) p) :
    TokenBound S j s.registration.accounts s.registration.users p := by
  have hview := hI.tokens j
  refine ⟨tokenVerified_move hview.verified h, ?_⟩
  generalize hq : s.tokens j = q at h hview
  cases h with
  | fails | accept | findById => intro y id email hy; cases hy
  | verify c a _ => intro y id email _ hp; cases hp
  | findByEmail c x email u hemail hu =>
    intro y id email' hy hp
    cases hy
    cases hp
    obtain ⟨raw, password, hreq, hc⟩ := hview.verified.command c (Or.inr ⟨x, rfl⟩)
    have hagain : S.registrations.kit.emailValue c.email = some c.email := by
      simp only [LoginUserCommand.new, Option.bind_eq_bind, Option.bind_eq_some_iff, Option.pure_def,
        Option.some.injEq] at hc
      obtain ⟨v, hv, -, -, rfl⟩ := hc
      exact hF.lawful.emailValue_again _ _ hv
    obtain rfl := Option.some.inj (hagain.symm.trans hemail)
    obtain ⟨hmem, huemail⟩ := userByEmail_some hu
    -- the row and the verified account answer for the same email
    have hrow := hI.bound u hmem
    rw [huemail] at hrow
    exact ⟨u, hmem, rfl, hrow.subject_unique hI.keys (hview.verified.bound c x rfl)⟩
  | _ => exact fun y id email hy hp => hview.user y id email hy hp

theorem tokenVerified_start (j : κ) : TokenVerified S j A .received := by
  constructor <;> simp [TokenPhase.subject]

theorem bindingInv_start (hF : S.registrations.Fresh A U) (hids : (U.map (·.id)).Nodup)
    (hext : (U.map (·.externalId)).Nodup) (hbound : ∀ u ∈ U, Bound S A u.externalId u.email) :
    BindingInv S (Identity.start A U) where
  identity := identityInv_start hids fun i u hu => (hF.users i u hu).2
  keys := hF.keys
  externalIds u hu v hv h := congrArg UserEntity.id (List.inj_on_of_nodup_map hext hu hv h)
  bound := hbound
  registrations i := trivial
  tokens j := ⟨tokenVerified_start j, fun x id email hx => (by cases hx)⟩

/-- **Every step preserves the invariant.** -/
theorem bindingInv_step (hF : S.registrations.Fresh A₀ U₀) (hI : BindingInv S s)
    (h : IdentityMove S s t e) : BindingInv S t := by
  have husers := users_step hI.identity h
  have hA := accounts_step h
  have hkeys : (t.registration.accounts.map fun a => S.registrations.accountKey a.email).Nodup := by
    cases h with
    | register i now hmove _ _ => exact keys_move hI.keys hmove
    | token j _ _ _ _ hsame _ => rw [hsame]; exact hI.keys
  have hregistrations : ∀ k, RegistrationBound S k t.registration.accounts (t.registration.phase k) := by
    cases h with
    | register i now hmove hothers _ =>
      exact forall_moved hothers (registrationBound_move hF (hI.registrations i) hmove) fun k _ =>
        (hI.registrations k).mono hA
    | token j _ _ _ _ hsame hphase =>
      rw [hsame, hphase]
      exact hI.registrations
  refine ⟨identityInv_step hI.identity h, hkeys, externalIds_step hI.externalIds husers, ?_,
    hregistrations, ?_⟩
  · intro u' hu'
    rcases users_before husers hu' with ⟨u, hu, -, hext, hemail⟩ | ⟨i, hreg, -⟩
    · rw [hext, hemail]
      exact (hI.bound u hu).mono hA
    · have hview := hregistrations i
      rw [hreg] at hview
      exact hview
  · have hmono : ∀ k p, TokenBound S k s.registration.accounts s.registration.users p →
        TokenBound S k t.registration.accounts t.registration.users p :=
      fun _ _ h => h.mono hA fun u hu => users_persist hI.identity husers hu
    cases h with
    | register i now _ _ htokens => exact fun k => htokens ▸ hmono k _ (hI.tokens k)
    | token j _ _ hmove hothers _ _ =>
      exact forall_moved hothers (hmono j _ (tokenBound_move hF hI hmove)) fun k _ =>
        hmono k _ (hI.tokens k)

/-- **A login authenticates as the identity that was verified**, from tables whose users are bound to
accounts, such as empty ones: a token that a login returns is for the one user whose external id is
the subject of the account Keycloak took its credentials for. -/
theorem login_authenticates_verified [DecidableEq ι] [DecidableEq κ] (S : Identity ι κ)
    (A : List KeycloakAccount) (U : List UserEntity) (hF : S.registrations.Fresh A U)
    (hids : (U.map (·.id)).Nodup) (hext : (U.map (·.externalId)).Nodup)
    (hbound : ∀ u ∈ U, Bound S A u.externalId u.email) (es : List (IdentityEvent ι κ))
    (s : IdentityState ι κ) (h : exec S.step (Identity.start A U) es = some s) (j : κ) (x : String)
    (c : SignedClaims) (hj : s.tokens j = .returned (some x) c) :
    (∃ a ∈ s.registration.accounts, a.subject = x ∧ S.Verifies j a) ∧
      ∃ u ∈ s.registration.users, u.id = c.sub ∧ u.externalId = x ∧
        ∀ v ∈ s.registration.users, v.externalId = x → v = u := by
  have hI : BindingInv S s :=
    invariant (fun _ _ _ hI h => bindingInv_step hF hI (identity_step h))
      (bindingInv_start hF hids hext hbound) h
  have hview := hI.tokens j
  have hsubject : (s.tokens j).subject = some x := by rw [hj]; rfl
  refine ⟨hview.verified.account x hsubject, ?_⟩
  obtain ⟨u, hu, hid, hux⟩ := hview.user x c.sub c.email hsubject (by rw [hj]; rfl)
  refine ⟨u, hu, hid, hux, fun v hv hvx => ?_⟩
  exact hI.identity.eq_of_id hv hu (hI.externalIds v hv u hu (hvx.trans hux.symm))

/-- Jane registers and logs in. -/
theorem login_authenticates_jane : ∃ s, exec (janeIdentity (some "")).step (Identity.start [] [])
      (janeRegisters ++ janeLogsIn.take 7) = some s ∧
    s.tokens true = .returned (some "kc-sub-1") ⟨0, "jane@example.com", false, []⟩ ∧
    ∃ u ∈ s.registration.users, u.id = 0 ∧ u.externalId = "kc-sub-1" ∧
      ∀ v ∈ s.registration.users, v.externalId = "kc-sub-1" → v = u := by
  have hrun : (exec (janeIdentity (some "")).step (Identity.start [] []) (janeRegisters ++ janeLogsIn.take 7)).map
      (fun s => s.tokens true) =
        some (.returned (some "kc-sub-1") ⟨0, "jane@example.com", false, []⟩) := by decide +kernel
  obtain ⟨s, hs, htoken⟩ := Option.map_eq_some_iff.1 hrun
  exact ⟨s, hs, htoken, (login_authenticates_verified (janeIdentity (some "")) [] []
    (twoRegistrations_fresh _ _) (by simp) (by simp) (by simp) _ s hs true _ _ htoken).2⟩

end AccountApi

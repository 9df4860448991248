import AccountApi.Proof.Keycloak

/-!
# Accounts without a user

A registration may fail after Keycloak has created its account: the reply was lost or was an error, or the
second validation refused a value. `AccountInv` says whose the accounts are.

* `account_created`: whether the account of a registration exists can be told from what became of it,
  but for a missing reply, a server error and a refused value.
* `orphan_locked_out`: an account that no user has and no registration is still about stays so for ever;
  its email cannot be registered any more, and nobody logs in by it.
-/

namespace AccountApi

open Transition

variable {ι κ : Type} {S : Identity ι κ} {H : HttpIdentity ι κ} {s s' : IdentityState ι κ}
  {t t' : HttpIdentityState ι κ} {i : ι} {j : κ} {A A₀ : List KeycloakAccount} {U U₀ : List UserEntity}
  {a : KeycloakAccount} {e : IdentityEvent ι κ}

/-- Whether the account of the registration exists, `none` when the phase does not tell. -/
def RegistrationPhase.created : RegistrationPhase → Option Bool
  | received | accepted _ | available _ | failed (.emailAlreadyRegistered _) => some false
  | failed .invalidValue => none
  | identified _ _ | provisioning _ | emailAvailable _ | registered _ | failed _ => some true

/-- The subject of its account, as far as the registration knows it. -/
def RegistrationPhase.externalId : RegistrationPhase → Option String
  | identified _ x => some x
  | provisioning c | emailAvailable c => some c.externalId
  | registered u => some u.externalId
  | _ => none

def HttpRegistrationPhase.created : HttpRegistrationPhase → Option Bool
  | handler p => p.created
  | authorized _ _ => some false
  | failed (.error m) =>
    if Keycloak.untold m then none else some (m = Keycloak.noLocationMessage)
  | failed _ => none

def HttpRegistrationPhase.externalId : HttpRegistrationPhase → Option String
  | handler p => p.externalId
  | _ => none

/-- Whose the accounts are. -/
structure AccountInv (S : Identity ι κ) (A₀ : List KeycloakAccount) (s : IdentityState ι κ) : Prop where
  requested : ∀ i c, s.registration.phase i = .accepted c ∨ s.registration.phase i = .available c →
    RegisterUserCommand.new S.registrations.kit (S.registrations.requests i) = some c
  known : ∀ a ∈ s.registration.accounts, a ∈ A₀ ∨ ∃ i c,
    RegisterUserCommand.new S.registrations.kit (S.registrations.requests i) = some c ∧
      a = c.identity (S.registrations.newSubject i)
  created : ∀ i b, (s.registration.phase i).created = some b →
    (b = true ↔ ∃ a ∈ s.registration.accounts, a.subject = S.registrations.newSubject i)
  keys : (s.registration.accounts.map fun a => S.registrations.accountKey a.email).Nodup

theorem accountInv_start (hfresh : ∀ i, ∀ a ∈ A, a.subject ≠ S.registrations.newSubject i)
    (hkeys : (A.map fun a => S.registrations.accountKey a.email).Nodup) :
    AccountInv S A (Identity.start A U) where
  requested i c h := by rcases h with h | h <;> cases h
  known a ha := .inl ha
  created i b h := by
    cases h
    refine ⟨fun h => (by cases h), ?_⟩
    rintro ⟨a, ha, hsubject⟩
    exact absurd hsubject (hfresh i a ha)
  keys := hkeys

/-- Where a step of a registration leaves the accounts as they are, what its phase says of its account
stays true. -/
theorem created_move {S : Registrations ι} {now : Date} {A' : List KeycloakAccount} {U' : List UserEntity}
    {q q' : RegistrationPhase} (h : RegistrationMove S i now A U A' U' q q') :
    (∃ c, q = .available c ∧ q' = .identified c (S.newSubject i) ∧
      A' = A ++ [c.identity (S.newSubject i)]) ∨
      A' = A ∧ (q'.created = q.created ∨ q'.created = none) := by
  cases h with
  | identify c _ => exact .inl ⟨c, rfl, rfl, rfl⟩
  | reject | noLookup | unprovisionable | unbuilt => exact .inr ⟨rfl, .inr rfl⟩
  | _ => exact .inr ⟨rfl, .inl rfl⟩

/-- **Every step preserves the invariant.** -/
theorem accountInv_step (hI : AccountInv S A₀ s) (h : IdentityMove S s s' e) : AccountInv S A₀ s' := by
  cases h with
  | token j e _ _ _ haccounts hphase =>
    constructor
    · rw [hphase]; exact hI.requested
    · rw [haccounts]; exact hI.known
    · rw [haccounts, hphase]; exact hI.created
    · rw [haccounts]; exact hI.keys
  | register i now hmove hothers _ =>
    have hrequested : ∀ k c, s'.registration.phase k = .accepted c ∨ s'.registration.phase k = .available c →
        RegisterUserCommand.new S.registrations.kit (S.registrations.requests k) = some c := by
      intro k c hk
      by_cases hki : k = i
      · subst hki
        have hbefore := hI.requested k
        generalize s.registration.phase k = q at hmove hbefore
        generalize s'.registration.phase k = q' at hmove hk
        generalize s'.registration.accounts = A', s'.registration.users = U' at hmove
        cases hmove with
        | accept d hd => rcases hk with hk | hk <;> cases hk; exact hd
        | available d => rcases hk with hk | hk <;> cases hk; exact hbefore c (.inl rfl)
        | _ => rcases hk with hk | hk <;> cases hk
      · exact hI.requested k c (hothers k hki ▸ hk)
    have hkeys := keys_move hI.keys hmove
    rcases created_move hmove with ⟨c, hq, hq', haccounts⟩ | ⟨haccounts, hcreated⟩
    · have hc := hI.requested i c (.inr hq)
      refine ⟨hrequested, fun a ha => ?_, fun k b hk => ?_, hkeys⟩
      · rw [haccounts] at ha
        rcases List.mem_append.1 ha with ha | ha
        · exact hI.known a ha
        · exact .inr ⟨i, c, hc, List.mem_singleton.1 ha⟩
      · by_cases hki : k = i
        · subst hki
          rw [hq'] at hk
          cases hk
          refine ⟨fun _ => ⟨c.identity (S.registrations.newSubject k), ?_, rfl⟩, fun _ => rfl⟩
          rw [haccounts]
          exact List.mem_append_right _ (List.mem_singleton_self _)
        · have hbefore := hI.created k b (hothers k hki ▸ hk)
          rw [hbefore, haccounts]
          -- the new account is not the one of `k`
          have hnew : (c.identity (S.registrations.newSubject i)).subject ≠ S.registrations.newSubject k :=
            fun heq => hki (S.registrations.newSubject.injective heq).symm
          simp [List.mem_append, or_and_right, exists_or, hnew]
    · refine ⟨hrequested, ?_, fun k b hk => ?_, hkeys⟩
      · rw [haccounts]; exact hI.known
      · rw [haccounts]
        by_cases hki : k = i
        · subst hki
          rcases hcreated with hsame | hnone
          · exact hI.created k b (hsame ▸ hk)
          · rw [hnone] at hk; cases hk
        · exact hI.created k b (hothers k hki ▸ hk)

/-- What a registration tells of its account over HTTP, `Identity` knows. -/
theorem RegistrationAbstracts.created {q : RegistrationPhase} {r : HttpRegistrationPhase} {b : Bool}
    (h : RegistrationAbstracts H i q r) (hb : r.created = some b) : q.created = some b := by
  cases h with
  | handler => exact hb
  | authorized => exact hb
  | refused c m hm =>
    simp only [HttpRegistrationPhase.created, hm, decide_false] at hb
    split at hb <;> cases hb
    rfl
  | orphaned c m hm =>
    simp only [HttpRegistrationPhase.created] at hb
    split at hb <;> cases hb
    rcases hm with hm | hm
    · contradiction
    · simp only [hm, decide_true]
      rfl

/-- **The outcome tells whether the account exists**, for every registration, but for a request that got no
reply or a server error, and for a value that was refused. An account is an initial one or one that a
registration asked for, and no two have one key. -/
theorem account_created [DecidableEq ι] [DecidableEq κ] (H : HttpIdentity ι κ) (hH : H.Documented)
    (A : List KeycloakAccount) (U : List UserEntity)
    (hfresh : ∀ i, ∀ a ∈ A, a.subject ≠ H.identity.registrations.newSubject i)
    (hkeys : (A.map fun a => H.identity.registrations.accountKey a.email).Nodup)
    {es : List (HttpIdentityEvent ι κ)} (hrun : exec H.step (HttpIdentity.start A U) es = some t) :
    (∀ i b, (t.registrations i).created = some b →
      (b = true ↔ ∃ a ∈ t.accounts, a.subject = H.identity.registrations.newSubject i)) ∧
    (∀ a ∈ t.accounts, a ∈ A ∨ ∃ i c, RegisterUserCommand.new H.identity.registrations.kit
      (H.identity.registrations.requests i) = some c ∧ a = c.identity (H.identity.registrations.newSubject i)) ∧
    (t.accounts.map fun a => H.identity.registrations.accountKey a.email).Nodup := by
  obtain ⟨as, s, hs, h⟩ := (http_simulated hH).run abstracts_start hrun
  have hI : AccountInv H.identity A s :=
    invariant (fun _ _ _ hI h => accountInv_step hI (identity_step h)) (accountInv_start hfresh hkeys) hs
  rw [h.accounts]
  refine ⟨fun i b hb => ?_, hI.known, hI.keys⟩
  exact hI.created i b ((h.registrations i).created hb)

/-- The account has no user, and no registration is about to give it one. -/
structure Orphaned (t : HttpIdentityState ι κ) (a : KeycloakAccount) : Prop where
  account : a ∈ t.accounts
  users : ∀ u ∈ t.users, u.externalId ≠ a.subject
  registrations : ∀ i, (t.registrations i).externalId ≠ some a.subject

/-- What is known of a state reached over HTTP, and the one of `Identity` that it is up to the errors. -/
structure HttpInv (H : HttpIdentity ι κ) (A₀ : List KeycloakAccount) (s : IdentityState ι κ)
    (t : HttpIdentityState ι κ) : Prop where
  abstracts : Abstracts H s t
  binding : BindingInv H.identity s
  accounts : AccountInv H.identity A₀ s
  externalIds : ∀ i x, (s.registration.phase i).externalId = some x →
    x = H.identity.registrations.newSubject i

theorem subjects_step (hF : S.registrations.Fresh A₀ U₀) (hB : BindingInv S s)
    (hI : ∀ i x, (s.registration.phase i).externalId = some x → x = S.registrations.newSubject i)
    (h : IdentityMove S s s' e) :
    ∀ i x, (s'.registration.phase i).externalId = some x → x = S.registrations.newSubject i := by
  cases h with
  | token j e _ _ _ _ hphase => rw [hphase]; exact hI
  | register i now hmove hothers _ =>
    intro k x hk
    by_cases hki : k = i
    · subst hki
      have hbefore := hI k
      have hbound := hB.registrations k
      generalize s.registration.phase k = q at hmove hbefore hbound
      generalize s'.registration.phase k = q' at hmove hk
      generalize s'.registration.accounts = A', s'.registration.users = U' at hmove
      cases hmove with
      | identify c _ => cases hk; rfl
      | provision c y c' hc' =>
        obtain ⟨hc, rfl, -⟩ := hbound
        cases hk
        exact (CreateUserCommand.build_again hF hc hc' 0 .invalid).1
      | userFree c _ => exact hbefore x hk
      | save c u _ hbuild _ =>
        cases hk
        exact hbefore _ (congrArg some (hbound.2 _ _ u hbuild).1.symm)
      | _ => cases hk
    · exact hI k x (hothers k hki ▸ hk)

/-- A registration gets to know a subject from the call that creates the account. -/
theorem knows_move {now : Date} {A' : List KeycloakAccount} {U' : List UserEntity} {r r' : HttpRegistrationPhase}
    (h : HttpRegistrationMove H i now A U A' U' r r') {x : String} (hx : r'.externalId = some x) :
    (∃ y, r.externalId = some y) ∨ r.created = some false := by
  cases h with
  | identified c token _ => exact .inr rfl
  | handler p A' U' p' _ hadvance =>
    have hmove := advance_registrationMove hadvance
    cases hmove with
    | identify c _ => exact .inr rfl
    | provision c y c' _ => exact .inl ⟨y, rfl⟩
    | userFree c _ | save c u _ _ _ => exact .inl ⟨_, rfl⟩
    | _ => cases hx
  | _ => cases hx

/-- What a registration knows over HTTP is its own subject. -/
theorem HttpInv.knows (hI : HttpInv H A₀ s t) {i : ι} {x : String} (hx : (t.registrations i).externalId = some x) :
    x = H.identity.registrations.newSubject i := by
  have habstracts := hI.abstracts.registrations i
  have hphase := hI.externalIds i x
  generalize t.registrations i = r at hx habstracts
  generalize s.registration.phase i = q at habstracts hphase
  cases habstracts with
  | handler => exact hphase hx
  | _ => cases hx

variable [DecidableEq ι] [DecidableEq κ]

theorem httpInv_step (hH : H.Documented) (hF : H.identity.registrations.Fresh A₀ U₀) (hI : HttpInv H A₀ s t)
    {e : HttpIdentityEvent ι κ} (hstep : H.step t e = some t') :
    HttpInv H A₀ s t' ∨ ∃ a s', IdentityMove H.identity s s' a ∧ HttpInv H A₀ s' t' := by
  rcases http_step hH hI.abstracts hstep with hstays | ⟨a, s', hs, hmoves⟩
  · exact .inl ⟨hstays, hI.binding, hI.accounts, hI.externalIds⟩
  · have hmove := identity_step hs
    exact .inr ⟨a, s', hmove, hmoves, bindingInv_step hF hI.binding hmove, accountInv_step hI.accounts hmove,
      subjects_step hF hI.binding hI.externalIds hmove⟩

/-- Nobody gets to know the subject of an account that exists. -/
theorem registrations_step (hH : H.Documented) (hI : HttpInv H A₀ s t) (ho : Orphaned t a)
    {e : HttpIdentityEvent ι κ} (hstep : H.step t e = some t')
    (hknown : ∀ i x, (t'.registrations i).externalId = some x → x = H.identity.registrations.newSubject i) :
    ∀ i, (t'.registrations i).externalId ≠ some a.subject := by
  intro i hi
  have hsame : t'.registrations i ≠ t.registrations i := fun h => ho.registrations i (h ▸ hi)
  cases e with
  | register k now fault =>
    simp only [HttpIdentity.step, Option.map_eq_some_iff] at hstep
    obtain ⟨⟨A', U', r'⟩, hq, rfl⟩ := hstep
    by_cases hik : i = k
    · subst hik
      have hsubject := hknown i _ hi
      simp only [Function.update_self] at hi
      rcases knows_move (advance_httpMove hH hq) hi with ⟨y, hy⟩ | hfalse
      · rw [hI.knows hy, ← hsubject] at hy
        exact ho.registrations i hy
      · have hcreated := hI.accounts.created i false ((hI.abstracts.registrations i).created hfalse)
        rw [← hI.abstracts.accounts] at hcreated
        cases hcreated.2 ⟨a, ho.account, hsubject⟩
    · exact hsame (Function.update_of_ne hik _ _)
  | token j now tenants fault =>
    simp only [HttpIdentity.step, Option.map_eq_some_iff] at hstep
    obtain ⟨q, -, rfl⟩ := hstep
    exact hsame rfl
  | failure j =>
    simp only [HttpIdentity.step] at hstep
    split at hstep <;> cases hstep
    exact hsame rfl

theorem orphaned_step (hH : H.Documented) (hF : H.identity.registrations.Fresh A₀ U₀)
    (h : (∃ s, HttpInv H A₀ s t) ∧ Orphaned t a) {e : HttpIdentityEvent ι κ} (hstep : H.step t e = some t') :
    (∃ s, HttpInv H A₀ s t') ∧ Orphaned t' a := by
  obtain ⟨⟨s, hI⟩, ho⟩ := h
  rcases httpInv_step hH hF hI hstep with hI' | ⟨b, s', hmove, hI'⟩
  · have haccounts : t'.accounts = t.accounts := hI'.abstracts.accounts.trans hI.abstracts.accounts.symm
    have husers : t'.users = t.users := hI'.abstracts.users.trans hI.abstracts.users.symm
    refine ⟨⟨s, hI'⟩, haccounts ▸ ho.account, husers ▸ ho.users, ?_⟩
    exact registrations_step hH hI ho hstep fun i x => hI'.knows
  · have hregistrations := registrations_step hH hI ho hstep fun i x => hI'.knows
    have haccount : a ∈ t'.accounts := by
      rw [hI'.abstracts.accounts]
      exact accounts_step hmove a (hI.abstracts.accounts ▸ ho.account)
    refine ⟨⟨s', hI'⟩, haccount, fun u' hu' => ?_, hregistrations⟩
    rw [hI'.abstracts.users] at hu'
    rcases users_before (users_step hI.binding.identity hmove) hu' with ⟨u, hu, -, hext, -⟩ | ⟨i, hreg, -⟩
    · rw [hext]
      exact ho.users u (hI.abstracts.users ▸ hu)
    · -- a new row is the one of a registration that knows its subject
      have habstracts := hI'.abstracts.registrations i
      rw [hreg] at habstracts
      have hnot := hregistrations i
      generalize t'.registrations i = r at habstracts hnot
      cases habstracts
      exact fun h => hnot (congrArg some h)

/-- **Nobody gets in by an orphan.** Once an account has no user and no registration knows its subject, so
it stays: in every later state no user has its subject or its email, no login has returned a token for it
or for its email, and registering the email is refused as a conflict. -/
theorem orphan_locked_out (H : HttpIdentity ι κ) (hH : H.Documented)
    (hconfig : H.adapter.config = H.keycloak.config) (A : List KeycloakAccount) (U : List UserEntity)
    (hF : H.identity.registrations.Fresh A U) (hids : (U.map (·.id)).Nodup) (hext : (U.map (·.externalId)).Nodup)
    (hbound : ∀ u ∈ U, Bound H.identity A u.externalId u.email) {es fs : List (HttpIdentityEvent ι κ)}
    (hrun : exec H.step (HttpIdentity.start A U) es = some t) (ho : Orphaned t a)
    (hrest : exec H.step t fs = some t') :
    Orphaned t' a ∧
    (∀ u ∈ t'.users, H.identity.registrations.accountKey u.email ≠ H.identity.registrations.accountKey a.email) ∧
    (∀ j x c, t'.tokens j = .returned (some x) c → x ≠ a.subject ∧
      H.identity.registrations.accountKey c.email ≠ H.identity.registrations.accountKey a.email) ∧
    ∀ i input, H.identity.registrations.accountKey input.email = H.identity.registrations.accountKey a.email →
      H.adapter.registerIdentity H.keycloak.service input
          ⟨t'.accounts, H.identity.registrations.newSubject i, []⟩ =
        .error (.emailAlreadyRegistered input.email) ⟨t'.accounts, H.identity.registrations.newSubject i, []⟩ := by
  have hstart : HttpInv H A (Identity.start A U) (HttpIdentity.start A U) :=
    ⟨abstracts_start, bindingInv_start hF hids hext hbound, accountInv_start hF.accounts hF.keys,
      fun i x h => (by cases h)⟩
  have hreached : ∃ s, HttpInv H A s t := by
    refine invariant (I := fun t => ∃ s, HttpInv H A s t) ?_ ⟨_, hstart⟩ hrun
    rintro t e t' ⟨s, hI⟩ hstep
    rcases httpInv_step hH hF hI hstep with hI' | ⟨-, s', -, hI'⟩
    · exact ⟨s, hI'⟩
    · exact ⟨s', hI'⟩
  obtain ⟨⟨s, hI⟩, ho'⟩ := invariant (I := fun t => (∃ s, HttpInv H A s t) ∧ Orphaned t a)
    (fun _ _ _ h hstep => orphaned_step hH hF h hstep) ⟨hreached, ho⟩ hrest
  have husers : ∀ u ∈ t'.users, H.identity.registrations.accountKey u.email ≠
      H.identity.registrations.accountKey a.email := by
    intro u hu hkey
    obtain ⟨b, hb, hsubject, hbkey⟩ := hI.binding.bound u (hI.abstracts.users ▸ hu)
    have hab := List.inj_on_of_nodup_map hI.binding.keys hb (hI.abstracts.accounts ▸ ho'.account)
      (hbkey.trans hkey)
    exact ho'.users u hu (hab ▸ hsubject.symm)
  refine ⟨ho', husers, fun j x c hj => ?_, fun i input hkey => ?_⟩
  · have htoken : s.tokens j = .returned (some x) c := by
      rcases hI.abstracts.tokens j with h | ⟨h, -⟩
      · exact h.symm.trans hj
      · rw [h] at hj; cases hj
    obtain ⟨u, hu, -, hux⟩ := (hI.binding.tokens j).user x c.sub c.email (by rw [htoken]; rfl) (by rw [htoken]; rfl)
    obtain ⟨v, hv, -, hve⟩ := hI.binding.identity.known j c.sub c.email (by rw [htoken]; rfl)
    rw [← hI.abstracts.users] at hu hv
    exact ⟨fun hxa => ho'.users u hu (hux.trans hxa), hve ▸ husers v hv⟩
  · have htaken : (t'.accounts.any fun b => H.keycloak.accountKey b.email = H.keycloak.accountKey input.email) =
        true := by
      rw [hH.accountKey]
      exact List.any_eq_true.2 ⟨a, ho'.account, by simp [hkey]⟩
    rw [Keycloak.registerIdentity_noFault hconfig rfl (hH.subjects i), if_pos htaken]

/-- Her first registration, up to the POST that creates her account. -/
def janeIsOrphaned : List (HttpIdentityEvent (Fin 2) Bool) :=
  List.replicate 3 (.register janeRegistration (.millis 1) none) ++
    [.register janeRegistration (.millis 1) (some .replyLost)]

def janeSecondRegistration : Fin 2 := Fin.last 1

/-- She registers again, with another capital, and logs in. -/
def janeTriesAgain : List (HttpIdentityEvent (Fin 2) Bool) :=
  List.replicate 4 (.register janeSecondRegistration (.millis 2) none) ++
    List.replicate 3 (.token true (.millis 3) [] none)

def janeAccount : KeycloakAccount :=
  ⟨"kc-sub-1", "jane@example.com", "jane@example.com", "Jane", "Doe", "Sup3rStrongPassw0rd!"⟩

theorem janeIsOrphaned_run : ∃ t, exec janeHttp.step (HttpIdentity.start [] []) janeIsOrphaned = some t ∧
    t.registrations janeRegistration = .failed (.error Keycloak.noReplyMessage) ∧ Orphaned t janeAccount := by
  have hrun : (exec janeHttp.step (HttpIdentity.start [] []) janeIsOrphaned).map
      (fun t => (t.accounts, t.users, t.registrations janeRegistration, t.registrations janeSecondRegistration)) =
        some ([janeAccount], [], .failed (.error Keycloak.noReplyMessage), .handler .received) := by decide +kernel
  obtain ⟨t, ht, hstate⟩ := Option.map_eq_some_iff.1 hrun
  simp only [Prod.mk.injEq] at hstate
  obtain ⟨haccounts, husers, hfirst, hsecond⟩ := hstate
  refine ⟨t, ht, hfirst, by rw [haccounts]; exact List.mem_singleton_self _, by rw [husers]; simp, fun i => ?_⟩
  have hboth : ∀ k : Fin 2, k = janeRegistration ∨ k = janeSecondRegistration := by decide
  rcases hboth i with rfl | rfl
  · rw [hfirst]; simp [HttpRegistrationPhase.externalId]
  · rw [hsecond]; simp [HttpRegistrationPhase.externalId, RegistrationPhase.externalId]

theorem account_created_jane : ∃ t, exec janeHttp.step (HttpIdentity.start [] []) janeIsOrphaned = some t ∧
    ∀ i b, (t.registrations i).created = some b →
      (b = true ↔ ∃ a ∈ t.accounts, a.subject = janeHttp.identity.registrations.newSubject i) := by
  obtain ⟨t, ht, -⟩ := janeIsOrphaned_run
  exact ⟨t, ht, (account_created janeHttp janeHttp_documented [] [] (by simp) (by simp) ht).1⟩

theorem orphan_locked_out_jane : ∃ t t', exec janeHttp.step (HttpIdentity.start [] []) janeIsOrphaned = some t ∧
    exec janeHttp.step t janeTriesAgain = some t' ∧
    t'.registrations janeSecondRegistration = .handler (.failed (.emailAlreadyRegistered "Jane@example.com")) ∧
    t'.tokens true = .failed (.auth .invalidCredentials) ∧ Orphaned t' janeAccount := by
  obtain ⟨t, ht, -, ho⟩ := janeIsOrphaned_run
  have hrun : (exec janeHttp.step (HttpIdentity.start [] []) (janeIsOrphaned ++ janeTriesAgain)).map
      (fun t => (t.registrations janeSecondRegistration, t.tokens true)) =
        some (.handler (.failed (.emailAlreadyRegistered "Jane@example.com")),
          .failed (.auth .invalidCredentials)) := by decide +kernel
  obtain ⟨t', ht', hstate⟩ := Option.map_eq_some_iff.1 hrun
  obtain ⟨u, hu, hrest⟩ := exec_append.1 ht'
  obtain rfl := Option.some.inj (ht.symm.trans hu)
  simp only [Prod.mk.injEq] at hstate
  refine ⟨t, t', ht, hrest, hstate.1, hstate.2, ?_⟩
  exact (orphan_locked_out janeHttp janeHttp_documented rfl [] [] (twoRegistrations_fresh _ _) (by simp) (by simp)
    (by simp) ht ho hrest).1

end AccountApi

import AccountApi.Spec.Registration

/-!
# Registrations that leave no orphan

After the account exists in Keycloak, `CreateUserCommand` validates the display name
again, with the bounds of the `user` context. A registration whose display name only
the first validation accepts fails there, and its account stays without a local user.

* `RegistrationInv`: as long as no request can fail so (`Provisionable`), every account
  a registration created belongs to one that is still in progress or has its user.
* `orphan_run`: a request that can fail so leaves an orphan when it runs alone.
* `no_orphan_iff`: the two together.
-/

namespace AccountApi

open Transition

variable {ι : Type} {S : Registrations ι} {s t : RegistrationState ι} {i : ι} {now : Date}
  {A A' : List KeycloakAccount} {U U' : List UserEntity}

/-- The steps of one registration. -/
inductive RegistrationMove (S : Registrations ι) (i : ι) (now : Date) (A : List KeycloakAccount)
    (U : List UserEntity) : List KeycloakAccount → List UserEntity → RegistrationPhase →
      RegistrationPhase → Prop
  | reject : RegisterUserCommand.new S.kit (S.requests i) = none →
      RegistrationMove S i now A U A U .received (.failed .invalidValue)
  | accept (c) : RegisterUserCommand.new S.kit (S.requests i) = some c →
      RegistrationMove S i now A U A U .received (.accepted c)
  | noLookup (c) : S.kit.emailValue c.email = none →
      RegistrationMove S i now A U A U (.accepted c) (.failed .invalidValue)
  | taken (c) (email) : S.kit.emailValue c.email = some email → (userByEmail U email).isSome = true →
      RegistrationMove S i now A U A U (.accepted c) (.failed (.emailAlreadyRegistered c.email))
  | available (c) (email) : S.kit.emailValue c.email = some email → userByEmail U email = none →
      RegistrationMove S i now A U A U (.accepted c) (.available c)
  | conflict (c) : (∃ a ∈ A, S.accountKey a.email = S.accountKey c.email) →
      RegistrationMove S i now A U A U (.available c) (.failed (.emailAlreadyRegistered c.email))
  | identify (c) : (∀ a ∈ A, S.accountKey a.email ≠ S.accountKey c.email) →
      RegistrationMove S i now A U (A ++ [c.identity (S.newSubject i)]) U (.available c)
        (.identified c (S.newSubject i))
  | unprovisionable (c) (x) : CreateUserCommand.new S.kit x c.email c.displayName = none →
      RegistrationMove S i now A U A U (.identified c x) (.failed .invalidValue)
  | provision (c) (x) (c') : CreateUserCommand.new S.kit x c.email c.displayName = some c' →
      RegistrationMove S i now A U A U (.identified c x) (.provisioning c')
  | userTaken (c) : (userByEmail U c.email).isSome = true →
      RegistrationMove S i now A U A U (.provisioning c) (.failed (.userEmailAlreadyRegistered c.email))
  | userFree (c) : userByEmail U c.email = none →
      RegistrationMove S i now A U A U (.provisioning c) (.emailAvailable c)
  | unbuilt (c) : c.build S.kit (S.newUserId i) now = none →
      RegistrationMove S i now A U A U (.emailAvailable c) (.failed .invalidValue)
  | unsaved (c) (u) : c.build S.kit (S.newUserId i) now = some u → saveUser U u = none →
      RegistrationMove S i now A U A U (.emailAvailable c) (.failed .queryFailed)
  | save (c) (u) (U') : c.build S.kit (S.newUserId i) now = some u → saveUser U u = some U' →
      RegistrationMove S i now A U A U' (.emailAvailable c) (.registered u)

theorem advance_registrationMove {p p' : RegistrationPhase}
    (h : S.advance i now A U p = some (A', U', p')) : RegistrationMove S i now A U A' U' p p' := by
  unfold Registrations.advance at h
  split at h
  · split at h <;> cases h
    · exact .reject ‹_›
    · exact .accept _ ‹_›
  · split at h
    · cases h; exact .noLookup _ ‹_›
    rename_i email he
    split at h <;> cases h <;> rename_i hu
    · exact .taken _ _ he hu
    · exact .available _ _ he (by simpa using hu)
  · split at h <;> cases h <;> rename_i hkey
    · exact .conflict _ (by simpa using hkey)
    · exact .identify _ (by simpa using hkey)
  · split at h <;> cases h
    · exact .unprovisionable _ _ ‹_›
    · exact .provision _ _ _ ‹_›
  · split at h <;> cases h <;> rename_i hu
    · exact .userTaken _ hu
    · exact .userFree _ (by simpa using hu)
  · split at h
    · cases h; exact .unbuilt _ ‹_›
    · split at h <;> cases h
      · exact .unsaved _ _ ‹_› ‹_›
      · exact .save _ _ _ ‹_› ‹_›
  · cases h
  · cases h

theorem registration_step [DecidableEq ι] (h : S.step s (i, now) = some t) :
    RegistrationMove S i now s.accounts s.users t.accounts t.users (s.phase i) (t.phase i) ∧
      ∀ j, j ≠ i → t.phase j = s.phase j := by
  simp only [Registrations.step, Option.map_eq_some_iff] at h
  obtain ⟨⟨A', U', p⟩, hq, rfl⟩ := h
  refine ⟨?_, fun j hj => Function.update_of_ne hj _ _⟩
  simp only [Function.update_self]
  exact advance_registrationMove hq

/-! ## What the second validation needs -/

/-- What Keycloak and the server generate is new, the subjects are ones `ExternalIdValueObject`
accepts, and Keycloak keeps one account for each key. -/
structure Registrations.Fresh (S : Registrations ι) (A : List KeycloakAccount) (U : List UserEntity) :
    Prop where
  lawful : S.kit.Lawful
  subjects : ∀ i, S.kit.externalIdValue (S.newSubject i) = some (S.newSubject i) ∧ S.newSubject i ≠ ""
  accounts : ∀ i, ∀ a ∈ A, a.subject ≠ S.newSubject i
  users : ∀ i, ∀ u ∈ U, u.externalId ≠ S.newSubject i ∧ u.id ≠ S.newUserId i
  keys : (A.map fun a => S.accountKey a.email).Nodup

/-- The email has no local user and no account. -/
def Registrations.Unregistered (S : Registrations ι) (A : List KeycloakAccount) (U : List UserEntity)
    (email : String) : Prop :=
  (∀ u ∈ U, u.email ≠ email) ∧ ∀ a ∈ A, S.accountKey a.email ≠ S.accountKey email

/-- `DisplayNameValueObject` accepts the display name too, if there is one. -/
def Registrations.Provisionable (S : Registrations ι) (c : RegisterUserCommand) : Prop :=
  ∀ d, c.displayName = some d → (S.kit.displayNameValue d).isSome = true

theorem userByEmail_none {email : String} :
    userByEmail U email = none ↔ ∀ u ∈ U, u.email ≠ email := by
  simp [userByEmail]

theorem RegisterUserCommand.email_again (hk : S.kit.Lawful) {c : RegisterUserCommand}
    (h : RegisterUserCommand.new S.kit (S.requests i) = some c) :
    S.kit.emailValue c.email = some c.email := by
  simp only [RegisterUserCommand.new, Option.bind_eq_bind, Option.bind_eq_some_iff,
    Option.pure_def, Option.some.injEq] at h
  obtain ⟨email, he, -, -, -, -, rfl⟩ := h
  exact hk.emailValue_again _ _ he

/-- `CreateUserCommand` accepts the values of a command exactly when it accepts its display name. -/
theorem createUserCommand_iff (hF : S.Fresh A U) {c : RegisterUserCommand}
    (h : RegisterUserCommand.new S.kit (S.requests i) = some c) :
    (CreateUserCommand.new S.kit (S.newSubject i) c.email c.displayName).isSome = true ↔
      S.Provisionable c := by
  simp only [CreateUserCommand.new, (hF.subjects i).1, RegisterUserCommand.email_again hF.lawful h,
    Registrations.Provisionable]
  cases c.displayName with
  | none => simp [Kit.optional]
  | some d => cases hd : S.kit.displayNameValue d <;> simp [Kit.optional, hd]

/-- What `CreateUserCommand` accepted, `UserBuilder` accepts again. -/
theorem CreateUserCommand.build_again (hF : S.Fresh A U) {c : RegisterUserCommand}
    (h : RegisterUserCommand.new S.kit (S.requests i) = some c) {c' : CreateUserCommand}
    (h' : CreateUserCommand.new S.kit (S.newSubject i) c.email c.displayName = some c') (id : Uuid)
    (now : Date) :
    c'.externalId = S.newSubject i ∧ c'.email = c.email ∧
      c'.build S.kit id now = some ⟨id, S.newSubject i, c.email, c'.displayName, false, now, now⟩ := by
  have hk := hF.lawful
  have hemail := RegisterUserCommand.email_again hk h
  have hne := hk.emailValue_ne _ _ hemail
  simp only [CreateUserCommand.new, (hF.subjects i).1, hemail, Option.bind_eq_bind, Option.bind_some,
    Option.bind_eq_some_iff, Option.pure_def, Option.some.injEq] at h'
  obtain ⟨d, hd, rfl⟩ := h'
  refine ⟨rfl, rfl, ?_⟩
  have hagain : Kit.optional S.kit.displayNameValue d = some d := by
    cases hc : c.displayName with
    | none => rw [hc] at hd; cases hd; rfl
    | some v =>
      rw [hc, Kit.optional, Option.map_eq_some_iff] at hd
      obtain ⟨w, hw, rfl⟩ := hd
      have := hk.stringValue_again _ _ _ hw
      exact congrArg (Option.map some) this
  rw [CreateUserCommand.build, guard, if_pos ⟨(hF.subjects i).2, hne⟩]
  simp only [(hF.subjects i).1, hemail, hagain]
  rfl

/-- The email of a registration whose account exists in Keycloak. -/
def RegistrationPhase.owner : RegistrationPhase → Option String
  | identified c _ => some c.email
  | provisioning c | emailAvailable c => some c.email
  | registered u => some u.email
  | _ => none

/-- What a registration in progress knows. -/
structure RegistrationView (S : Registrations ι) (i : ι) (A₀ : List KeycloakAccount)
    (U₀ : List UserEntity) (users : List UserEntity) (p : RegistrationPhase) : Prop where
  accepted : ∀ c, p = .accepted c → RegisterUserCommand.new S.kit (S.requests i) = some c
  available : ∀ c, p = .available c → RegisterUserCommand.new S.kit (S.requests i) = some c ∧
    ∀ u ∈ U₀, u.email ≠ c.email
  identified : ∀ c x, p = .identified c x → RegisterUserCommand.new S.kit (S.requests i) = some c ∧
    S.Unregistered A₀ U₀ c.email ∧ x = S.newSubject i
  provisioning : ∀ c, p = .provisioning c ∨ p = .emailAvailable c →
    (∀ u ∈ U₀, u.email ≠ c.email) ∧ ∀ id now, ∃ d, c.build S.kit id now =
      some ⟨id, S.newSubject i, c.email, d, false, now, now⟩
  registered : ∀ u, p = .registered u → u ∈ users ∧ u.externalId = S.newSubject i ∧ u.id = S.newUserId i

/-- What holds in every state reached from accounts `A₀` and users `U₀`. -/
structure RegistrationInv (S : Registrations ι) (A₀ : List KeycloakAccount) (U₀ : List UserEntity)
    (s : RegistrationState ι) : Prop where
  keys : (s.accounts.map fun a => S.accountKey a.email).Nodup
  old : ∀ a ∈ A₀, a ∈ s.accounts
  oldUsers : ∀ u ∈ U₀, u ∈ s.users
  owned : ∀ i e, (s.phase i).owner = some e → ∃ a ∈ s.accounts, a.subject = S.newSubject i ∧ a.email = e
  unowned : ∀ i, (s.phase i).owner = none → ∀ a ∈ s.accounts, a.subject ≠ S.newSubject i
  rows : ∀ u ∈ s.users, u ∈ U₀ ∨ ∃ i, s.phase i = .registered u
  views : ∀ i, RegistrationView S i A₀ U₀ s.users (s.phase i)

/-- Two registrations whose accounts exist have different emails. -/
theorem RegistrationInv.owner_inj (hI : RegistrationInv S A U s) {i j : ι} {e : String}
    (hi : (s.phase i).owner = some e) (hj : (s.phase j).owner = some e) : i = j := by
  obtain ⟨a, ha, has, hae⟩ := hI.owned i e hi
  obtain ⟨b, hb, hbs, hbe⟩ := hI.owned j e hj
  obtain rfl := List.inj_on_of_nodup_map hI.keys ha hb (by rw [hae, hbe])
  exact S.newSubject.injective (has.symm.trans hbs)

/-- The local table has no other user with the email of an account that was just created. -/
theorem RegistrationInv.email_free (hI : RegistrationInv S A U s) {i : ι} {e : String}
    (hown : (s.phase i).owner = some e) (hun : ∀ u, s.phase i ≠ .registered u)
    (hold : ∀ u ∈ U, u.email ≠ e) : ∀ u ∈ s.users, u.email ≠ e := by
  intro u hu he
  rcases hI.rows u hu with h | ⟨j, hj⟩
  · exact hold u h he
  · obtain rfl := hI.owner_inj hown (by rw [hj, RegistrationPhase.owner, he])
    exact hun u hj

/-- No request fails the second validation after its account was created. -/
def Registrations.AllProvisionable (S : Registrations ι) (A : List KeycloakAccount)
    (U : List UserEntity) : Prop :=
  ∀ i c, RegisterUserCommand.new S.kit (S.requests i) = some c → S.Unregistered A U c.email →
    S.Provisionable c

theorem registrationInv_start (hF : S.Fresh A U) : RegistrationInv S A U (Registrations.start A U) where
  keys := hF.keys
  old a ha := ha
  oldUsers u hu := hu
  owned i e h := by simp [Registrations.start, RegistrationPhase.owner] at h
  unowned i _ a ha := hF.accounts i a ha
  rows u hu := Or.inl hu
  views i := by constructor <;> simp [Registrations.start]

/-- A view does not depend on the other registrations: the users it knows stay. -/
theorem RegistrationView.mono {A₀ : List KeycloakAccount} {U₀ : List UserEntity} {p : RegistrationPhase}
    (h : RegistrationView S i A₀ U₀ U p) (hU : ∀ u ∈ U, u ∈ U') : RegistrationView S i A₀ U₀ U' p :=
  ⟨h.accepted, h.available, h.identified, h.provisioning,
    fun u hu => ⟨hU u (h.registered u hu).1, (h.registered u hu).2⟩⟩

/-- The save of a user whose email and ids are new adds its row. -/
theorem saveUser_insert {u : UserEntity}
    (h : ∀ x ∈ U, x.id ≠ u.id ∧ x.externalId ≠ u.externalId ∧ x.email ≠ u.email) :
    saveUser U u = some (U ++ [u]) :=
  Table.upsert_insert (fun x hx => (h x hx).1) fun x hx => by simp [(h x hx).2]

variable {A₀ : List KeycloakAccount} {U₀ : List UserEntity}

/-- The save of a registration succeeds: nobody else has its email, its subject or its id. -/
theorem RegistrationInv.saves (hI : RegistrationInv S A₀ U₀ s) (hF : S.Fresh A₀ U₀)
    {c : CreateUserCommand} (hp : s.phase i = .emailAvailable c) {u : UserEntity}
    (hb : c.build S.kit (S.newUserId i) now = some u) :
    ∃ d, u = ⟨S.newUserId i, S.newSubject i, c.email, d, false, now, now⟩ ∧
      saveUser s.users u = some (s.users ++ [u]) := by
  obtain ⟨hold, hbuild⟩ := (hI.views i).provisioning c (Or.inr hp)
  obtain ⟨d, hd⟩ := hbuild (S.newUserId i) now
  obtain rfl := Option.some.inj (hd.symm.trans hb)
  refine ⟨d, rfl, saveUser_insert fun x hx => ?_⟩
  have hemail := hI.email_free (i := i) (e := c.email) (by rw [hp]; rfl) (by simp [hp]) hold x hx
  rcases hI.rows x hx with h | ⟨j, hj⟩
  · exact ⟨(hF.users i x h).2, (hF.users i x h).1, hemail⟩
  · obtain ⟨-, hext, hid⟩ := (hI.views j).registered x hj
    have hji : j ≠ i := by rintro rfl; rw [hp] at hj; cases hj
    rw [hid, hext]
    exact ⟨fun h => hji (S.newUserId.injective h), fun h => hji (S.newSubject.injective h), hemail⟩

/-- **What one step of a registration changes**: nothing, the new account, or the new user. Once
the account exists the registration does not fail. -/
theorem move_outcome (hF : S.Fresh A₀ U₀) (hP : S.AllProvisionable A₀ U₀)
    (hI : RegistrationInv S A₀ U₀ s) {p : RegistrationPhase}
    (h : RegistrationMove S i now s.accounts s.users A' U' (s.phase i) p) :
    (A' = s.accounts ∧ U' = s.users ∧ p.owner = (s.phase i).owner ∧ ∀ u, p ≠ .registered u) ∨
      (∃ c, s.phase i = .available c ∧ p = .identified c (S.newSubject i) ∧
        A' = s.accounts ++ [c.identity (S.newSubject i)] ∧ U' = s.users ∧
        ∀ a ∈ s.accounts, S.accountKey a.email ≠ S.accountKey c.email) ∨
      (∃ c d, s.phase i = .emailAvailable c ∧ A' = s.accounts ∧
        p = .registered ⟨S.newUserId i, S.newSubject i, c.email, d, false, now, now⟩ ∧
        U' = s.users ++ [⟨S.newUserId i, S.newSubject i, c.email, d, false, now, now⟩]) := by
  have hv := hI.views i
  have hfree : ∀ e, (s.phase i).owner = some e → (∀ u, s.phase i ≠ .registered u) →
      (∀ u ∈ U₀, u.email ≠ e) → ∀ u ∈ s.users, u.email ≠ e := fun e => hI.email_free
  generalize hq : s.phase i = q at h hv hfree ⊢
  cases h with
  | identify c hkey => exact Or.inr (Or.inl ⟨c, rfl, rfl, rfl, rfl, hkey⟩)
  | unprovisionable c x hnone =>
    obtain ⟨hc, hun, rfl⟩ := hv.identified c x rfl
    have := (createUserCommand_iff hF hc).2 (hP i c hc hun)
    rw [hnone] at this; cases this
  | provision c x c' hc' =>
    obtain ⟨hc, -, rfl⟩ := hv.identified c x rfl
    obtain ⟨-, he, -⟩ := CreateUserCommand.build_again hF hc hc' (S.newUserId i) .invalid
    exact Or.inl ⟨rfl, rfl, congrArg some he, by simp⟩
  | userTaken c htaken =>
    have := hfree c.email rfl (by simp) (hv.provisioning c (Or.inl rfl)).1
    rw [← userByEmail_none] at this
    rw [this] at htaken; cases htaken
  | unbuilt c hnone =>
    obtain ⟨d, hd⟩ := (hv.provisioning c (Or.inr rfl)).2 (S.newUserId i) now
    rw [hd] at hnone; cases hnone
  | unsaved c u hb hnone =>
    obtain ⟨d, rfl, hsave⟩ := hI.saves hF hq hb
    rw [hsave] at hnone; cases hnone
  | save c u _ hb hsaved =>
    obtain ⟨d, rfl, hsave⟩ := hI.saves hF hq hb
    rw [hsave] at hsaved; cases hsaved
    exact Or.inr (Or.inr ⟨c, d, rfl, rfl, rfl, rfl⟩)
  | _ => exact Or.inl ⟨rfl, rfl, rfl, by simp⟩

/-- What a registration knows after its own step. -/
theorem move_registrationView (hF : S.Fresh A₀ U₀) (hI : RegistrationInv S A₀ U₀ s)
    {p : RegistrationPhase} (h : RegistrationMove S i now s.accounts s.users A' U' (s.phase i) p) :
    RegistrationView S i A₀ U₀ U' p := by
  have hv := hI.views i
  have hold := hI.old
  generalize hq : s.phase i = q at h hv
  cases h with
  | accept c hc => constructor <;> simp [hc]
  | available c email he hnone =>
    have hc := hv.accepted c rfl
    rw [RegisterUserCommand.email_again hF.lawful hc] at he
    cases he
    rw [userByEmail_none] at hnone
    constructor <;> simp [hc]
    exact fun u hu => hnone u (hI.oldUsers u hu)
  | identify c hkey =>
    obtain ⟨hc, hun⟩ := hv.available c rfl
    constructor <;> simp [hc]
    exact ⟨hun, fun a ha => hkey a (hold a ha)⟩
  | provision c x c' hc' =>
    obtain ⟨hc, hun, rfl⟩ := hv.identified c x rfl
    constructor <;> simp
    obtain ⟨-, he, -⟩ := CreateUserCommand.build_again hF hc hc' (S.newUserId i) .invalid
    refine ⟨by rw [he]; exact hun.1, fun id now => ⟨c'.displayName, ?_⟩⟩
    rw [he]
    exact (CreateUserCommand.build_again hF hc hc' id now).2.2
  | userFree c hnone =>
    obtain ⟨hold, hbuild⟩ := hv.provisioning c (Or.inl rfl)
    constructor <;> simp
    exact ⟨hold, hbuild⟩
  | save c u _ hb hsaved =>
    obtain ⟨d, rfl, hsave⟩ := hI.saves hF hq hb
    rw [hsave] at hsaved; cases hsaved
    constructor <;> simp
  | _ => constructor <;> simp

theorem registered_final {u : UserEntity} {p : RegistrationPhase} :
    ¬ RegistrationMove S i now A U A' U' (.registered u) p := fun h => by cases h

section
variable (hother : ∀ j, j ≠ i → t.phase j = s.phase j)
include hother

/-- All registrations keep their accounts when the one that moves does. -/
theorem owners_kept (hown : (t.phase i).owner = (s.phase i).owner) :
    ∀ j, (t.phase j).owner = (s.phase j).owner :=
  forall_moved (P := fun j p => p.owner = (s.phase j).owner) hother hown fun _ _ => rfl

/-- The step of a registration that changes neither table nor whose account it is. -/
theorem RegistrationInv.unchanged (hI : RegistrationInv S A₀ U₀ s) (hA : t.accounts = s.accounts)
    (hU : t.users = s.users) (hown : (t.phase i).owner = (s.phase i).owner)
    (hrows : ∀ u ∈ s.users, u ∈ U₀ ∨ ∃ j, t.phase j = .registered u)
    (hviews : ∀ j, RegistrationView S j A₀ U₀ t.users (t.phase j)) : RegistrationInv S A₀ U₀ t := by
  have howner := owners_kept hother hown
  exact ⟨hA ▸ hI.keys, hA ▸ hI.old, hU ▸ hI.oldUsers, fun j e he => hA ▸ hI.owned j e (howner j ▸ he),
    fun j hj => hA ▸ hI.unowned j (howner j ▸ hj), hU ▸ hrows, hviews⟩

/-- The account is created. -/
theorem RegistrationInv.identified (hI : RegistrationInv S A₀ U₀ s) {c : RegisterUserCommand}
    (hp : t.phase i = .identified c (S.newSubject i))
    (hA : t.accounts = s.accounts ++ [c.identity (S.newSubject i)]) (hU : t.users = s.users)
    (hkey : ∀ a ∈ s.accounts, S.accountKey a.email ≠ S.accountKey c.email)
    (hrows : ∀ u ∈ s.users, u ∈ U₀ ∨ ∃ j, t.phase j = .registered u)
    (hviews : ∀ j, RegistrationView S j A₀ U₀ t.users (t.phase j)) : RegistrationInv S A₀ U₀ t := by
  refine ⟨?_, ?_, hU ▸ hI.oldUsers, ?_, ?_, hU ▸ hrows, hviews⟩
  · rw [hA]
    exact Table.nodup_insert hI.keys hkey
  · rw [hA]; exact fun a ha => List.mem_append_left _ (hI.old a ha)
  · intro j e he
    rw [hA]
    by_cases hji : j = i
    · rw [hji, hp] at he
      cases he
      exact ⟨_, List.mem_append_right _ List.mem_cons_self, by rw [hji]; rfl, rfl⟩
    · obtain ⟨a, ha, hs⟩ := hI.owned j e (hother j hji ▸ he)
      exact ⟨a, List.mem_append_left _ ha, hs⟩
  · intro j hj a ha
    have hji : j ≠ i := by
      rintro rfl
      rw [hp] at hj; cases hj
    rw [hA, List.mem_append, List.mem_singleton] at ha
    rcases ha with ha | rfl
    · exact hI.unowned j (hother j hji ▸ hj) a ha
    · exact fun heq => hji (S.newSubject.injective heq.symm)

/-- The user is stored. -/
theorem RegistrationInv.registered (hI : RegistrationInv S A₀ U₀ s) {u : UserEntity}
    (hp : t.phase i = .registered u) (hown : (t.phase i).owner = (s.phase i).owner)
    (hA : t.accounts = s.accounts) (hU : t.users = s.users ++ [u])
    (hrows : ∀ u ∈ s.users, u ∈ U₀ ∨ ∃ j, t.phase j = .registered u)
    (hviews : ∀ j, RegistrationView S j A₀ U₀ t.users (t.phase j)) : RegistrationInv S A₀ U₀ t := by
  have howner := owners_kept hother hown
  have hsub : ∀ u ∈ s.users, u ∈ t.users := by
    rw [hU]; exact fun u hu => List.mem_append_left _ hu
  refine ⟨hA ▸ hI.keys, hA ▸ hI.old, fun u hu => hsub u (hI.oldUsers u hu),
    fun j e he => hA ▸ hI.owned j e (howner j ▸ he), fun j hj => hA ▸ hI.unowned j (howner j ▸ hj),
    ?_, hviews⟩
  intro v hv
  rw [hU, List.mem_append, List.mem_singleton] at hv
  rcases hv with hv | rfl
  · exact hrows v hv
  · exact Or.inr ⟨i, hp⟩

end

/-- **Every step preserves the invariant** when no request can fail the second validation. -/
theorem registrationInv_step [DecidableEq ι] (hF : S.Fresh A₀ U₀) (hP : S.AllProvisionable A₀ U₀)
    (hI : RegistrationInv S A₀ U₀ s) {a : ι × Date} (h : S.step s a = some t) :
    RegistrationInv S A₀ U₀ t := by
  obtain ⟨i, now⟩ := a
  obtain ⟨hm, hother⟩ := registration_step h
  have hview := move_registrationView hF hI hm
  have hviews : (∀ u ∈ s.users, u ∈ t.users) →
      ∀ j, RegistrationView S j A₀ U₀ t.users (t.phase j) := by
    intro hsub
    exact forall_moved hother hview fun j _ => (hI.views j).mono hsub
  -- a registered request is not the one that steps
  have hrows : ∀ u ∈ s.users, u ∈ U₀ ∨ ∃ j, t.phase j = .registered u := by
    intro u hu
    refine (hI.rows u hu).imp_right ?_
    rintro ⟨j, hj⟩
    have hji : j ≠ i := by
      rintro rfl
      rw [hj] at hm
      exact registered_final hm
    exact ⟨j, by rw [hother j hji]; exact hj⟩
  rcases move_outcome hF hP hI hm with ⟨hA, hU, hown, -⟩ | ⟨c, hq, hp, hA, hU, hkey⟩ |
    ⟨c, d, hq, hA, hp, hU⟩
  · exact hI.unchanged hother hA hU hown hrows (hviews (by rw [hU]; exact fun _ h => h))
  · exact hI.identified hother hp hA hU hkey hrows (hviews (by rw [hU]; exact fun _ h => h))
  · refine hI.registered hother hp (by rw [hp, hq]; rfl) hA hU hrows (hviews ?_)
    rw [hU]; exact fun u hu => List.mem_append_left _ hu

/-- When no registration is in progress, every account that one created has its local user. -/
def Registrations.NoOrphan (S : Registrations ι) (s : RegistrationState ι) : Prop :=
  (∀ i, (s.phase i).inProgress = false) → ∀ a ∈ s.accounts, ∀ i, a.subject = S.newSubject i →
    ∃ u ∈ s.users, u.externalId = a.subject

theorem RegistrationInv.noOrphan (hI : RegistrationInv S A₀ U₀ s) : S.NoOrphan s := by
  intro hdone a ha i hsub
  have hown : (s.phase i).owner ≠ none := fun h => hI.unowned i h a ha hsub
  have hdone := hdone i
  have hreg := (hI.views i).registered
  cases hp : s.phase i <;> rw [hp] at hown hdone hreg
  case registered u =>
    obtain ⟨hu, hext, -⟩ := hreg u rfl
    exact ⟨u, hu, hext.trans hsub.symm⟩
  all_goals first | exact absurd rfl hown | cases hdone

/-- **A request that can fail the second validation leaves an orphan** when it runs alone. -/
theorem orphan_run [DecidableEq ι] (hF : S.Fresh A₀ U₀) {c : RegisterUserCommand}
    (hc : RegisterUserCommand.new S.kit (S.requests i) = some c)
    (hun : S.Unregistered A₀ U₀ c.email) (hd : ¬ S.Provisionable c) :
    ∃ as s, exec S.step (Registrations.start A₀ U₀) as = some s ∧ ¬ S.NoOrphan s := by
  have hnone : CreateUserCommand.new S.kit (S.newSubject i) c.email c.displayName = none := by
    rw [← createUserCommand_iff hF hc] at hd
    simpa using hd
  have hlookup : userByEmail U₀ c.email = none := userByEmail_none.2 hun.1
  have hany : (A₀.any fun a => S.accountKey a.email = S.accountKey c.email) = false := by
    simpa using hun.2
  have halone : ∀ A p A' p', S.advance i .invalid A U₀ p = some (A', U₀, p') →
      S.step ⟨A, U₀, Function.update (fun _ => .received) i p⟩ (i, .invalid) =
        some ⟨A', U₀, Function.update (fun _ => .received) i p'⟩ := fun A p A' p' h => by
    simp [Registrations.step, h]
  set A₁ := A₀ ++ [c.identity (S.newSubject i)]
  have hrun : exec S.step ⟨A₀, U₀, Function.update (fun _ => .received) i .received⟩
      [(i, .invalid), (i, .invalid), (i, .invalid), (i, .invalid)] =
      some ⟨A₁, U₀, Function.update (fun _ => .received) i (.failed .invalidValue)⟩ := by
    refine exec_cons.2 ⟨_, halone A₀ _ A₀ (.accepted c) ?_, ?_⟩
    · simp only [Registrations.advance, hc]
    refine exec_cons.2 ⟨_, halone A₀ _ A₀ (.available c) ?_, ?_⟩
    · simp only [Registrations.advance, RegisterUserCommand.email_again hF.lawful hc, hlookup]; rfl
    refine exec_cons.2 ⟨_, halone A₀ _ A₁ (.identified c (S.newSubject i)) ?_, ?_⟩
    · simp only [Registrations.advance, hany]; rfl
    refine exec_cons.2 ⟨_, halone A₁ _ A₁ (.failed .invalidValue) ?_, exec_nil.2 rfl⟩
    simp only [Registrations.advance, hnone]
  rw [Function.update_eq_self_iff.2 rfl] at hrun
  refine ⟨_, _, hrun, fun h => ?_⟩
  obtain ⟨u, hu, hext⟩ := h (fun j => by
      by_cases hji : j = i
      · simp [hji, RegistrationPhase.inProgress]
      · simp [Function.update_of_ne hji, RegistrationPhase.inProgress])
    _ (List.mem_append_right _ List.mem_cons_self) i rfl
  exact (hF.users i u hu).1 hext

/-- **Registrations never leave an orphan if and only if** the display name of each request that
could create an account is accepted by `DisplayNameValueObject` too. -/
theorem no_orphan_iff [DecidableEq ι] (hF : S.Fresh A₀ U₀) :
    (∀ as s, exec S.step (Registrations.start A₀ U₀) as = some s → S.NoOrphan s) ↔
      S.AllProvisionable A₀ U₀ := by
  constructor
  · intro h i c hc hun
    by_contra hd
    obtain ⟨as, s, hs, ho⟩ := orphan_run hF hc hun hd
    exact ho (h as s hs)
  · intro hP as s hs
    exact (invariant (fun _ _ _ hI h => registrationInv_step hF hP hI h) (registrationInv_start hF)
      hs).noOrphan

/-- Two registrations of one email in different capitalisation, with the given display names. -/
def twoRegistrations (displayName displayName' : Option String) : Registrations (Fin 2) where
  kit := Kit.permissive
  accountKey := String.toLower
  requests i := if i = 0 then ⟨"jane@example.com", "Sup3rStrongPassw0rd!", displayName⟩
    else ⟨"Jane@example.com", "Sup3rStrongPassw0rd!", displayName'⟩
  newSubject := ⟨fun i => if i = 0 then "kc-sub-1" else "kc-sub-2", by
    show ∀ i j : Fin 2, (if i = 0 then "kc-sub-1" else "kc-sub-2") =
      (if j = 0 then "kc-sub-1" else "kc-sub-2") → i = j
    decide⟩
  newUserId := ⟨fun i => i.val, fun _ _ => Fin.ext⟩

def janeRegistration : Fin 2 := 0

theorem twoRegistrations_fresh (d d' : Option String) : (twoRegistrations d d').Fresh [] [] where
  lawful := Kit.permissive_lawful
  subjects := by
    show ∀ i : Fin 2, Kit.permissive.externalIdValue (if i = 0 then "kc-sub-1" else "kc-sub-2") =
      some (if i = 0 then "kc-sub-1" else "kc-sub-2") ∧ (if i = 0 then "kc-sub-1" else "kc-sub-2") ≠ ""
    decide
  accounts := by simp
  users := by simp
  keys := by simp

theorem permissive_plain (d : Option String) :
    Kit.optional Kit.permissive.plainValue d = some (d.map JsString.trim) := by
  cases d <;> rfl

theorem twoRegistrations_new (d d' : Option String) (i : Fin 2) :
    RegisterUserCommand.new Kit.permissive ((twoRegistrations d d').requests i) =
      some ⟨if i = 0 then "jane@example.com" else "Jane@example.com", "Sup3rStrongPassw0rd!",
        (if i = 0 then d else d').map JsString.trim⟩ := by
  have h : ∀ email ∈ ["jane@example.com", "Jane@example.com"],
      Kit.permissive.emailValue email = some email := by decide
  have hp : ∀ v, Kit.permissive.passwordValue v = some v := fun _ => rfl
  by_cases hi : i = 0 <;>
    simp [RegisterUserCommand.new, twoRegistrations, hi, h, hp, permissive_plain]

theorem no_orphan_jane : ∃ s,
    exec (twoRegistrations (some "Jane Doe") none).step (Registrations.start [] [])
        ([0, 0, 0, 0, 0, 0].map fun i => (i, .millis 1)) = some s ∧ s.accounts.length = 1 ∧
      (twoRegistrations (some "Jane Doe") none).NoOrphan s := by
  have hprov : (twoRegistrations (some "Jane Doe") none).AllProvisionable [] [] := by
    intro i c hc _ d hd
    obtain rfl := Option.some.inj ((twoRegistrations_new _ _ i).symm.trans hc)
    by_cases hi : i = 0
    · simp only [hi, if_true, Option.map_some, Option.some.injEq] at hd
      subst hd
      show (Kit.permissive.displayNameValue (JsString.trim "Jane Doe")).isSome = true
      decide
    · simp [hi] at hd
  have hrun : (exec (twoRegistrations (some "Jane Doe") none).step (Registrations.start [] [])
      ([0, 0, 0, 0, 0, 0].map fun i => (i, .millis 1))).map (fun s => s.accounts.length) =
        some 1 := by decide +kernel
  obtain ⟨s, hs, hlen⟩ := Option.map_eq_some_iff.1 hrun
  exact ⟨s, hs, hlen, (no_orphan_iff (twoRegistrations_fresh _ _)).2 hprov _ s hs⟩

/-- A display name of 121 letters. -/
def longName : String := String.ofList (List.replicate 121 'a')

/-- **An orphan**: `StringValueObject` accepts 121 letters, `DisplayNameValueObject` does not. -/
theorem orphan_long_name : ∃ as s,
    exec (twoRegistrations (some longName) none).step (Registrations.start [] []) as = some s ∧
      ¬ (twoRegistrations (some longName) none).NoOrphan s := by
  refine orphan_run (twoRegistrations_fresh _ _) (twoRegistrations_new (some longName) none 0)
    ⟨by simp, by simp⟩ fun h => ?_
  have hname : Kit.permissive.displayNameValue (JsString.trim longName) = none := by decide +kernel
  have := h (JsString.trim longName) rfl
  rw [show (twoRegistrations (some longName) none).kit = Kit.permissive from rfl, hname] at this
  cases this

end AccountApi

import AccountApi.Spec.Identity
import AccountApi.Proof.Registration
import AccountApi.Proof.Aggregates

/-!
# The users under registrations, logins and refreshes

A step adds the row of a registration whose id is new, or rewrites the flag of a row on
behalf of a login, or leaves the rows as they are (`UsersMove`, `users_step`). So a row
keeps its id, its external id and its email for ever (`users_persist`), and what a login
or a refresh has read of its user stays true up to the flag (`IdentityInv`).
-/

namespace AccountApi

open Transition

variable {ι κ : Type}

/-- The steps of one login or refresh. -/
inductive TokenMove (S : Identity ι κ) (j : κ) (A : List KeycloakAccount) (U : List UserEntity) :
    List UserEntity → TokenPhase → TokenPhase → Prop
  | fails (p) (error) : p.finished = false → TokenMove S j A U U p (.failed error)
  | accept (email password c) : S.requests j = .login email password →
      LoginUserCommand.new S.registrations.kit email password = some c →
      TokenMove S j A U U .received (.accepted c)
  | findById (userId u) : S.requests j = .refresh userId → userById U userId = some u →
      TokenMove S j A U U .received (.userFound none u.toResult)
  | verify (c a) : S.verifyCredentials A c = some a →
      TokenMove S j A U U (.accepted c) (.verified c a.subject)
  | findByEmail (c x email u) : S.registrations.kit.emailValue c.email = some email →
      userByEmail U email = some u →
      TokenMove S j A U U (.verified c x) (.userFound (some x) u.toResult)
  | findTenants (x user tenants) :
      TokenMove S j A U U (.userFound x user) (.tenantsFound x user tenants)
  | asRead (user : UserLookupResult) (tenants) :
      TokenMove S j A U U (.tenantsFound none user tenants)
        (.signing none (user.claims user.platformAdmin tenants))
  | keep (x) (user : UserLookupResult) (tenants) :
      reconcilePlatformAdmin S.toLowerCase user.email user.platformAdmin S.platformAdminEmails = none →
      TokenMove S j A U U (.tenantsFound (some x) user tenants)
        (.signing (some x) (user.claims user.platformAdmin tenants))
  | reconcile (x) (user : UserLookupResult) (tenants target) :
      reconcilePlatformAdmin S.toLowerCase user.email user.platformAdmin S.platformAdminEmails =
        some target →
      TokenMove S j A U U (.tenantsFound (some x) user tenants) (.reconciling x user tenants target)
  | already (x user tenants u) : userById U user.userId = some u →
      TokenMove S j A U U (.reconciling x user tenants u.platformAdmin)
        (.signing (some x) (user.claims u.platformAdmin tenants))
  | update (x user tenants target u now) : userById U user.userId = some u → u.platformAdmin ≠ target →
      TokenMove S j A U U (.reconciling x user tenants target)
        (.saving x (user.claims target tenants) (u.toAggregate.update ⟨none, none, some target⟩ now))
  | save (x claims) (u : UserAggregate) (U') : saveUser U u.primitives = some U' →
      TokenMove S j A U U' (.saving x claims u) (.publishing x claims)
  | publish (x claims) : TokenMove S j A U U (.publishing x claims) (.signing (some x) claims)
  | sign (x claims) : TokenMove S j A U U (.signing (some x) claims) (.signed x claims)
  | answer (claims) : TokenMove S j A U U (.signing none claims) (.returned none claims)
  | saveSession (x claims) : TokenMove S j A U U (.signed x claims) (.returned (some x) claims)

/-- The request an event is a step of. -/
def IdentityEvent.request : IdentityEvent ι κ → Option κ
  | register _ _ => none
  | token j _ _ | failure j => some j

/-- A step is one of a registration, or one of a login or a refresh. -/
inductive IdentityMove (S : Identity ι κ) (s t : IdentityState ι κ) : IdentityEvent ι κ → Prop
  | register (i now) :
      RegistrationMove S.registrations i now s.registration.accounts s.registration.users
        t.registration.accounts t.registration.users (s.registration.phase i) (t.registration.phase i) →
      (∀ k, k ≠ i → t.registration.phase k = s.registration.phase k) → t.tokens = s.tokens →
      IdentityMove S s t (.register i now)
  | token (j) (e : IdentityEvent ι κ) : e.request = some j →
      TokenMove S j s.registration.accounts s.registration.users t.registration.users (s.tokens j)
        (t.tokens j) →
      (∀ k, k ≠ j → t.tokens k = s.tokens k) → t.registration.accounts = s.registration.accounts →
      t.registration.phase = s.registration.phase → IdentityMove S s t e

variable {S : Identity ι κ} {s t : IdentityState ι κ} {j : κ} {now : Date}
  {tenants : List TenantMembershipClaim} {A : List KeycloakAccount} {U U' : List UserEntity}
  {p p' : TokenPhase}

theorem advance_tokenMove (h : S.advance j now tenants A U p = some (U', p')) : TokenMove S j A U U' p p' := by
  unfold Identity.advance at h
  split at h
  case h_1 =>
    split at h <;> rename_i hreq <;> split at h <;> cases h
    · exact .fails _ _ rfl
    · exact .accept _ _ _ hreq ‹_›
    · exact .fails _ _ rfl
    · exact .findById _ _ hreq ‹_›
  case h_2 =>
    split at h <;> cases h
    · exact .fails _ _ rfl
    · exact .verify _ _ ‹_›
  case h_3 =>
    split at h
    · cases h; exact .fails _ _ rfl
    split at h <;> cases h
    · exact .fails _ _ rfl
    · exact .findByEmail _ _ _ _ ‹_› ‹_›
  case h_4 => cases h; exact .findTenants _ _ _
  case h_5 => cases h; exact .asRead _ _
  case h_6 =>
    split at h <;> cases h
    · exact .keep _ _ _ ‹_›
    · exact .reconcile _ _ _ _ ‹_›
  case h_7 =>
    split at h
    · cases h; exact .fails _ _ rfl
    split at h <;> cases h <;> rename_i hu
    · subst hu; exact .already _ _ _ _ ‹_›
    · exact .update _ _ _ _ _ _ ‹_› hu
  case h_8 =>
    split at h <;> cases h
    · exact .fails _ _ rfl
    · exact .save _ _ _ _ ‹_›
  case h_9 => cases h; exact .publish _ _
  case h_10 => cases h; exact .sign _ _
  case h_11 => cases h; exact .answer _
  case h_12 => cases h; exact .saveSession _ _
  all_goals cases h

variable {e : IdentityEvent ι κ} {phase : ι → RegistrationPhase}

theorem identity_step [DecidableEq ι] [DecidableEq κ] (h : S.step s e = some t) : IdentityMove S s t e := by
  cases e with
  | register i now =>
    simp only [Identity.step, Option.map_eq_some_iff] at h
    obtain ⟨r, hr, rfl⟩ := h
    obtain ⟨hmove, hothers⟩ := registration_step hr
    exact .register i now hmove hothers rfl
  | token j now tenants =>
    simp only [Identity.step, Option.map_eq_some_iff] at h
    obtain ⟨⟨U', p⟩, hq, rfl⟩ := h
    refine .token j _ rfl ?_ (fun k hk => Function.update_of_ne hk _ _) rfl rfl
    simp only [Function.update_self]
    exact advance_tokenMove hq
  | failure j =>
    simp only [Identity.step] at h
    split at h <;> cases h
    rename_i hp
    refine .token j _ rfl ?_ (fun k hk => Function.update_of_ne hk _ _) rfl rfl
    simp only [Function.update_self]
    exact .fails _ _ (by simpa using hp)

/-- The rows are of one user, whatever the flag. -/
def SameUser (u v : UserEntity) : Prop := u.id = v.id ∧ u.externalId = v.externalId ∧ u.email = v.email

/-- The id and the email of the user that a login or a refresh is about. -/
def TokenPhase.about : TokenPhase → Option (Uuid × String)
  | userFound _ u | tenantsFound _ u _ | reconciling _ u _ _ => some (u.userId, u.email)
  | saving _ c _ | publishing _ c | signing _ c | signed _ c | returned _ c => some (c.sub, c.email)
  | _ => none

/-- What a login is about to write: the row of the user of its claims, with the flag of the claims. -/
structure Rewrites (users : List UserEntity) (claims : SignedClaims) (u : UserEntity) : Prop where
  flag : u.platformAdmin = claims.platformAdmin
  sub : u.id = claims.sub
  email : u.email = claims.email
  row : ∃ v ∈ users, SameUser u v

/-- What holds in every state. -/
structure IdentityInv (S : Identity ι κ) (s : IdentityState ι κ) : Prop where
  ids : (s.registration.users.map (·.id)).Nodup
  unregistered : ∀ i, (∀ u, s.registration.phase i ≠ .registered u) →
    ∀ u ∈ s.registration.users, u.id ≠ S.registrations.newUserId i
  known : ∀ j id email, (s.tokens j).about = some (id, email) →
    ∃ u ∈ s.registration.users, u.id = id ∧ u.email = email
  saving : ∀ j x claims u, s.tokens j = .saving x claims u →
    Rewrites s.registration.users claims u.primitives

/-- What a step does to the users; `phase` is where it leads the registrations. -/
inductive UsersMove (S : Identity ι κ) (s : IdentityState ι κ) (phase : ι → RegistrationPhase) :
    List UserEntity → Prop
  | same : UsersMove S s phase s.registration.users
  | insert (i u) : phase i = .registered u → u.id = S.registrations.newUserId i →
      (∀ x ∈ s.registration.users, x.id ≠ u.id ∧ x.externalId ≠ u.externalId) →
      UsersMove S s phase (s.registration.users ++ [u])
  | rewrite (j x claims) (u : UserAggregate) : s.tokens j = .saving x claims u →
      Rewrites s.registration.users claims u.primitives →
      UsersMove S s phase
        (s.registration.users.map fun y => if y.id = u.primitives.id then u.primitives else y)

theorem CreateUserCommand.build_id {k : Kit} {c : CreateUserCommand} {id : Uuid} {u : UserEntity}
    (h : c.build k id now = some u) : u.id = id := by
  simp only [CreateUserCommand.build, Option.bind_eq_bind, Option.bind_eq_some_iff, Option.pure_def,
    Option.some.injEq] at h
  obtain ⟨-, -, -, -, -, -, -, -, rfl⟩ := h
  rfl

/-- The row of a user whose flag was changed. -/
theorem UserAggregate.update_platformAdmin (u : UserEntity) {target : Bool} (h : u.platformAdmin ≠ target)
    (now : Date) : (u.toAggregate.update ⟨none, none, some target⟩ now).primitives =
      { u with platformAdmin := target, updatedAt := now } := by
  refine userAggregate_described.touched u.toAggregate ⟨none, none, some target⟩ now ?_
  have hannounced : UserEntity.platformAdminField.announced u (some target) =
      [.platformAdminChanged u.id u.platformAdmin target] := if_neg h
  change [] ++ [] ++ UserEntity.platformAdminField.announced u (some target) ≠ []
  rw [hannounced]
  exact List.cons_ne_nil _ _

theorem userById_some {id : Uuid} {u : UserEntity} (h : userById U id = some u) : u ∈ U ∧ u.id = id :=
  Table.find_key_some h

theorem userByEmail_some {email : String} {u : UserEntity} (h : userByEmail U email = some u) :
    u ∈ U ∧ u.email = email := Table.find_key_some h

/-- A row that is found by its id is the one with the id. -/
theorem IdentityInv.eq_of_id (hI : IdentityInv S s) {u v : UserEntity} (hu : u ∈ s.registration.users)
    (hv : v ∈ s.registration.users) (h : u.id = v.id) : u = v :=
  List.inj_on_of_nodup_map hI.ids hu hv h

theorem users_step (hI : IdentityInv S s) (h : IdentityMove S s t e) :
    UsersMove S s t.registration.phase t.registration.users := by
  cases h with
  | register i now hmove _ _ =>
    have hnew := hI.unregistered i
    generalize hp : s.registration.phase i = p at hmove hnew
    generalize hp' : t.registration.phase i = p' at hmove
    generalize t.registration.accounts = A' at hmove
    generalize t.registration.users = U' at hmove ⊢
    cases hmove with
    | save c u _ hbuild hsave =>
      have hid := CreateUserCommand.build_id hbuild
      have hfree : ∀ x ∈ s.registration.users, x.id ≠ u.id := by
        intro x hx
        rw [hid]
        exact hnew (fun v hv => by cases hv) x hx
      obtain ⟨hclash, ⟨-, rfl⟩ | ⟨⟨x, hx, hxu⟩, -⟩⟩ := Table.upsert_some hsave
      · refine .insert i u hp' hid fun x hx => ⟨hfree x hx, fun hext => ?_⟩
        have := hclash x hx (hfree x hx)
        simp [hext] at this
      · exact absurd hxu (hfree x hx)
    | _ => exact .same
  | token j e _ hmove _ _ _ =>
    generalize hp : s.tokens j = p at hmove
    generalize t.tokens j = p' at hmove
    generalize t.registration.users = U' at hmove ⊢
    cases hmove with
    | save x claims u _ hsave =>
      have hw := hI.saving j x claims u hp
      obtain ⟨v, hv, hid, -⟩ := hw.row
      obtain ⟨-, ⟨hnew, -⟩ | ⟨-, rfl⟩⟩ := Table.upsert_some hsave
      · exact absurd hid.symm (hnew v hv)
      · exact .rewrite j x claims u hp hw
    | _ => exact .same

/-- **A row keeps its id, its external id and its email.** -/
theorem users_persist (hI : IdentityInv S s) (h : UsersMove S s phase U) {u : UserEntity}
    (hu : u ∈ s.registration.users) : ∃ u' ∈ U, SameUser u' u := by
  cases h with
  | same => exact ⟨u, hu, rfl, rfl, rfl⟩
  | insert i v _ _ _ => exact ⟨u, List.mem_append_left _ hu, rfl, rfl, rfl⟩
  | rewrite j x claims w _ hw =>
    refine ⟨_, List.mem_map_of_mem hu, ?_⟩
    split
    case isTrue hid =>
      obtain ⟨v, hv, hsame⟩ := hw.row
      obtain rfl := hI.eq_of_id hu hv (hid.trans hsame.1)
      exact hsame
    case isFalse => exact ⟨rfl, rfl, rfl⟩

/-- What a login writes is a row of the same user. -/
theorem Rewrites.same {claims : SignedClaims} {w u' : UserEntity} (hw : Rewrites U claims w)
    (hu' : u' ∈ U.map fun y => if y.id = w.id then w else y) : ∃ u ∈ U, SameUser u' u := by
  obtain ⟨u, hu, rfl⟩ := List.mem_map.1 hu'
  split
  case isTrue hid => exact hw.row
  case isFalse => exact ⟨u, hu, rfl, rfl, rfl⟩

/-- A row after a step is a new one, or one of the users from before. -/
theorem users_before (h : UsersMove S s phase U) {u' : UserEntity} (hu' : u' ∈ U) :
    (∃ u ∈ s.registration.users, SameUser u' u) ∨
      ∃ i, phase i = .registered u' ∧ u'.id = S.registrations.newUserId i ∧
        ∀ x ∈ s.registration.users, x.id ≠ u'.id ∧ x.externalId ≠ u'.externalId := by
  cases h with
  | same => exact Or.inl ⟨u', hu', rfl, rfl, rfl⟩
  | insert i v hreg hid hfree =>
    rcases List.mem_append.1 hu' with hu' | hu'
    · exact Or.inl ⟨u', hu', rfl, rfl, rfl⟩
    · rw [List.mem_singleton.1 hu']
      exact Or.inr ⟨i, hreg, hid, hfree⟩
  | rewrite j x claims w _ hw => exact Or.inl (hw.same hu')

theorem Rewrites.mono (hI : IdentityInv S s) (h : UsersMove S s phase U) {claims : SignedClaims} {u : UserEntity}
    (hw : Rewrites s.registration.users claims u) : Rewrites U claims u := by
  obtain ⟨v, hv, hid, hext, hemail⟩ := hw.row
  obtain ⟨v', hv', hid', hext', hemail'⟩ := users_persist hI h hv
  exact ⟨hw.flag, hw.sub, hw.email, v', hv', hid.trans hid'.symm, hext.trans hext'.symm,
    hemail.trans hemail'.symm⟩

theorem identityInv_start (hids : (U.map (·.id)).Nodup)
    (hnew : ∀ i, ∀ u ∈ U, u.id ≠ S.registrations.newUserId i) :
    IdentityInv S (Identity.start A U) where
  ids := hids
  unregistered i _ := hnew i
  known j id email h := by cases h
  saving j x claims u h := by cases h

/-- What a login or a refresh is about after its own step: a user of the table, the one it was about
before, if any. -/
theorem about_move (hI : IdentityInv S s) (h : TokenMove S j s.registration.accounts s.registration.users U
    (s.tokens j) p) {id : Uuid} {email : String} (hp : p.about = some (id, email)) :
    ∃ u ∈ s.registration.users, u.id = id ∧ u.email = email := by
  have hknown := hI.known j id email
  generalize hq : s.tokens j = q at h hknown
  cases h with
  | fails | accept | verify => cases hp
  | findById userId u _ hu =>
    cases hp
    exact ⟨u, (userById_some hu).1, rfl, rfl⟩
  | findByEmail c x email u _ hu =>
    cases hp
    exact ⟨u, (userByEmail_some hu).1, rfl, rfl⟩
  | _ => exact hknown hp

/-- A login that is about to write has read the row it writes. -/
theorem rewrites_move (hI : IdentityInv S s) (h : TokenMove S j s.registration.accounts
    s.registration.users U (s.tokens j) p) {x : String} {claims : SignedClaims} {u : UserAggregate}
    (hp : p = .saving x claims u) : Rewrites s.registration.users claims u.primitives := by
  have hknown := hI.known j
  generalize hq : s.tokens j = q at h hknown
  cases h with
  | update x user tenants target v now hv hflag =>
    cases hp
    obtain ⟨hmem, hid⟩ := userById_some hv
    obtain ⟨w, hw, hwid, hwemail⟩ := hknown user.userId user.email rfl
    obtain rfl := hI.eq_of_id hmem hw (hid.trans hwid.symm)
    rw [UserAggregate.update_platformAdmin v hflag]
    exact ⟨rfl, hid, hwemail, v, hmem, rfl, rfl, rfl⟩
  | _ => cases hp

theorem ids_step (hI : IdentityInv S s) (h : UsersMove S s phase U) : (U.map (·.id)).Nodup := by
  cases h with
  | same => exact hI.ids
  | insert i u _ hid hfree =>
    exact Table.nodup_insert hI.ids fun x hx => (hfree x hx).1
  | rewrite j x claims u _ _ =>
    have hmap : (s.registration.users.map fun y => if y.id = u.primitives.id then u.primitives else y).map
        (·.id) = s.registration.users.map (·.id) := Table.map_key_replace
    rw [hmap]
    exact hI.ids

theorem registered_step (h : IdentityMove S s t e) {k : ι} {u : UserEntity}
    (hk : s.registration.phase k = .registered u) : t.registration.phase k = .registered u := by
  cases h with
  | register i now hmove hothers _ =>
    by_cases hki : k = i
    · subst hki
      rw [hk] at hmove
      generalize t.registration.accounts = A', t.registration.users = U' at hmove
      cases hmove
    · rw [hothers k hki, hk]
  | token _ _ _ _ _ _ hphase => rw [hphase, hk]

/-- External ids stay unique. -/
theorem externalIds_step (hext : ∀ u ∈ s.registration.users, ∀ v ∈ s.registration.users,
    u.externalId = v.externalId → u.id = v.id) (h : UsersMove S s phase U) :
    ∀ u ∈ U, ∀ v ∈ U, u.externalId = v.externalId → u.id = v.id := by
  cases h with
  | same => exact hext
  | insert i w _ _ hfree =>
    intro u hu v hv heq
    rcases List.mem_append.1 hu with hold | hnew <;> rcases List.mem_append.1 hv with hold' | hnew'
    · exact hext u hold v hold' heq
    · obtain rfl := List.mem_singleton.1 hnew'
      exact absurd heq (hfree u hold).2
    · obtain rfl := List.mem_singleton.1 hnew
      exact absurd heq.symm (hfree v hold').2
    · rw [List.mem_singleton.1 hnew, List.mem_singleton.1 hnew']
  | rewrite j x claims w _ hw =>
    intro u hu v hv heq
    obtain ⟨u', hu', hid, hext', -⟩ := hw.same hu
    obtain ⟨v', hv', hvid, hvext, -⟩ := hw.same hv
    rw [hid, hvid]
    exact hext u' hu' v' hv' (hext'.symm.trans (heq.trans hvext))

/-- **Every step preserves the invariant.** -/
theorem identityInv_step (hI : IdentityInv S s) (h : IdentityMove S s t e) : IdentityInv S t := by
  have husers := users_step hI h
  have hpersist : ∀ id email, (∃ u ∈ s.registration.users, u.id = id ∧ u.email = email) →
      ∃ u ∈ t.registration.users, u.id = id ∧ u.email = email := by
    rintro id email ⟨u, hu, rfl, rfl⟩
    obtain ⟨u', hu', hid, -, hemail⟩ := users_persist hI husers hu
    exact ⟨u', hu', hid, hemail⟩
  refine ⟨ids_step hI husers, fun k hk u' hu' => ?_, fun k id email hk => ?_, fun k x claims u hk => ?_⟩
  case refine_1 =>
    have hbefore : ∀ u, s.registration.phase k ≠ .registered u :=
      fun u hu => hk u (registered_step h hu)
    rcases users_before husers hu' with ⟨u, hu, hsame⟩ | ⟨i, hreg, hid, -⟩
    · rw [hsame.1]
      exact hI.unregistered k hbefore u hu
    · rw [hid]
      intro heq
      obtain rfl := S.registrations.newUserId.injective heq
      exact hk u' hreg
  case refine_2 =>
    refine hpersist id email ?_
    cases h with
    | register _ _ _ _ htokens => exact hI.known k id email (htokens ▸ hk)
    | token j _ _ hmove hothers _ _ =>
      by_cases hkj : k = j
      · subst hkj
        exact about_move hI hmove hk
      · exact hI.known k id email (hothers k hkj ▸ hk)
  case refine_3 =>
    refine Rewrites.mono hI husers ?_
    cases h with
    | register _ _ _ _ htokens => exact hI.saving k x claims u (htokens ▸ hk)
    | token j _ _ hmove hothers _ _ =>
      by_cases hkj : k = j
      · subst hkj
        exact rewrites_move hI hmove hk
      · exact hI.saving k x claims u (hothers k hkj ▸ hk)

def janeIdentity (platformAdminEmails : Option String) : Identity (Fin 2) Bool where
  registrations := twoRegistrations (some "Jane Doe") none
  toLowerCase s := String.ofList (s.toList.map Char.toLower)
  env name := if name = "PLATFORM_ADMIN_EMAILS" then platformAdminEmails else none
  accepts a password := a.password = password
  requests isLogin := if isLogin then .login "jane@example.com" "Sup3rStrongPassw0rd!" else .refresh 0

def janeRegisters : List (IdentityEvent (Fin 2) Bool) :=
  List.replicate 6 (.register janeRegistration (.millis 1))

def janeLogsIn : List (IdentityEvent (Fin 2) Bool) := List.replicate 10 (.token true (.millis 2) [])

def janeRefreshes : List (IdentityEvent (Fin 2) Bool) := List.replicate 4 (.token false (.millis 3) [])

end AccountApi

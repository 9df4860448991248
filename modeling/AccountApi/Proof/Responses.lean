import AccountApi.Spec.Responses
import AccountApi.Proof.VerifiedIdentity

/-!
# What a failed login tells

`TokenFailure` lists the calls after which a login or a refresh fails, and what they have found. In a
reachable state only some of them happen (`failure_cases`): the user of a login is still there when its
flag is set, and saving the flag violates no constraint.

* `failed_requests_alike`: the response to a failed login depends on its email and its password as they
  were sent, and on nothing else; it does not tell whether there is such an account.
-/

namespace AccountApi

open Transition

variable {ι κ : Type} {S : Identity ι κ} {s t : IdentityState ι κ} {j : κ} {now : Date}
  {tenants : List TenantMembershipClaim} {A A₀ : List KeycloakAccount} {U U' U₀ : List UserEntity}
  {p : TokenPhase} {e : TokenError}

/-- Where a login or a refresh fails, and why. -/
inductive TokenFailure (S : Identity ι κ) (j : κ) (A : List KeycloakAccount) (U : List UserEntity) :
    TokenPhase → TokenError → Prop
  | refused (email password) : S.requests j = .login email password →
      LoginUserCommand.new S.registrations.kit email password = none → TokenFailure S j A U .received .invalidValue
  | unknown (userId) : S.requests j = .refresh userId → userById U userId = none →
      TokenFailure S j A U .received (.auth .invalidRefreshToken)
  | rejected (c) : S.verifyCredentials A c = none → TokenFailure S j A U (.accepted c) (.auth .invalidCredentials)
  | unwrapped (c x) : S.registrations.kit.emailValue c.email = none →
      TokenFailure S j A U (.verified c x) .invalidValue
  | noUser (c x email) : S.registrations.kit.emailValue c.email = some email → userByEmail U email = none →
      TokenFailure S j A U (.verified c x) (.auth .invalidCredentials)
  | gone (x user tenants target) : userById U user.userId = none →
      TokenFailure S j A U (.reconciling x user tenants target) (.userNotFound user.userId)
  | unsaved (x claims) (u : UserAggregate) : saveUser U u.primitives = none →
      TokenFailure S j A U (.saving x claims u) .queryFailed

theorem advance_failed (h : S.advance j now tenants A U p = some (U', .failed e)) : TokenFailure S j A U p e := by
  unfold Identity.advance at h
  split at h
  case h_1 =>
    split at h <;> rename_i hreq <;> split at h <;> cases h
    · exact .refused _ _ hreq ‹_›
    · exact .unknown _ hreq ‹_›
  case h_2 =>
    split at h <;> cases h
    exact .rejected _ ‹_›
  case h_3 =>
    split at h
    · cases h; exact .unwrapped _ _ ‹_›
    split at h <;> cases h
    exact .noUser _ _ _ ‹_› ‹_›
  case h_6 => split at h <;> cases h
  case h_7 =>
    split at h
    · cases h; exact .gone _ _ _ _ ‹_›
    split at h <;> cases h
  case h_8 =>
    split at h <;> cases h
    exact .unsaved _ _ _ ‹_›
  all_goals cases h

/-- `UserFindByEmailQuery` takes the email of a command. -/
theorem LoginUserCommand.email_again {k : Kit} (hk : k.Lawful) {email password : String} {c : LoginUserCommand}
    (h : LoginUserCommand.new k email password = some c) : k.emailValue c.email = some c.email := by
  simp only [LoginUserCommand.new, Option.bind_eq_bind, Option.bind_eq_some_iff, Option.pure_def,
    Option.some.injEq] at h
  obtain ⟨v, hv, -, -, rfl⟩ := h
  exact hk.emailValue_again _ _ hv

/-- Saving the row of a user that is there violates no constraint. -/
theorem BindingInv.saves (hB : BindingInv S s) {claims : SignedClaims} {u : UserEntity}
    (hw : Rewrites s.registration.users claims u) : saveUser s.registration.users u ≠ none := by
  intro hnone
  obtain ⟨v, hv, hid, hext, hemail⟩ := hw.row
  obtain ⟨x, hx, hxu, hclash⟩ := Table.upsert_none.1 hnone
  simp only [Bool.or_eq_true, decide_eq_true_eq] at hclash
  have hxv : x.externalId = v.externalId := by
    rcases hclash with hsame | hsame
    · exact hsame.trans hext
    · -- one email, one account
      have hrow := hB.bound v hv
      rw [← hemail, ← hsame] at hrow
      exact (hB.bound x hx).subject_unique hB.keys hrow
  exact hxu ((hB.externalIds x hx v hv hxv).trans hid.symm)

/-- What a request may fail with: a login for its email and password alone, a refresh in one way. -/
def Identity.Explained (S : Identity ι κ) (j : κ) (e : TokenError) : Prop :=
  (∃ email password, S.requests j = .login email password ∧
    (LoginUserCommand.new S.registrations.kit email password = none ∧ e = .invalidValue ∨
      ∃ c, LoginUserCommand.new S.registrations.kit email password = some c ∧ e = .auth .invalidCredentials)) ∨
    ∃ userId, S.requests j = .refresh userId ∧ e = .auth .invalidRefreshToken

/-- How a request fails in a reachable state. -/
theorem failure_cases (hk : S.registrations.kit.Lawful) (hB : BindingInv S s)
    (h : TokenFailure S j s.registration.accounts s.registration.users (s.tokens j) e) : S.Explained j e := by
  have hcommand := (hB.tokens j).verified.command
  have hknown := hB.identity.known j
  have hsaving := hB.identity.saving j
  generalize s.tokens j = p at h hcommand hknown hsaving
  cases h with
  | refused email password hreq hnone => exact .inl ⟨email, password, hreq, .inl ⟨hnone, rfl⟩⟩
  | unknown userId hreq _ => exact .inr ⟨userId, hreq, rfl⟩
  | rejected c _ =>
    obtain ⟨email, password, hreq, hc⟩ := hcommand c (.inl rfl)
    exact .inl ⟨email, password, hreq, .inr ⟨c, hc, rfl⟩⟩
  | unwrapped c x hnone =>
    obtain ⟨email, password, -, hc⟩ := hcommand c (.inr ⟨x, rfl⟩)
    rw [LoginUserCommand.email_again hk hc] at hnone
    cases hnone
  | noUser c x _ _ _ =>
    obtain ⟨email, password, hreq, hc⟩ := hcommand c (.inr ⟨x, rfl⟩)
    exact .inl ⟨email, password, hreq, .inr ⟨c, hc, rfl⟩⟩
  | gone x user tenants target hnone =>
    obtain ⟨u, hu, hid, -⟩ := hknown user.userId user.email rfl
    have hfound := Table.find_key_of_mem hB.identity.ids hu
    rw [hid] at hfound
    rw [userById, hfound] at hnone
    cases hnone
  | unsaved x claims u hnone => exact absurd hnone (hB.saves (hsaving x claims u rfl))

theorem Identity.Explained.response (h : S.Explained j e) (R : Refusals) :
    (∀ email password, S.requests j = .login email password →
      R.response (S.requests j) e = R.loginResponse S.registrations.kit email password) ∧
    ∀ userId, S.requests j = .refresh userId →
      R.response (S.requests j) e = baseExceptionFilter .invalidRefreshToken := by
  constructor
  · intro email password hreq
    obtain ⟨email', password', hreq', ⟨hnone, rfl⟩ | ⟨c, hc, rfl⟩⟩ | ⟨userId, hreq', -⟩ := h
    · cases hreq.symm.trans hreq'
      rw [Refusals.loginResponse, hnone, hreq, Refusals.response]
    · cases hreq.symm.trans hreq'
      rw [Refusals.loginResponse, hc, Refusals.response]
      rfl
    · cases hreq.symm.trans hreq'
  · intro userId hreq
    obtain ⟨email, password, hreq', -⟩ | ⟨userId', hreq', rfl⟩ := h
    · cases hreq.symm.trans hreq'
    · rfl

theorem explained_step [DecidableEq ι] [DecidableEq κ] (hF : S.registrations.Fresh A₀ U₀)
    (hI : BindingInv S s ∧ ∀ e, s.tokens j = .failed e → S.Explained j e) {a : IdentityEvent ι κ}
    (ha : a ≠ .failure j) (hstep : S.step s a = some t) :
    BindingInv S t ∧ ∀ e, t.tokens j = .failed e → S.Explained j e := by
  obtain ⟨hB, hexplained⟩ := hI
  refine ⟨bindingInv_step hF hB (identity_step hstep), fun e he => ?_⟩
  cases a with
  | register i now =>
    simp only [Identity.step, Option.map_eq_some_iff] at hstep
    obtain ⟨r, -, rfl⟩ := hstep
    exact hexplained e he
  | token k now tenants =>
    simp only [Identity.step, Option.map_eq_some_iff] at hstep
    obtain ⟨⟨U', p'⟩, hq, rfl⟩ := hstep
    by_cases hkj : j = k
    · subst hkj
      simp only [Function.update_self] at he
      rw [he] at hq
      exact failure_cases hF.lawful hB (advance_failed hq)
    · simp only [Function.update_of_ne hkj] at he
      exact hexplained e he
  | failure k =>
    have hkj : j ≠ k := fun h => ha (h ▸ rfl)
    simp only [Identity.step] at hstep
    split at hstep <;> cases hstep
    simp only [Function.update_of_ne hkj] at he
    exact hexplained e he

/-- **A failed login tells nothing about the accounts.** When no call of it has failed for a technical
reason, the response is a function of the email and the password that were sent, in any run of any system
whose users are bound to accounts; a failed refresh is always answered alike. -/
theorem failed_requests_alike [DecidableEq ι] [DecidableEq κ] (S : Identity ι κ) (R : Refusals)
    (A : List KeycloakAccount) (U : List UserEntity) (hF : S.registrations.Fresh A U)
    (hids : (U.map (·.id)).Nodup) (hext : (U.map (·.externalId)).Nodup)
    (hbound : ∀ u ∈ U, Bound S A u.externalId u.email) {es : List (IdentityEvent ι κ)} {s : IdentityState ι κ}
    (hrun : exec S.step (Identity.start A U) es = some s) (j : κ) (hcalls : .failure j ∉ es) (e : TokenError)
    (hj : s.tokens j = .failed e) :
    (∀ email password, S.requests j = .login email password →
      R.response (S.requests j) e = R.loginResponse S.registrations.kit email password) ∧
    ∀ userId, S.requests j = .refresh userId →
      R.response (S.requests j) e = baseExceptionFilter .invalidRefreshToken := by
  have hstart : BindingInv S (Identity.start A U) ∧
      ∀ e, (Identity.start A U : IdentityState ι κ).tokens j = .failed e → S.Explained j e :=
    ⟨bindingInv_start hF hids hext hbound, fun e he => (by cases he)⟩
  have halong : Along S.step (fun _ a => a ≠ .failure j) (Identity.start A U) es :=
    along_of_forall fun a ha h => hcalls (h ▸ ha)
  obtain ⟨-, hexplained⟩ := invariant_along (fun _ _ _ hI ha h => explained_step hF hI ha h) hstart halong hrun
  exact (hexplained e hj).response R

/-- Refusals with the text of the value. -/
def plainRefusals : Refusals where
  refused
    | .login email _ => .ofKit "InvalidEmailException" email
    | .refresh _ => .ofKit "InvalidUuidException" ""
  identifier := toString

/-- Jane logs in before she has registered. -/
theorem failed_requests_alike_jane : ∃ s e, exec (janeIdentity (some "")).step (Identity.start [] [])
      (janeLogsIn.take 2) = some s ∧ s.tokens true = .failed e ∧
    plainRefusals.response ((janeIdentity (some "")).requests true) e =
      plainRefusals.loginResponse Kit.permissive "jane@example.com" "Sup3rStrongPassw0rd!" := by
  have hrun : (exec (janeIdentity (some "")).step (Identity.start [] []) (janeLogsIn.take 2)).map
      (fun s => s.tokens true) = some (.failed (.auth .invalidCredentials)) := by decide +kernel
  obtain ⟨s, hs, htoken⟩ := Option.map_eq_some_iff.1 hrun
  refine ⟨s, _, hs, htoken, ?_⟩
  exact (failed_requests_alike (janeIdentity (some "")) plainRefusals [] [] (twoRegistrations_fresh _ _) (by simp)
    (by simp) (by simp) hs true (by simp [janeLogsIn]) _ htoken).1 _ _ rfl

end AccountApi

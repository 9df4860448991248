import AccountApi.Proof.Identity

/-!
# The platform-admin flag

When `PLATFORM_ADMIN_EMAILS` is set, every flag a login writes is the target of its
user, so that a stored flag that is right once stays right (`settled_step`). A login
that finds nothing to change has read such a flag; any other has written one
(`AdminView`). When the variable is absent, no login reaches the write at all.

`platformAdmin_exact`: **the two cases, over all runs.**
-/

namespace AccountApi

open Transition

variable {ι κ : Type} {S : Identity ι κ} {s t : IdentityState ι κ} {j : κ} {raw : String} {id : Uuid}
  {A : List KeycloakAccount} {U U' : List UserEntity} {p p' : TokenPhase} {e : IdentityEvent ι κ}
  {phase : ι → RegistrationPhase}

theorem parsePlatformAdminEmails_contains (toLowerCase : String → String) (raw email : String) :
    (parsePlatformAdminEmails toLowerCase (some raw)).any (·.contains (toLowerCase (JsString.trim email))) =
      true ↔ ∃ segment ∈ JsString.split ',' raw, toLowerCase (JsString.trim segment) ≠ "" ∧
        toLowerCase (JsString.trim segment) = toLowerCase (JsString.trim email) := by
  simp only [parsePlatformAdminEmails, Option.map_some, Option.any_some, List.contains_iff_mem,
    List.mem_filter, List.mem_map, decide_eq_true_eq]
  constructor
  · rintro ⟨⟨segment, hmem, heq⟩, hne⟩
    exact ⟨segment, hmem, heq ▸ hne, heq⟩
  · rintro ⟨segment, hmem, hne, heq⟩
    exact ⟨⟨segment, hmem, heq⟩, heq ▸ hne⟩

/-- Reconciliation answers `null` for a flag that is right, and the right flag otherwise. -/
theorem reconcile_target (hraw : S.env "PLATFORM_ADMIN_EMAILS" = some raw) (email : String) (flag : Bool) :
    (reconcilePlatformAdmin S.toLowerCase email flag S.platformAdminEmails = none →
      (flag = true ↔ S.IsTarget raw email)) ∧
    ∀ target, reconcilePlatformAdmin S.toLowerCase email flag S.platformAdminEmails = some target →
      (target = true ↔ S.IsTarget raw email) := by
  have hcontains := parsePlatformAdminEmails_contains S.toLowerCase raw email
  unfold Identity.platformAdminEmails
  rw [hraw]
  unfold reconcilePlatformAdmin Identity.IsTarget
  rw [← hcontains]
  simp only [parsePlatformAdminEmails, Option.map_some, Option.any_some]
  constructor
  · intro h
    split at h
    case isTrue hflag => rw [hflag]
    case isFalse => cases h
  · intro target h
    split at h
    case isTrue => cases h
    case isFalse => rw [Option.some.inj h]

theorem reconcile_absent (hraw : S.env "PLATFORM_ADMIN_EMAILS" = none) (email : String) (flag : Bool) :
    reconcilePlatformAdmin S.toLowerCase email flag S.platformAdminEmails = none := by
  unfold Identity.platformAdminEmails
  rw [hraw]
  rfl

/-! ## The variable is set -/

/-- The user's stored flag is the target. -/
def Settled (S : Identity ι κ) (raw : String) (users : List UserEntity) (id : Uuid) : Prop :=
  ∃ u ∈ users, u.id = id ∧ (u.platformAdmin = true ↔ S.IsTarget raw u.email)

/-- What a login knows of the flag: a right one that it has read is still stored, and what it is about
to write or has signed is right. -/
def AdminView (S : Identity ι κ) (raw : String) (users : List UserEntity) : TokenPhase → Prop
  | .userFound _ user | .tenantsFound _ user _ =>
    (user.platformAdmin = true ↔ S.IsTarget raw user.email) → Settled S raw users user.userId
  | .reconciling _ user _ target => target = true ↔ S.IsTarget raw user.email
  | .saving _ c _ => c.platformAdmin = true ↔ S.IsTarget raw c.email
  | .publishing _ c | .signing (some _) c | .signed _ c | .returned (some _) c =>
    (c.platformAdmin = true ↔ S.IsTarget raw c.email) ∧ Settled S raw users c.sub
  | _ => True

/-- What holds in every state when the variable is set. -/
structure AdminInv (S : Identity ι κ) (raw : String) (s : IdentityState ι κ) : Prop where
  identity : IdentityInv S s
  views : ∀ j, AdminView S raw s.registration.users (s.tokens j)

/-- **A flag that is right stays right.** -/
theorem settled_step (hI : AdminInv S raw s) (h : UsersMove S s phase U)
    (hs : Settled S raw s.registration.users id) : Settled S raw U id := by
  obtain ⟨u, hu, hid, hflag⟩ := hs
  cases h with
  | same => exact ⟨u, hu, hid, hflag⟩
  | insert i v _ _ _ => exact ⟨u, List.mem_append_left _ hu, hid, hflag⟩
  | rewrite j x claims w hp hw =>
    refine ⟨_, List.mem_map_of_mem hu, ?_⟩
    split
    case isFalse => exact ⟨hid, hflag⟩
    case isTrue hw' =>
      have htarget := hI.views j
      rw [hp] at htarget
      refine ⟨hw'.symm.trans hid, ?_⟩
      rw [hw.flag, hw.email]
      exact htarget

theorem AdminView.mono (hview : AdminView S raw U p) (h : ∀ id, Settled S raw U id → Settled S raw U' id) :
    AdminView S raw U' p := by
  cases p with
  | userFound | tenantsFound => exact fun hflag => h _ (hview hflag)
  | publishing | signed => exact ⟨hview.1, h _ hview.2⟩
  | signing x c | returned x c =>
    cases x with
    | none => trivial
    | some x => exact ⟨hview.1, h _ hview.2⟩
  | _ => exact hview

/-- A login's own step keeps its view. -/
theorem adminView_move (hraw : S.env "PLATFORM_ADMIN_EMAILS" = some raw) (hI : AdminInv S raw s)
    (h : TokenMove S j s.registration.accounts s.registration.users U (s.tokens j) p)
    (hsettled : ∀ id, Settled S raw s.registration.users id → Settled S raw U id) :
    AdminView S raw U p := by
  have hview := (hI.views j).mono hsettled
  have hknown := hI.identity.known j
  have hsaving := hI.identity.saving j
  generalize hq : s.tokens j = q at h hview hknown hsaving
  cases h with
  | fails | accept | verify | asRead | answer => trivial
  | findById userId u _ hu => exact fun hflag => ⟨u, (userById_some hu).1, rfl, hflag⟩
  | findByEmail c x email u _ hu => exact fun hflag => ⟨u, (userByEmail_some hu).1, rfl, hflag⟩
  | findTenants x user tenants => exact hview
  | keep x user tenants hnone =>
    have hflag := (reconcile_target hraw user.email user.platformAdmin).1 hnone
    exact ⟨hflag, hview hflag⟩
  | reconcile x user tenants target hsome =>
    exact (reconcile_target hraw user.email user.platformAdmin).2 target hsome
  | already x user tenants u hu =>
    obtain ⟨hmem, hid⟩ := userById_some hu
    obtain ⟨v, hv, hvid, hvemail⟩ := hknown user.userId user.email rfl
    obtain rfl := hI.identity.eq_of_id hmem hv (hid.trans hvid.symm)
    refine ⟨hview, u, hmem, hid, ?_⟩
    rw [hvemail]
    exact hview
  | update x user tenants target u now _ _ => exact hview
  | save x claims u _ hsave =>
    have hw := hsaving x claims u rfl
    refine ⟨hview, u.primitives, Table.self_mem_upsert hsave, hw.sub, ?_⟩
    rw [hw.flag, hw.email]
    exact hview
  | publish x claims | sign x claims | saveSession x claims => exact hview

/-- **Every step preserves the invariant.** -/
theorem adminInv_step (hraw : S.env "PLATFORM_ADMIN_EMAILS" = some raw) (hI : AdminInv S raw s)
    (h : IdentityMove S s t e) : AdminInv S raw t := by
  have hsettled : ∀ id, Settled S raw s.registration.users id → Settled S raw t.registration.users id :=
    fun _ => settled_step hI (users_step hI.identity h)
  refine ⟨identityInv_step hI.identity h, ?_⟩
  cases h with
  | register i now _ _ htokens =>
    intro k
    rw [htokens]
    exact (hI.views k).mono hsettled
  | token j _ _ hmove hothers _ _ =>
    exact forall_moved hothers (adminView_move hraw hI hmove hsettled) fun k _ =>
      (hI.views k).mono hsettled

theorem AdminInv.settled (hI : AdminInv S raw s) (h : (s.tokens j).reconciled = some id) :
    Settled S raw s.registration.users id := by
  have hview := hI.views j
  generalize s.tokens j = p at h hview
  cases p with
  | publishing | signed => cases h; exact hview.2
  | signing x c | returned x c =>
    cases x with
    | none => cases h
    | some x => cases h; exact hview.2
  | _ => cases h

/-- What a refresh of a settled user knows once it has read the user. -/
def RefreshView (S : Identity ι κ) (raw : String) (id : Uuid) : TokenPhase → Prop
  | .userFound none user | .tenantsFound none user _ =>
    user.userId = id → (user.platformAdmin = true ↔ S.IsTarget raw user.email)
  | .signing none c | .returned none c => c.sub = id → (c.platformAdmin = true ↔ S.IsTarget raw c.email)
  | _ => True

theorem refreshView_move (hI : AdminInv S raw s) (hs : Settled S raw s.registration.users id)
    (hview : RefreshView S raw id (s.tokens j))
    (h : TokenMove S j s.registration.accounts s.registration.users U (s.tokens j) p) :
    RefreshView S raw id p := by
  generalize hq : s.tokens j = q at h hview
  cases h with
  | findById userId u _ hu =>
    obtain ⟨v, hv, hvid, hflag⟩ := hs
    intro hid
    obtain rfl := hI.identity.eq_of_id (userById_some hu).1 hv (hid.trans hvid.symm)
    exact hflag
  | findTenants x user tenants =>
    cases x with
    | none => exact hview
    | some x => trivial
  | asRead user tenants => exact hview
  | answer claims => exact hview
  | _ => trivial

/-- After a login of the user has passed the reconciliation in `s`, and in the later state `t`. -/
structure Stable (S : Identity ι κ) (raw : String) (id : Uuid) (s t : IdentityState ι κ) : Prop where
  user : ∃ u ∈ t.registration.users, u.id = id
  stored : ∀ u ∈ t.registration.users, u.id = id → (u.platformAdmin = true ↔ S.IsTarget raw u.email)
  refreshes : ∀ k c, s.tokens k = .received → t.tokens k = .returned none c → c.sub = id →
    (∃ u ∈ t.registration.users, u.id = id ∧ u.email = c.email) ∧
      (c.platformAdmin = true ↔ S.IsTarget raw c.email)

variable {es : List (IdentityEvent ι κ)}

theorem adminInv_run [DecidableEq ι] [DecidableEq κ]
    (hraw : S.env "PLATFORM_ADMIN_EMAILS" = some raw) (hI : AdminInv S raw s)
    (h : exec S.step s es = some t) : AdminInv S raw t :=
  invariant (fun _ _ _ hI h => adminInv_step hraw hI (identity_step h)) hI h

theorem stable_run [DecidableEq ι] [DecidableEq κ]
    (hraw : S.env "PLATFORM_ADMIN_EMAILS" = some raw) (hI : AdminInv S raw s)
    (hs : (s.tokens j).reconciled = some id) (h : exec S.step s es = some t) : Stable S raw id s t := by
  have hrun : AdminInv S raw t ∧ Settled S raw t.registration.users id ∧
      ∀ k, s.tokens k = .received → RefreshView S raw id (t.tokens k) := by
    refine invariant (I := fun v => AdminInv S raw v ∧ Settled S raw v.registration.users id ∧
      ∀ k, s.tokens k = .received → RefreshView S raw id (v.tokens k)) ?_ ⟨hI, hI.settled hs, ?_⟩ h
    · rintro v e w ⟨hIv, hsv, hview⟩ hstep
      have hmove := identity_step hstep
      refine ⟨adminInv_step hraw hIv hmove, settled_step hIv (users_step hIv.identity hmove) hsv, ?_⟩
      cases hmove with
      | register i now _ _ htokens => exact htokens ▸ hview
      | token j _ _ hmove hothers _ _ =>
        exact forall_moved (P := fun k p => s.tokens k = .received → RefreshView S raw id p) hothers
          (fun hj => refreshView_move hIv hsv (hview j hj) hmove) fun k _ => hview k
    · intro k hk
      rw [hk]
      trivial
  obtain ⟨hIt, ⟨u, hu, huid, hflag⟩, hview⟩ := hrun
  refine ⟨⟨u, hu, huid⟩, fun v hv hvid => ?_, fun k c hk hc hsub => ⟨?_, ?_⟩⟩
  · obtain rfl := hIt.identity.eq_of_id hu hv (huid.trans hvid.symm)
    exact hflag
  · exact hIt.identity.known k id c.email (by rw [hc, ← hsub]; rfl)
  · have := hview k hk
    rw [hc] at this
    exact this hsub

/-! ## The variable is absent -/

namespace TokenPhase

/-- The login is about to write the flag, or has written it. -/
def writes : TokenPhase → Bool
  | reconciling _ _ _ _ | saving _ _ _ | publishing _ _ => true
  | _ => false

/-- What a login or a refresh reports of its user, if nothing is reconciled. -/
def reports : TokenPhase → Option UserLookupResult
  | userFound _ u | tenantsFound _ u _ => some u
  | signing _ c | signed _ c | returned _ c => some ⟨c.sub, c.email, c.platformAdmin⟩
  | _ => none

end TokenPhase

/-- No login writes; what a step reports is what it was, or the row that it has just read. -/
theorem absent_move (hraw : S.env "PLATFORM_ADMIN_EMAILS" = none) (hp : p.writes = false)
    (h : TokenMove S j A U U' p p') : p'.writes = false ∧ U' = U ∧
      ∀ r, p'.reports = some r → p.reports = some r ∨
        ∃ u x, u ∈ U ∧ r = u.toResult ∧ p' = .userFound x u.toResult := by
  cases h with
  | reconcile x user tenants target hsome =>
    rw [reconcile_absent hraw] at hsome
    cases hsome
  | findById userId u _ hu =>
    refine ⟨rfl, rfl, fun r hr => Or.inr ⟨u, none, (userById_some hu).1, ?_, rfl⟩⟩
    exact (Option.some.inj hr).symm
  | findByEmail c x email u _ hu =>
    refine ⟨rfl, rfl, fun r hr => Or.inr ⟨u, some x, (userByEmail_some hu).1, ?_, rfl⟩⟩
    exact (Option.some.inj hr).symm
  | already | update | save | publish => cases hp
  | fails | accept | verify => exact ⟨rfl, rfl, fun r hr => by cases hr⟩
  | _ => exact ⟨rfl, rfl, fun r hr => Or.inl hr⟩

variable [DecidableEq ι] [DecidableEq κ]

theorem absent_run (hraw : S.env "PLATFORM_ADMIN_EMAILS" = none)
    (h : exec S.step (Identity.start A U) es = some s) (j : κ) : (s.tokens j).writes = false := by
  refine invariant (I := fun v : IdentityState ι κ => ∀ j, (v.tokens j).writes = false) ?_
    (fun j => rfl) h j
  intro v e w hv hstep
  cases identity_step hstep with
  | register i now _ _ htokens => exact htokens ▸ hv
  | token j _ _ hmove hothers _ _ =>
    exact forall_moved (P := fun _ p => p.writes = false) hothers (absent_move hraw (hv j) hmove).1
      fun k _ => hv k

/-- The run `es` from `start` reads the row `u` at a step of request `j`. -/
def ReadsUser (S : Identity ι κ) (start : IdentityState ι κ) (es : List (IdentityEvent ι κ)) (j : κ)
    (u : UserEntity) : Prop :=
  ∃ bs e cs v w x, es = bs ++ e :: cs ∧ e.request = some j ∧ exec S.step start bs = some v ∧
    S.step v e = some w ∧ u ∈ v.registration.users ∧ w.tokens j = .userFound x u.toResult

/-- A token carries the flag of the moment its user was read. -/
theorem absent_reads (hraw : S.env "PLATFORM_ADMIN_EMAILS" = none)
    (h : exec S.step (Identity.start A U) es = some s) {r : UserLookupResult}
    (hr : (s.tokens j).reports = some r) :
    ∃ u, r = u.toResult ∧ ReadsUser S (Identity.start A U) es j u := by
  obtain ⟨bs, e, cs, v, w, rfl, hbs, hstep, hv, hw⟩ := exec_becomes
    (P := fun v : IdentityState ι κ => (v.tokens j).reports = some r) h (fun h => by cases h) hr
  cases identity_step hstep with
  | register i now _ _ htokens => exact absurd (htokens ▸ hw) hv
  | token k _ hreq hmove hothers _ _ =>
    by_cases hjk : j = k
    · subst hjk
      obtain ⟨-, -, hreports⟩ := absent_move hraw (absent_run hraw hbs j) hmove
      rcases hreports r hw with hold | ⟨u, x, hu, rfl, hphase⟩
      · exact absurd hold hv
      · exact ⟨u, rfl, bs, e, cs, v, w, x, rfl, hreq, hbs, hstep, hu, hphase⟩
    · exact absurd (hothers j hjk ▸ hw) hv

/-- **The platform-admin flag**, from a table whose ids are unique and not generated again. With the
variable set, a login returns the target of its user, and from then on the stored flag and the refreshes
that read it are the target. Without it, logins and refreshes leave the table as it is, and every token
carries the flag of the moment its user was read. -/
theorem platformAdmin_exact (S : Identity ι κ) (A : List KeycloakAccount) (U : List UserEntity)
    (hids : (U.map (·.id)).Nodup) (hnew : ∀ i, ∀ u ∈ U, u.id ≠ S.registrations.newUserId i) :
    (∀ raw, S.env "PLATFORM_ADMIN_EMAILS" = some raw → ∀ es s,
      exec S.step (Identity.start A U) es = some s →
        (∀ j x c, s.tokens j = .returned (some x) c → ∃ u ∈ s.registration.users, u.id = c.sub ∧
          u.email = c.email ∧ (c.platformAdmin = true ↔ S.IsTarget raw u.email)) ∧
        ∀ j id, (s.tokens j).reconciled = some id → ∀ es' t, exec S.step s es' = some t →
          Stable S raw id s t) ∧
    (S.env "PLATFORM_ADMIN_EMAILS" = none → ∀ es s, exec S.step (Identity.start A U) es = some s →
      (∀ e j t, e.request = some j → S.step s e = some t → t.registration.users = s.registration.users) ∧
      ∀ j x c, s.tokens j = .returned x c → ∃ u, c.sub = u.id ∧ c.email = u.email ∧
        c.platformAdmin = u.platformAdmin ∧ ReadsUser S (Identity.start A U) es j u) := by
  constructor
  · intro raw hraw es s h
    have hstart : AdminInv S raw (Identity.start A U) := ⟨identityInv_start hids hnew, fun j => trivial⟩
    have hI := adminInv_run hraw hstart h
    refine ⟨fun j x c hj => ?_, fun j id hj es' t h' => stable_run hraw hI hj h'⟩
    obtain ⟨u, hu, hid, hemail⟩ := hI.identity.known j c.sub c.email (by rw [hj]; rfl)
    have hview := hI.views j
    rw [hj] at hview
    refine ⟨u, hu, hid, hemail, ?_⟩
    rw [hemail]
    exact hview.1
  · intro hraw es s h
    refine ⟨fun e j t he hstep => ?_, fun j x c hj => ?_⟩
    · cases identity_step hstep with
      | register => cases he
      | token k _ _ hmove _ _ _ => exact (absent_move hraw (absent_run hraw h k) hmove).2.1
    · obtain ⟨u, hu, hreads⟩ := absent_reads hraw h (j := j) (r := ⟨c.sub, c.email, c.platformAdmin⟩)
        (by rw [hj]; rfl)
      simp only [UserEntity.toResult, UserLookupResult.mk.injEq] at hu
      exact ⟨u, hu.1, hu.2.1, hu.2.2, hreads⟩

/-- Jane registers, logs in and refreshes with her email in the list. -/
theorem platformAdmin_jane : ∃ s t, exec (janeIdentity (some " , JANE@example.com ")).step
      (Identity.start [] []) (janeRegisters ++ janeLogsIn) = some s ∧
    (s.tokens true).reconciled = some 0 ∧
    exec (janeIdentity (some " , JANE@example.com ")).step s janeRefreshes = some t ∧
    t.tokens false = .returned none ⟨0, "jane@example.com", true, []⟩ ∧
    Stable (janeIdentity (some " , JANE@example.com ")) " , JANE@example.com " 0 s t := by
  have hlogin : (exec (janeIdentity (some " , JANE@example.com ")).step (Identity.start [] [])
      (janeRegisters ++ janeLogsIn)).map (fun s => (s.tokens true).reconciled) = some (some 0) := by
    decide +kernel
  have hrefresh : (exec (janeIdentity (some " , JANE@example.com ")).step (Identity.start [] [])
      ((janeRegisters ++ janeLogsIn) ++ janeRefreshes)).map (fun s => s.tokens false) =
        some (.returned none ⟨0, "jane@example.com", true, []⟩) := by decide +kernel
  obtain ⟨t, ht, htoken⟩ := Option.map_eq_some_iff.1 hrefresh
  obtain ⟨s, hs, hst⟩ := exec_append.1 ht
  rw [hs, Option.map_some, Option.some.injEq] at hlogin
  refine ⟨s, t, hs, hlogin, hst, htoken, ?_⟩
  exact ((platformAdmin_exact (janeIdentity (some " , JANE@example.com ")) [] [] (by simp) (by simp)).1
    _ rfl _ s hs).2 true 0 hlogin _ t hst

end AccountApi

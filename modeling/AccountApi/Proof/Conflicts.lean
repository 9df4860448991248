import AccountApi.Proof.AppSlugs
import AccountApi.Proof.SlugClaims

/-!
# Uniqueness conflicts

* `Tenancy.membershipClaims_lawful`: additions of one user to one tenant are lawful claims,
  as the requests for one slug are.
* `conflicts_reported_iff`: **every loser ends with the conflict exactly when no request
  inserts its row after another one has taken the key since its check**.
* `lost_race`: a save that loses the race ends with the error of the database.
-/

namespace AccountApi

open Transition Claim

theorem TenancyWorld.hasUser_of_findUserIdByEmail {w : TenancyWorld} {email : String} {userId : Uuid}
    (h : w.findUserIdByEmail email = some userId) : w.hasUser userId = true := by
  obtain ⟨u, hu, rfl⟩ := Option.map_eq_some_iff.1 h
  exact List.any_eq_true.2 ⟨u, List.mem_of_find?_eq_some hu, by simp⟩

/-- A new membership claims its tenant and user with its save. -/
theorem TenancyDb.saveMembership_claim {w : TenancyWorld} {d : TenancyDb} {m : TenantMembershipEntity}
    (hids : (d.memberships.map (·.id)).Nodup) (hnew : ∀ x ∈ d.memberships, x.id ≠ m.id)
    (htenant : (d.findTenant m.tenantId).isSome = true) (huser : w.hasUser m.userId = true) :
    (∀ d', d.saveMembership w m = some d' → d.countByTenantIdAndUserId m.tenantId m.userId = 0 ∧
      d'.countByTenantIdAndUserId m.tenantId m.userId = 1) ∧
      (d.saveMembership w m = none → 0 < d.countByTenantIdAndUserId m.tenantId m.userId) := by
  have hclaim := Table.claim_upsert
    (fun x m : TenantMembershipEntity => x.tenantId = m.tenantId && x.userId = m.userId)
    (p := fun x => x.tenantId = m.tenantId && x.userId = m.userId) hids (by simp)
    (fun x hx hid => absurd hid (hnew x hx)) fun _ _ => rfl
  refine ⟨fun d' h => hclaim.1 _ (saveMembership_some h).2.2, fun h => hclaim.2 ?_⟩
  rw [saveMembership, if_pos (by rw [htenant, huser]; rfl)] at h
  exact Option.map_eq_none_iff.1 h

namespace Tenancy

variable {ι : Type} {S : Tenancy ι} {db d d' : TenancyDb} {tenantId userId : Uuid} {i j : ι}
  {s t : TenancyState ι} {p q : TenancyPhase} {now : Date}

/-- The phases of a request that claims the membership. -/
inductive MembershipPhase (tenantId userId : Uuid) : TenancyPhase → Prop
  | received : MembershipPhase tenantId userId .received
  | tenantExists : MembershipPhase tenantId userId .tenantExists
  | userFound : MembershipPhase tenantId userId (.userFound userId)
  | membershipAvailable : MembershipPhase tenantId userId (.membershipAvailable userId)
  | succeeded : MembershipPhase tenantId userId .succeeded
  | failed (e) : e = .tenantMembershipAlreadyExists tenantId userId ∨ e = .queryFailed →
      MembershipPhase tenantId userId (.failed e)

theorem MembershipPhase.of_failed {e : TenancyError} (h : MembershipPhase tenantId userId (.failed e)) :
    e = .tenantMembershipAlreadyExists tenantId userId ∨ e = .queryFailed := by
  cases h with
  | failed _ he => exact he

/-- What holds between two calls. -/
structure MembershipInv (S : Tenancy ι) (tenantId userId : Uuid) (s : TenancyState ι) : Prop where
  requests : ∀ i, ∃ c, S.requests i = .addMember c ∧ c.tenantId = tenantId ∧
    S.world.findUserIdByEmail c.email = some userId
  tenant : (s.db.findTenant tenantId).isSome = true
  ids : (s.db.memberships.map (·.id)).Nodup
  fresh : ∀ i, s.phase i ≠ .succeeded → ∀ m ∈ s.db.memberships, m.id ≠ S.newMembershipId i
  phase : ∀ i, MembershipPhase tenantId userId (s.phase i)

/-- The calls, by what they do to the tables. -/
inductive MembershipMove (S : Tenancy ι) (i : ι) (d : TenancyDb) :
    TenancyDb → TenancyPhase → TenancyPhase → Prop
  | read (o n) : o ≠ .succeeded → MembershipMove S i d d o n
  | save (m e o) : m.id = S.newMembershipId i → d.saveMembership S.world m = some e →
      MembershipMove S i d e o .succeeded

/-- The result of a call: a move that is also one of the claims. -/
structure MembershipCall [DecidableEq ι] (S : Tenancy ι) (tenantId userId : Uuid) (i : ι)
    (s t : TenancyState ι) (p q : TenancyPhase) : Prop where
  move : S.MembershipMove i s.db t.db p q
  phase : MembershipPhase tenantId userId q
  claim : (S.membershipClaims tenantId userId).Move s t p.membershipClaim q.membershipClaim

theorem MembershipInv.move (hs : S.MembershipInv tenantId userId s)
    (h : S.MembershipMove i s.db t.db (s.phase i) (t.phase i)) (hothers : ∀ j, j ≠ i → t.phase j = s.phase j)
    (hphase : MembershipPhase tenantId userId (t.phase i)) : S.MembershipInv tenantId userId t := by
  have hphases : ∀ j, MembershipPhase tenantId userId (t.phase j) :=
    forall_moved hothers hphase fun j _ => hs.phase j
  generalize hd : t.db = d at h
  generalize hp : s.phase i = p at h
  generalize hq : t.phase i = q at h
  cases h with
  | read _ _ hne =>
    refine ⟨hs.requests, hd ▸ hs.tenant, hd ▸ hs.ids, fun j hj => hd ▸ hs.fresh j fun hsucc => ?_, hphases⟩
    by_cases hji : j = i
    · exact hne (hp ▸ hji ▸ hsucc)
    · exact hj ((hothers j hji).trans hsucc)
  | save m _ _ hid hsave =>
    have hup := (TenancyDb.saveMembership_some hsave).2.2
    refine ⟨hs.requests, ?_, hd ▸ Table.nodup_upsert hs.ids hup, fun j hj x hx => ?_, hphases⟩
    · rw [hd, TenancyDb.findTenant_saveMembership hsave]
      exact hs.tenant
    · have hji : j ≠ i := fun hji => hj (hji ▸ hq)
      rcases Table.mem_upsert hup (hd ▸ hx) with rfl | ⟨hx, -⟩
      · exact fun hxid => hji (S.newMembershipId.injective (hid.symm.trans hxid)).symm
      · exact hs.fresh j (hothers j hji ▸ hj) x hx

variable [DecidableEq ι]

/-- A call that does not write. -/
theorem MembershipCall.read (hdb : t.db = s.db) (hp : p ≠ .succeeded)
    (hphase : MembershipPhase tenantId userId q)
    (hclaim : (S.membershipClaims tenantId userId).Move s t p.membershipClaim q.membershipClaim) :
    S.MembershipCall tenantId userId i s t p q :=
  ⟨hdb ▸ .read p q hp, hphase, hclaim⟩

theorem member_call (hs : S.MembershipInv tenantId userId s) {c : AddTenantMemberCommand}
    (hr : S.requests i = .addMember c) (hp : s.phase i = p)
    (h : s.db.advance S.world (S.new i) now (.addMember c) p = some (d', q)) (ht : t.db = d') :
    S.MembershipCall tenantId userId i s t p q := by
  obtain ⟨c', hr', rfl, huser⟩ := hs.requests i
  rw [hr] at hr'
  cases hr'
  have hrows : ∀ r, r ≠ .checked → t.db = s.db → (S.membershipClaims c.tenantId userId).Move s t r r :=
    fun r hr hdb => .stay r hr (Or.inl hdb) (congrArg (S.membershipClaims c.tenantId userId).rows hdb)
  have hphase := hp ▸ hs.phase i
  cases hphase with
  | received =>
    obtain ⟨x, hx⟩ := Option.isSome_iff_exists.1 hs.tenant
    simp only [TenancyDb.advance, hx] at h
    cases h
    exact .read ht (by simp) .tenantExists (hrows _ (by simp [TenancyPhase.membershipClaim]) ht)
  | tenantExists =>
    simp only [TenancyDb.advance, huser] at h
    cases h
    exact .read ht (by simp) .userFound (hrows _ (by simp [TenancyPhase.membershipClaim]) ht)
  | userFound =>
    simp only [TenancyDb.advance] at h
    split at h <;> cases h
    case h_1 hx => exact .read ht (by simp) (.failed _ (Or.inl rfl)) (.refuse (Table.find_some_pos hx) ht)
    case h_2 hx => exact .read ht (by simp) .membershipAvailable (.check (Table.find_none_iff.1 hx) ht)
  | membershipAvailable =>
    have hclaim := TenancyDb.saveMembership_claim
      (m := ⟨S.newMembershipId i, c.tenantId, userId, c.role, now, now⟩) hs.ids
      (hs.fresh i (by simp [hp])) hs.tenant (TenancyWorld.hasUser_of_findUserIdByEmail huser)
    simp only [TenancyDb.advance] at h
    split at h <;> cases h
    case h_1 hsave =>
      subst ht
      obtain ⟨hfree, hone⟩ := hclaim.1 _ hsave
      exact ⟨.save _ _ _ rfl hsave, .succeeded, .win hfree hone⟩
    case h_2 hsave => exact .read ht (by simp) (.failed _ (Or.inr rfl)) (.reject (hclaim.2 hsave) ht)
  | succeeded | failed => cases h

/-- **One step of the system**, when all requests claim the membership. -/
theorem membership_call {a : ι × Date} (hs : S.MembershipInv tenantId userId s) (h : S.call s a = some t) :
    S.MembershipCall tenantId userId a.1 s t (s.phase a.1) (t.phase a.1) ∧
      ∀ j, j ≠ a.1 → t.phase j = s.phase j := by
  obtain ⟨hnext, hothers⟩ := call_advance h
  obtain ⟨c, hr, -⟩ := hs.requests a.1
  exact ⟨member_call hs hr rfl (hr ▸ hnext) rfl, hothers⟩

omit [DecidableEq ι] in
theorem MembershipPhase.advance_isSome (h : MembershipPhase tenantId userId p) {c : AddTenantMemberCommand}
    (hp : p.outcome = none) : (d.advance S.world (S.new i) now (.addMember c) p).isSome = true := by
  cases h with
  | received | tenantExists | userFound | membershipAvailable =>
    simp only [TenancyDb.advance]
    split <;> rfl
  | succeeded | failed => cases hp

/-- **Additions of one user to a tenant are lawful claims.** -/
theorem membershipClaims_lawful :
    (S.membershipClaims tenantId userId).Lawful (S.MembershipInv tenantId userId) where
  inv _ _ _ hs h := by
    obtain ⟨hcall, hothers⟩ := membership_call hs h
    exact hs.move hcall.move hothers hcall.phase
  move _ _ _ hs h := by
    obtain ⟨hcall, hothers⟩ := membership_call hs h
    exact ⟨hcall.claim, fun j hj => congrArg TenancyPhase.membershipClaim (hothers j hj)⟩
  ok s i _ h := by
    have hphase : s.phase i = .succeeded := TenancyPhase.outcome_ok h
    exact Or.inl (congrArg TenancyPhase.membershipClaim hphase)
  error s i e hs h := by
    have hphase : s.phase i = .failed e := TenancyPhase.outcome_error h
    obtain rfl | rfl := (hphase ▸ hs.phase i).of_failed
    · exact Or.inl ⟨congrArg TenancyPhase.membershipClaim hphase, rfl⟩
    · exact Or.inr (congrArg TenancyPhase.membershipClaim hphase)
  rejected s i _ h := by
    have hphase : s.phase i = .failed .queryFailed := TenancyPhase.membershipClaim_rejected h
    exact ⟨.queryFailed, congrArg TenancyPhase.outcome hphase, by simp [membershipClaims]⟩
  live s i hs h := by
    obtain ⟨c, hr, -⟩ := hs.requests i
    exact call_isSome (.millis 0) (hr ▸ (hs.phase i).advance_isSome h)

omit [DecidableEq ι] in
theorem ClaimMembership.inv (h : S.ClaimMembership db tenantId userId) :
    S.MembershipInv tenantId userId (start db) :=
  ⟨h.requests, h.tenant, h.ids, fun i _ => h.fresh i, fun _ => .received⟩

end Tenancy

variable {ι : Type} [DecidableEq ι]

theorem Apps.ClaimSlug.claims_start {S : Apps ι} {apps : List AppEntity} {slug : String}
    (h : S.ClaimSlug apps slug) : (S.slugClaims slug).Start (Apps.start apps) where
  phase _ := Or.inl rfl
  rows := Table.filter_unique_le_one h.unique slug

namespace Tenancy

variable {S : Tenancy ι} {db : TenancyDb} {appId tenantId userId : Uuid} {slug : String}

theorem ClaimSlug.claims_start (h : S.ClaimSlug db appId slug) :
    (S.slugClaims db appId slug).Start (start db) where
  phase i := by
    cases hholds : S.holdsSlug db slug i with
    | false =>
      refine Or.inl ?_
      simp [slugClaims, hholds, start, TenancyPhase.slugClaim]
    | true =>
      refine Or.inr ⟨if_pos hholds, ?_⟩
      rcases h.requests i with ⟨c, hr, -⟩ | ⟨c, t, hr, -, ht, happ⟩
      · simp [holdsSlug, hr] at hholds
      · have hslug : t.slug = slug := by simpa [holdsSlug, hr, ht] using hholds
        have hmem := (TenancyDb.findTenant_some ht).1
        exact List.length_pos_of_mem (List.mem_filter.2 ⟨hmem, by simp [happ, hslug]⟩)
  rows := h.inv.count

theorem ClaimMembership.claims_start (h : S.ClaimMembership db tenantId userId) :
    (S.membershipClaims tenantId userId).Start (start db) where
  phase _ := Or.inl rfl
  rows := by
    have hone := Table.filter_unique_le_one h.unique (tenantId, userId)
    simpa [membershipClaims, TenancyDb.countByTenantIdAndUserId, start, Prod.ext_iff] using hone

end Tenancy

/-- **Uniqueness conflicts.** One row has the key, one request wins it, a request that fails leaves the
tables as they were, and all failures are the conflict of the context, with status 409, if and only if
no request inserts its row after another one has taken the key since its check. -/
theorem conflicts_reported_iff :
    (∀ (S : Apps ι) apps slug, S.ClaimSlug apps slug →
      (S.slugClaims slug).Exact (Apps.start apps) ∧ (S.slugClaims slug).conflict.status = some 409) ∧
    (∀ (S : Tenancy ι) db appId slug, S.ClaimSlug db appId slug →
      (S.slugClaims db appId slug).Exact (Tenancy.start db) ∧
        (S.slugClaims db appId slug).conflict.status = some 409) ∧
    ∀ (S : Tenancy ι) db tenantId userId, S.ClaimMembership db tenantId userId →
      (S.membershipClaims tenantId userId).Exact (Tenancy.start db) ∧
        (S.membershipClaims tenantId userId).conflict.status = some 409 := by
  refine ⟨fun S apps slug h => ⟨?_, rfl⟩, fun S db appId slug h => ⟨?_, rfl⟩,
    fun S db tenantId userId h => ⟨?_, rfl⟩⟩
  · exact Apps.slugClaims_lawful.exact h.inv h.claims_start
  · exact Tenancy.slugClaims_lawful.exact h.inv h.claims_start
  · exact Tenancy.membershipClaims_lawful.exact h.inv h.claims_start

/-- Two requests for one slug. -/
def twoApps : Apps (Fin 2) := Apps.small ![⟨"acme", "Acme"⟩, ⟨"acme", "Acme Inc"⟩]

/-- A tenant is created with the slug that tenant 7 changes to. -/
def twoSlugs : Tenancy (Fin 2) :=
  Tenancy.small ![.create ⟨1, "Globex", "globex", 11⟩, .update ⟨7, none, some "globex"⟩]

/-- John is added to tenant 7 twice. -/
def twoMembers : Tenancy (Fin 2) :=
  Tenancy.small ![.addMember ⟨7, "john@example.com", .admin⟩, .addMember ⟨7, "john@example.com", .member⟩]

theorem twoApps_claim : twoApps.ClaimSlug [] "acme" where
  requests i := match i with
    | 0 | 1 => rfl
  ids := List.nodup_nil
  unique := List.nodup_nil
  fresh _ _ ha := by cases ha

theorem twoSlugs_claim : twoSlugs.ClaimSlug .small 1 "globex" where
  requests i := match i with
    | 0 => Or.inl ⟨_, rfl, rfl, rfl, rfl⟩
    | 1 => Or.inr ⟨_, _, rfl, rfl, rfl, rfl⟩
  different i j _ _ hi hj _ := match i, j with
    | 0, _ => by cases hi
    | 1, 0 => by cases hj
    | 1, 1 => rfl
  app := rfl
  ids := by decide
  unique := by decide
  references := by decide
  fresh := by decide

theorem twoMembers_claim : twoMembers.ClaimMembership .small 7 12 where
  requests i := match i with
    | 0 | 1 => ⟨_, rfl, rfl, rfl⟩
  tenant := rfl
  ids := by decide
  unique := by decide
  fresh := by decide

/-- The update loads its tenant when the new one has the slug. -/
theorem conflicts_reported_two :
    (twoApps.slugClaims "acme").Exact (Apps.start []) ∧
    (twoMembers.membershipClaims 7 12).Exact (Tenancy.start .small) ∧ ∃ s,
      exec twoSlugs.call (Tenancy.start .small) ([0, 0, 0, 1, 0, 1].map fun i => (i, .millis 1)) = some s ∧
        s.phase 0 = .succeeded ∧
        ∀ i e, (s.phase i).outcome = some (.error e) → e = .tenantSlugAlreadyExists "globex" 1 := by
  obtain ⟨happs, hslugs, hmembers⟩ := @conflicts_reported_iff (Fin 2) _
  obtain ⟨s, hs, h0⟩ : ∃ s, exec twoSlugs.call (Tenancy.start .small)
      ([0, 0, 0, 1, 0, 1].map fun i => (i, .millis 1)) = some s ∧
        s.phase 0 = .succeeded := ⟨_, rfl, by decide⟩
  refine ⟨(happs _ _ _ twoApps_claim).1, (hmembers _ _ _ _ twoMembers_claim).1, s, hs, h0, ?_⟩
  refine ((hslugs _ _ _ _ twoSlugs_claim).1.reported_iff _ s hs).2 ?_
  -- only the creation inserts, at the third step
  let claims := twoSlugs.slugClaims .small 1 "globex"
  exact along_of_check
    (fun s (a : Fin 2 × Date) => ¬ (claims.phase s a.1 = .checked ∧ 0 < claims.rows s.db))
    (fun _ _ h => of_decide_eq_true h) (by decide)

/-- **A lost race**: both find the slug free, and the constraint rejects the later row. The error of the
database reaches the filter, which does not catch it. -/
theorem lost_race : twoSlugs.ClaimSlug .small 1 "globex" ∧ ∃ s,
    exec twoSlugs.call (Tenancy.start .small) ([0, 0, 1, 1, 0, 1].map fun i => (i, .millis 1)) = some s ∧
      s.phase 1 = .failed .queryFailed ∧ TenancyError.queryFailed.status = none :=
  ⟨twoSlugs_claim, _, rfl, by decide, rfl⟩

end AccountApi

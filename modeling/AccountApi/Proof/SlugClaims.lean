import AccountApi.Proof.SlugMoves

/-!
# Requests for one slug of an app

The calls of `CreateTenant` and `UpdateTenant` requests for one slug, as moves of claims.

* `Tenancy.slugClaims_lawful`: these requests are lawful claims.
-/

namespace AccountApi

open Transition Claim

namespace Tenancy

variable {ι : Type} {S : Tenancy ι} {db d : TenancyDb} {appId : Uuid} {slug : String} {i j : ι}
  {s t : TenancyState ι} {now : Date} {q : TenancyPhase}

/-- The result of a call: a move that is also one of the claims. -/
structure SlugCall [DecidableEq ι] (S : Tenancy ι) (db : TenancyDb) (appId : Uuid) (slug : String) (i : ι)
    (s t : TenancyState ι) (p q : TenancyPhase) : Prop where
  move : S.SlugMove i s.db t.db p q
  phase : S.SlugPhase db appId slug i q
  claim : (S.slugClaims db appId slug).Move s t
    (if S.holdsSlug db slug i then .holder else p.slugClaim)
    (if S.holdsSlug db slug i then .holder else q.slugClaim)

variable [DecidableEq ι] {p : TenancyPhase} {d' : TenancyDb}

/-- A call of a request whose tenant does not have the slug. -/
theorem SlugCall.free (hholds : S.holdsSlug db slug i = false) (hmove : S.SlugMove i s.db t.db p q)
    (hphase : S.SlugPhase db appId slug i q)
    (hclaim : (S.slugClaims db appId slug).Move s t p.slugClaim q.slugClaim) :
    S.SlugCall db appId slug i s t p q := by
  refine ⟨hmove, hphase, ?_⟩
  have hne : ¬ S.holdsSlug db slug i = true := by simp [hholds]
  rw [if_neg hne, if_neg hne]
  exact hclaim

/-- The insert or the update that claims the slug. -/
theorem SlugCall.save (hholds : S.holdsSlug db slug i = false) {r : TenantEntity} (hid : r.id = S.target i)
    (hp : p.stored = false) (hq : q.stored = true) (hpc : p.slugClaim = .checked) (hqc : q.slugClaim = .won)
    (hphase : S.SlugPhase db appId slug i q) (hsave : s.db.saveTenant S.world r = some t.db)
    (hcount : s.db.countByAppIdAndSlug appId slug = 0 ∧ t.db.countByAppIdAndSlug appId slug = 1) :
    S.SlugCall db appId slug i s t p q := by
  refine .free hholds (.saveTenant r _ _ _ hid hsave hp hq) hphase ?_
  rw [hpc, hqc]
  exact .win hcount.1 hcount.2

/-- A call that does not write. -/
theorem SlugCall.read (hholds : S.holdsSlug db slug i = false) (hdb : t.db = s.db) (hp : p.stored = false)
    (hq : q.stored = false) (hphase : S.SlugPhase db appId slug i q)
    (hclaim : (S.slugClaims db appId slug).Move s t p.slugClaim q.slugClaim) :
    S.SlugCall db appId slug i s t p q :=
  .free hholds (hdb ▸ .read p q hp hq) hphase hclaim

theorem create_call (hs : S.SlugInv db appId slug s) {c : CreateTenantCommand} (hr : S.requests i = .create c)
    (hp : s.phase i = p) (h : s.db.advance S.world (S.new i) now (.create c) p = some (d', q))
    (ht : t.db = d') : S.SlugCall db appId slug i s t p q := by
  obtain ⟨happ, hslug, huser⟩ := hs.claim.of_create hr
  have hholds : S.holdsSlug db slug i = false := by simp [holdsSlug, hr]
  have htarget := target_create hr
  have hphase := hp ▸ hs.phase i
  have hfailed : ∀ e, e = .tenantSlugAlreadyExists slug appId ∨ e = .queryFailed →
      S.SlugPhase db appId slug i (.failed e) := fun e => .failed e hholds
  cases hphase with
  | received =>
    simp only [TenancyDb.advance, happ, hs.claim.app, if_true] at h
    cases h
    exact .read hholds ht rfl rfl (.appExists c hr)
      (.stay _ (by simp [TenancyPhase.slugClaim]) (Or.inl ht) (congrArg (S.slugClaims db appId slug).rows ht))
  | appExists =>
    simp only [TenancyDb.advance, happ, hslug] at h
    split at h <;> cases h
    case h_1 hx =>
      exact .read hholds ht rfl rfl (hfailed _ (Or.inl rfl)) (.refuse (Table.find_some_pos hx) ht)
    case h_2 hx =>
      exact .read hholds ht rfl rfl (.slugAvailable c hr) (.check (Table.find_none_iff.1 hx) ht)
  | slugAvailable =>
    have hnew : s.db.findTenant (S.newTenantId i) = none := by
      have hunsaved := hs.unsaved i (by rw [hp]; rfl)
      rwa [htarget, hs.claim.findTenant_new i] at hunsaved
    have hclaim := TenancyDb.saveTenant_claim (r := (c.tenant (S.newTenantId i) now).primitives) hs.ids
      hs.claim.app happ hslug fun x hx => by
        rw [CreateTenantCommand.tenant_primitives, hnew] at hx
        cases hx
    simp only [TenancyDb.advance] at h
    split at h <;> cases h
    case h_1 hsave =>
      subst ht
      exact .save hholds htarget.symm rfl rfl rfl rfl (.tenantSaved c _ hr rfl) hsave (hclaim.1 _ hsave)
    case h_2 hsave => exact .read hholds ht rfl rfl (hfailed _ (Or.inr rfl)) (.reject (hclaim.2 hsave) ht)
  | tenantSaved _ tenant _ hid =>
    have hrow := hs.saved i (by rw [hp]; rfl)
    -- the owner is the first member of the new tenant
    have hold : ∀ m ∈ s.db.memberships, m.id ≠ S.newMembershipId i ∧ m.tenantId ≠ S.newTenantId i := by
      intro m hm
      rcases hs.memberships m hm with hm | ⟨j, hj, hmid, hmt⟩
      · refine ⟨(hs.claim.fresh i).2 m hm, fun hmt => ?_⟩
        have href := hs.claim.references m hm
        rw [hmt, hs.claim.findTenant_new i] at href
        cases href
      · have hji : j ≠ i := by
          rintro rfl
          rw [hp] at hj
          cases hj
        refine ⟨fun heq => hji (S.newMembershipId.injective (hmid.symm.trans heq)), fun heq => ?_⟩
        exact hji (hs.claim.target_injective (hmt.symm.trans (heq.trans htarget.symm)))
    have hsave := TenancyDb.saveMembership_first (w := S.world) (d := s.db)
      (m := ⟨(S.new i).membershipId, tenant.primitives.id, c.creatorUserId, .owner, now, now⟩)
      (by rw [hid, ← htarget]; exact hrow) huser (fun m hm => (hold m hm).1)
      fun m hm => by rw [hid]; exact (hold m hm).2
    simp only [TenancyDb.advance, hsave] at h
    cases h
    refine .free hholds (ht ▸ .saveOwner _ _ rfl (hid.trans htarget.symm)) .succeeded ?_
    exact .stay _ (by simp [TenancyPhase.slugClaim]) (Or.inr (Or.inl rfl))
      (congrArg (·.countByAppIdAndSlug appId slug) ht)
  | slugUnchecked _ _ hr' | checked _ _ hr' =>
    rw [hr] at hr'
    cases hr'
  | succeeded | failed => cases h

theorem call_advance {a : ι × Date} (h : S.call s a = some t) :
    s.db.advance S.world (S.new a.1) a.2 (S.requests a.1) (s.phase a.1) = some (t.db, t.phase a.1) ∧
      ∀ j, j ≠ a.1 → t.phase j = s.phase j := by
  obtain ⟨⟨d, p⟩, hnext, rfl⟩ := Option.map_eq_some_iff.1 h
  refine ⟨?_, fun j hj => Function.update_of_ne hj _ _⟩
  simp only [Bool.false_eq_true, if_false, Function.update_self]
  exact hnext

omit [DecidableEq ι] in
/-- Until a request saves the tenant that it updates, the tenant is as at the start. -/
theorem SlugInv.findTenant_updated (hs : S.SlugInv db appId slug s) {c : UpdateTenantCommand}
    (hr : S.requests i = .update c) (hp : (s.phase i).stored = false) :
    s.db.findTenant c.tenantId = db.findTenant c.tenantId := by
  rw [← target_update hr]
  exact hs.unsaved i hp

omit [DecidableEq ι] in
/-- What an update of the tenant `t₀` holds in each of its phases. -/
theorem SlugPhase.of_update (h : S.SlugPhase db appId slug i p) {c : UpdateTenantCommand}
    (hr : S.requests i = .update c) {t₀ : TenantEntity} (ht₀ : db.findTenant c.tenantId = some t₀) :
    p = .received ∨ (p = .slugUnchecked t₀.toAggregate ∧ t₀.slug ≠ slug) ∨ p = .checked t₀.toAggregate ∨
      p.outcome.isSome = true := by
  cases h with
  | received => exact Or.inl rfl
  | slugUnchecked c' t hr' ht hne =>
    obtain rfl : c = c' := TenancyRequest.update.inj (hr.symm.trans hr')
    obtain rfl := Option.some.inj (ht₀.symm.trans ht)
    exact Or.inr (Or.inl ⟨rfl, hne⟩)
  | checked c' t hr' ht =>
    obtain rfl : c = c' := TenancyRequest.update.inj (hr.symm.trans hr')
    obtain rfl := Option.some.inj (ht₀.symm.trans ht)
    exact Or.inr (Or.inr (Or.inl rfl))
  | succeeded | failed => exact Or.inr (Or.inr (Or.inr rfl))
  | appExists _ hr' | slugAvailable _ hr' | tenantSaved _ _ hr' _ =>
    rw [hr] at hr'
    cases hr'

omit [DecidableEq ι] in
/-- The row that an update saves. -/
theorem updated_row {c : UpdateTenantCommand} (hslug : c.slug = some slug) {t₀ : TenantEntity}
    (ht₀ : db.findTenant c.tenantId = some t₀) (now : Date) :
    let r := (t₀.toAggregate.update c.name c.slug now).primitives
    r.id = c.tenantId ∧ r.appId = t₀.appId ∧ r.slug = slug := by
  intro r
  have hr : r = _ := TenantAggregate.update_primitives t₀.toAggregate c.name c.slug now
  rw [hr, hslug]
  exact ⟨(TenancyDb.findTenant_some ht₀).2, rfl, rfl⟩

omit [DecidableEq ι] in
/-- A request that has ended makes no call. -/
theorem advance_ended {r : TenancyRequest} (hp : p.outcome.isSome = true) :
    d.advance S.world (S.new i) now r p = none := by
  cases p with
  | succeeded | failed => cases r <;> rfl
  | _ => cases hp

/-- An update of a tenant that has the slug already neither checks it nor loses it. -/
theorem hold_call (hs : S.SlugInv db appId slug s) {c : UpdateTenantCommand} (hr : S.requests i = .update c)
    (hholds : S.holdsSlug db slug i = true) (hp : s.phase i = p)
    (h : s.db.advance S.world (S.new i) now (.update c) p = some (d', q)) (ht : t.db = d') :
    S.SlugCall db appId slug i s t p q := by
  obtain ⟨hslug, t₀, ht₀, happ⟩ := hs.claim.of_update hr
  have hheld : t₀.slug = slug := by simpa [holdsSlug, hr, ht₀] using hholds
  have hrow : p.stored = false → s.db.findTenant c.tenantId = some t₀ :=
    fun hstored => (hs.findTenant_updated hr (hp ▸ hstored)).trans ht₀
  have hcall : S.SlugMove i s.db t.db p q → S.SlugPhase db appId slug i q →
      t.db.countByAppIdAndSlug appId slug = s.db.countByAppIdAndSlug appId slug →
      S.SlugCall db appId slug i s t p q := by
    intro hmove hphase hcount
    refine ⟨hmove, hphase, ?_⟩
    rw [if_pos hholds, if_pos hholds]
    exact .stay _ (by simp) (Or.inr (Or.inr rfl)) hcount
  rcases (hp ▸ hs.phase i).of_update hr ht₀ with rfl | ⟨-, hne⟩ | rfl | hended
  · simp only [TenancyDb.advance, hrow rfl, hslug, hheld, Option.any_some, ne_eq, not_true, decide_false] at h
    cases h
    exact hcall (ht ▸ .read _ _ rfl rfl) (.checked c t₀ hr ht₀)
      (congrArg (·.countByAppIdAndSlug appId slug) ht)
  · exact absurd hheld hne
  · obtain ⟨hid, happ', hslug'⟩ := updated_row hslug ht₀ now
    obtain ⟨d, hsave, hcount⟩ := TenancyDb.saveTenant_held hs.ids hs.count hs.claim.app (happ'.trans happ)
      hslug' (hid ▸ hrow rfl) happ hheld
    simp only [TenancyDb.advance, hsave] at h
    cases h
    subst ht
    exact hcall (.saveTenant _ _ _ _ (hid.trans (target_update hr).symm) hsave rfl rfl) .succeeded hcount
  · rw [advance_ended hended] at h
    cases h

theorem update_call (hs : S.SlugInv db appId slug s) {c : UpdateTenantCommand} (hr : S.requests i = .update c)
    (hfree : S.holdsSlug db slug i = false) (hp : s.phase i = p)
    (h : s.db.advance S.world (S.new i) now (.update c) p = some (d', q)) (ht : t.db = d') :
    S.SlugCall db appId slug i s t p q := by
  obtain ⟨hslug, t₀, ht₀, happ⟩ := hs.claim.of_update hr
  have hother : t₀.slug ≠ slug := by simpa [holdsSlug, hr, ht₀] using hfree
  have hrow : p.stored = false → s.db.findTenant c.tenantId = some t₀ :=
    fun hstored => (hs.findTenant_updated hr (hp ▸ hstored)).trans ht₀
  have hfailed : ∀ e, e = .tenantSlugAlreadyExists slug appId ∨ e = .queryFailed →
      S.SlugPhase db appId slug i (.failed e) := fun e => .failed e hfree
  rcases (hp ▸ hs.phase i).of_update hr ht₀ with rfl | ⟨rfl, -⟩ | rfl | hended
  · have hany : (some slug).any (fun s => s ≠ t₀.slug) = true := by simpa using hother.symm
    simp only [TenancyDb.advance, hrow rfl, hslug, hany, if_true] at h
    cases h
    exact .read hfree ht rfl rfl (.slugUnchecked c t₀ hr ht₀ hother)
      (.stay _ (by simp [TenancyPhase.slugClaim]) (Or.inl ht) (congrArg (S.slugClaims db appId slug).rows ht))
  · simp only [TenancyDb.advance, hslug, TenantEntity.toAggregate_primitives, Option.getD_some, happ] at h
    split at h <;> cases h
    case h_1 hx => exact .read hfree ht rfl rfl (hfailed _ (Or.inl rfl)) (.refuse (Table.find_some_pos hx) ht)
    case h_2 hx =>
      exact .read hfree ht rfl rfl (.checked c t₀ hr ht₀) (.check (Table.find_none_iff.1 hx) ht)
  · obtain ⟨hid, happ', hslug'⟩ := updated_row hslug ht₀ now
    -- the row is still the one that was loaded, without the slug
    have hclaim := TenancyDb.saveTenant_claim hs.ids hs.claim.app (happ'.trans happ) hslug' fun x hx => by
      rw [hid, hrow rfl] at hx
      cases hx
      exact hother
    simp only [TenancyDb.advance] at h
    split at h <;> cases h
    case h_1 hsave =>
      subst ht
      exact .save hfree (hid.trans (target_update hr).symm) rfl rfl rfl rfl .succeeded hsave (hclaim.1 _ hsave)
    case h_2 hsave => exact .read hfree ht rfl rfl (hfailed _ (Or.inr rfl)) (.reject (hclaim.2 hsave) ht)
  · rw [advance_ended hended] at h
    cases h

/-- **One step of the system**, when all requests claim the slug. -/
theorem slug_call {a : ι × Date} (hs : S.SlugInv db appId slug s) (h : S.call s a = some t) :
    S.SlugCall db appId slug a.1 s t (s.phase a.1) (t.phase a.1) ∧ ∀ j, j ≠ a.1 → t.phase j = s.phase j := by
  obtain ⟨hnext, hothers⟩ := call_advance h
  refine ⟨?_, hothers⟩
  rcases hs.claim.requests a.1 with ⟨c, hr, -⟩ | ⟨c, -, hr, -⟩
  · exact create_call hs hr rfl (hr ▸ hnext) rfl
  · cases hholds : S.holdsSlug db slug a.1 with
    | true => exact hold_call hs hr hholds rfl (hr ▸ hnext) rfl
    | false => exact update_call hs hr hholds rfl (hr ▸ hnext) rfl

theorem slug_step {a : ι × Date} (hs : S.SlugInv db appId slug s) (h : S.call s a = some t) :
    S.SlugInv db appId slug t := by
  obtain ⟨⟨hmove, hphase, hclaim⟩, hothers⟩ := slug_call hs h
  exact hs.move hmove hothers hphase (hclaim.rows_le_one hs.count)

omit [DecidableEq ι] in
theorem ClaimSlug.inv (h : S.ClaimSlug db appId slug) : S.SlugInv db appId slug (start db) where
  claim := h
  ids := h.ids
  count := by
    have hone := Table.filter_unique_le_one h.unique (appId, slug)
    simpa [TenancyDb.countByAppIdAndSlug, start, Prod.ext_iff] using hone
  unsaved _ _ := rfl
  saved _ hi := by cases hi
  memberships _ hm := Or.inl hm
  phase _ := .received

/-- A request that has not ended has a next call. -/
theorem call_isSome (now : Date) (hp : (s.db.advance S.world (S.new i) now (S.requests i) (s.phase i)).isSome) :
    ∃ a : ι × Date, a.1 = i ∧ (S.call s a).isSome = true := by
  refine ⟨(i, now), rfl, ?_⟩
  simpa [call, step, next] using hp

omit [DecidableEq ι] in
theorem SlugPhase.of_failed {e : TenancyError} (h : S.SlugPhase db appId slug i (.failed e)) :
    S.holdsSlug db slug i = false ∧ (e = .tenantSlugAlreadyExists slug appId ∨ e = .queryFailed) := by
  cases h with
  | failed _ hfree he => exact ⟨hfree, he⟩

omit [DecidableEq ι] in
theorem SlugPhase.advance_isSome (h : S.SlugPhase db appId slug i p) (hc : S.ClaimSlug db appId slug)
    (hp : p.outcome = none) : (d.advance S.world (S.new i) now (S.requests i) p).isSome = true := by
  cases h with
  | received =>
    rcases hc.requests i with ⟨c, hr, -⟩ | ⟨c, -, hr, -⟩
    · simp only [hr, TenancyDb.advance]
      split <;> rfl
    · simp only [hr, TenancyDb.advance]
      split
      · rfl
      · split <;> rfl
  | appExists _ hr | slugAvailable _ hr | tenantSaved _ _ hr | slugUnchecked _ _ hr | checked _ _ hr =>
    simp only [hr, TenancyDb.advance]
    split <;> rfl
  | succeeded | failed => cases hp

/-- **Requests for one slug of an app are lawful claims.** -/
theorem slugClaims_lawful : (S.slugClaims db appId slug).Lawful (S.SlugInv db appId slug) where
  inv _ _ _ hs h := slug_step hs h
  move s a t hs h := by
    obtain ⟨hcall, hothers⟩ := slug_call hs h
    refine ⟨hcall.claim, fun j hj => ?_⟩
    simp only [slugClaims, hothers j hj]
  ok s i _ h := by
    have hphase : s.phase i = .succeeded := TenancyPhase.outcome_ok h
    simp only [slugClaims, hphase, TenancyPhase.slugClaim]
    split
    · exact Or.inr rfl
    · exact Or.inl rfl
  error s i e hs h := by
    have hphase : s.phase i = .failed e := TenancyPhase.outcome_error h
    obtain ⟨hfree, herror⟩ := (hphase ▸ hs.phase i).of_failed
    simp only [slugClaims, hfree, hphase, Bool.false_eq_true, if_false]
    rcases herror with rfl | rfl
    · exact Or.inl ⟨rfl, rfl⟩
    · exact Or.inr rfl
  rejected s i _ h := by
    have hphase : s.phase i = .failed .queryFailed := by
      simp only [slugClaims] at h
      split at h
      · cases h
      · exact TenancyPhase.slugClaim_rejected h
    exact ⟨.queryFailed, congrArg TenancyPhase.outcome hphase, by simp [slugClaims]⟩
  live s i hs h := call_isSome (.millis 0) ((hs.phase i).advance_isSome hs.claim h)

end Tenancy

end AccountApi

import AccountApi.Spec.Conflicts
import AccountApi.Proof.TenancyMoves

/-!
# Calls of requests for one slug of an app

`SlugMove` is what a call of a request on the tenants of one app does when all of them are for
one slug. Each request saves the tenant that is its target and no other one
(`ClaimSlug.target_injective`), and until then the tenant is as it was at the start.

* `SlugInv.move`: what a call preserves.
-/

namespace AccountApi

open Transition Claim

namespace TenancyDb

variable {w : TenancyWorld} {d d' : TenancyDb} {r x : TenantEntity} {appId : Uuid} {slug : String}

/-- A tenant that did not have the slug claims it with its save. -/
theorem saveTenant_claim (hids : (d.tenants.map (·.id)).Nodup) (hw : w.apps.contains appId = true)
    (happ : r.appId = appId) (hslug : r.slug = slug) (hown : ∀ x, d.findTenant r.id = some x → x.slug ≠ slug) :
    (∀ d', d.saveTenant w r = some d' →
      d.countByAppIdAndSlug appId slug = 0 ∧ d'.countByAppIdAndSlug appId slug = 1) ∧
      (d.saveTenant w r = none → 0 < d.countByAppIdAndSlug appId slug) := by
  subst happ hslug
  have hclaim := Table.claim_upsert (fun x t : TenantEntity => x.appId = t.appId && x.slug = t.slug)
    (p := fun x => x.appId = r.appId && x.slug = r.slug) hids (by simp) (fun x hx hid => ?_) fun _ _ => rfl
  · refine ⟨fun d' h => hclaim.1 _ (saveTenant_some h).2.2, fun h => hclaim.2 ?_⟩
    rw [saveTenant, if_pos hw] at h
    exact Option.map_eq_none_iff.1 h
  · have hfind : d.findTenant r.id = some x := hid ▸ Table.find_key_of_mem hids hx
    simp [hown x hfind]

/-- A tenant that has the slug keeps it. -/
theorem saveTenant_held (hids : (d.tenants.map (·.id)).Nodup) (hone : d.countByAppIdAndSlug appId slug ≤ 1)
    (hw : w.apps.contains appId = true) (happ : r.appId = appId) (hslug : r.slug = slug)
    (hx : d.findTenant r.id = some x) (happx : x.appId = appId) (hslugx : x.slug = slug) :
    ∃ d', d.saveTenant w r = some d' ∧
      d'.countByAppIdAndSlug appId slug = d.countByAppIdAndSlug appId slug := by
  subst happ hslug
  obtain ⟨hmem, hid⟩ := findTenant_some hx
  obtain ⟨rows, hup, hcount⟩ :=
    Table.hold_upsert (fun x t : TenantEntity => x.appId = t.appId && x.slug = t.slug)
      (p := fun x => x.appId = r.appId && x.slug = r.slug) hids (by simp) hmem hid (by simp [happx, hslugx])
      hone fun _ _ => rfl
  exact ⟨{ d with tenants := rows }, by rw [saveTenant, if_pos hw, hup]; rfl, hcount⟩

/-- The first membership of a tenant is saved. -/
theorem saveMembership_first {m : TenantMembershipEntity} (htenant : (d.findTenant m.tenantId).isSome = true)
    (huser : w.hasUser m.userId = true) (hid : ∀ x ∈ d.memberships, x.id ≠ m.id)
    (hfirst : ∀ x ∈ d.memberships, x.tenantId ≠ m.tenantId) :
    d.saveMembership w m = some { d with memberships := d.memberships ++ [m] } := by
  cases hsave : d.saveMembership w m with
  | some d' => rw [saveMembership_insert hid hsave]
  | none =>
    have hnone : d.findByTenantIdAndUserId m.tenantId m.userId = none :=
      List.find?_eq_none.2 fun x hx => by simp [hfirst x hx]
    rcases saveMembership_none hid hsave with h | h | h
    · simp [h] at htenant
    · simp [h] at huser
    · simp [hnone] at h

end TenancyDb

namespace TenancyPhase

variable {p : TenancyPhase} {e : TenancyError}

theorem outcome_ok (h : p.outcome = some (.ok ())) : p = .succeeded := by
  cases p <;> first | rfl | cases h

theorem outcome_error (h : p.outcome = some (.error e)) : p = .failed e := by
  cases p <;> cases h
  rfl

theorem slugClaim_rejected (h : p.slugClaim = .rejected) : p = .failed .queryFailed := by
  cases p with
  | failed e => cases e <;> first | rfl | cases h
  | _ => cases h

theorem membershipClaim_rejected (h : p.membershipClaim = .rejected) : p = .failed .queryFailed := by
  cases p with
  | failed e => cases e <;> first | rfl | cases h
  | _ => cases h

end TenancyPhase

/-- The request has saved its tenant. -/
def TenancyPhase.stored : TenancyPhase → Bool
  | tenantSaved _ | succeeded => true
  | _ => false

namespace Tenancy

variable {ι : Type} {S : Tenancy ι} {db d : TenancyDb} {appId : Uuid} {slug : String} {i j : ι}

/-- The tenant that a request creates or updates. -/
def target (S : Tenancy ι) (i : ι) : Uuid :=
  match S.requests i with
  | .update c => c.tenantId
  | _ => S.newTenantId i

theorem target_create {c : CreateTenantCommand} (hr : S.requests i = .create c) :
    S.target i = S.newTenantId i := by
  simp [target, hr]

theorem target_update {c : UpdateTenantCommand} (hr : S.requests i = .update c) :
    S.target i = c.tenantId := by
  simp [target, hr]

namespace ClaimSlug

variable (h : S.ClaimSlug db appId slug)

include h

theorem of_create {c : CreateTenantCommand} (hr : S.requests i = .create c) :
    c.appId = appId ∧ c.slug = slug ∧ S.world.hasUser c.creatorUserId = true := by
  rcases h.requests i with ⟨c', hr', hc⟩ | ⟨c', t, hr', -⟩ <;> rw [hr] at hr' <;> cases hr'
  exact hc

theorem of_update {c : UpdateTenantCommand} (hr : S.requests i = .update c) :
    c.slug = some slug ∧ ∃ t, db.findTenant c.tenantId = some t ∧ t.appId = appId := by
  rcases h.requests i with ⟨c', hr', -⟩ | ⟨c', t, hr', hslug, ht⟩ <;> rw [hr] at hr' <;> cases hr'
  exact ⟨hslug, t, ht⟩

theorem findTenant_new (i : ι) : db.findTenant (S.newTenantId i) = none :=
  TenancyDb.findTenant_none.2 (h.fresh i).1

theorem updated_ne_new {c : UpdateTenantCommand} (hr : S.requests i = .update c) (j : ι) :
    c.tenantId ≠ S.newTenantId j := by
  obtain ⟨-, t, ht, -⟩ := h.of_update hr
  intro hid
  rw [hid, h.findTenant_new j] at ht
  cases ht

/-- No two requests save one tenant. -/
theorem target_injective (heq : S.target i = S.target j) : i = j := by
  rcases h.requests i with ⟨c, hi, -⟩ | ⟨c, -, hi, -⟩ <;>
    rcases h.requests j with ⟨d, hj, -⟩ | ⟨d, -, hj, -⟩
  · rw [target_create hi, target_create hj] at heq
    exact S.newTenantId.injective heq
  · rw [target_create hi, target_update hj] at heq
    exact absurd heq.symm (h.updated_ne_new hj i)
  · rw [target_update hi, target_create hj] at heq
    exact absurd heq (h.updated_ne_new hi j)
  · rw [target_update hi, target_update hj] at heq
    exact h.different i j c d hi hj heq

end ClaimSlug

/-- The phases of a request that claims the slug, with what it holds. -/
inductive SlugPhase (S : Tenancy ι) (db : TenancyDb) (appId : Uuid) (slug : String) (i : ι) :
    TenancyPhase → Prop
  | received : SlugPhase S db appId slug i .received
  | appExists (c) : S.requests i = .create c → SlugPhase S db appId slug i .appExists
  | slugAvailable (c) : S.requests i = .create c → SlugPhase S db appId slug i .slugAvailable
  | tenantSaved (c) (t) : S.requests i = .create c → t.primitives.id = S.newTenantId i →
      SlugPhase S db appId slug i (.tenantSaved t)
  | slugUnchecked (c) (t) : S.requests i = .update c → db.findTenant c.tenantId = some t → t.slug ≠ slug →
      SlugPhase S db appId slug i (.slugUnchecked t.toAggregate)
  | checked (c) (t) : S.requests i = .update c → db.findTenant c.tenantId = some t →
      SlugPhase S db appId slug i (.checked t.toAggregate)
  | succeeded : SlugPhase S db appId slug i .succeeded
  | failed (e) : S.holdsSlug db slug i = false → e = .tenantSlugAlreadyExists slug appId ∨ e = .queryFailed →
      SlugPhase S db appId slug i (.failed e)

/-- What holds between two calls. -/
structure SlugInv (S : Tenancy ι) (db : TenancyDb) (appId : Uuid) (slug : String) (s : TenancyState ι) :
    Prop where
  claim : S.ClaimSlug db appId slug
  ids : (s.db.tenants.map (·.id)).Nodup
  count : s.db.countByAppIdAndSlug appId slug ≤ 1
  unsaved : ∀ i, (s.phase i).stored = false → s.db.findTenant (S.target i) = db.findTenant (S.target i)
  saved : ∀ i, (s.phase i).stored = true → (s.db.findTenant (S.target i)).isSome = true
  /-- A new membership is that of the creator of a new tenant. -/
  memberships : ∀ m ∈ s.db.memberships, m ∈ db.memberships ∨
    ∃ j, s.phase j = .succeeded ∧ m.id = S.newMembershipId j ∧ m.tenantId = S.target j
  phase : ∀ i, S.SlugPhase db appId slug i (s.phase i)

/-- The calls, by what they do to the tables. -/
inductive SlugMove (S : Tenancy ι) (i : ι) (d : TenancyDb) : TenancyDb → TenancyPhase → TenancyPhase → Prop
  | read (p q) : p.stored = false → q.stored = false → SlugMove S i d d p q
  | saveTenant (r d' p q) : r.id = S.target i → d.saveTenant S.world r = some d' → p.stored = false →
      q.stored = true → SlugMove S i d d' p q
  | saveOwner (m t) : m.id = S.newMembershipId i → m.tenantId = S.target i →
      SlugMove S i d { d with memberships := d.memberships ++ [m] } (.tenantSaved t) .succeeded

namespace SlugMove

variable {d' : TenancyDb} {p q : TenancyPhase}

theorem findTenant_other (h : S.SlugMove i d d' p q) {id : Uuid} (hid : id ≠ S.target i) :
    d'.findTenant id = d.findTenant id := by
  cases h with
  | read => rfl
  | saveTenant r _ _ _ hr hsave => rw [TenancyDb.findTenant_saveTenant hsave, if_neg (hr ▸ hid)]
  | saveOwner => rfl

theorem findTenant_saved (h : S.SlugMove i d d' p q) (hq : q.stored = true)
    (hp : p.stored = true → (d.findTenant (S.target i)).isSome = true) :
    (d'.findTenant (S.target i)).isSome = true := by
  cases h with
  | read _ _ _ hq' => simp [hq'] at hq
  | saveTenant r _ _ _ hr hsave => rw [TenancyDb.findTenant_saveTenant hsave, if_pos hr.symm]; rfl
  | saveOwner => exact hp rfl

theorem unsaved (h : S.SlugMove i d d' p q) (hq : q.stored = false) : d' = d ∧ p.stored = false := by
  cases h with
  | read _ _ hp => exact ⟨rfl, hp⟩
  | saveTenant _ _ _ _ _ _ _ hq' => simp [hq'] at hq
  | saveOwner => cases hq

theorem nodup_ids (h : S.SlugMove i d d' p q) (hids : (d.tenants.map (·.id)).Nodup) :
    (d'.tenants.map (·.id)).Nodup := by
  cases h with
  | read => exact hids
  | saveTenant _ _ _ _ _ hsave => exact Table.nodup_upsert hids (TenancyDb.saveTenant_some hsave).2.2
  | saveOwner => exact hids

theorem mem_memberships (h : S.SlugMove i d d' p q) {m : TenantMembershipEntity} (hm : m ∈ d'.memberships) :
    m ∈ d.memberships ∨ (q = .succeeded ∧ m.id = S.newMembershipId i ∧ m.tenantId = S.target i) := by
  cases h with
  | read => exact Or.inl hm
  | saveTenant _ _ _ _ _ hsave => exact Or.inl ((TenancyDb.saveTenant_some hsave).2.1 ▸ hm)
  | saveOwner n _ hid htenant =>
    rcases List.mem_append.1 hm with hm | hm
    · exact Or.inl hm
    · obtain rfl := List.mem_singleton.1 hm
      exact Or.inr ⟨rfl, hid, htenant⟩

theorem ne_succeeded (h : S.SlugMove i d d' p q) : p ≠ .succeeded := by
  rintro rfl
  cases h with
  | read _ _ hp => cases hp
  | saveTenant _ _ _ _ _ _ hp => cases hp

end SlugMove

variable {s t : TenancyState ι} {now : Date} {q : TenancyPhase}

/-- **The moves preserve the invariant.** -/
theorem SlugInv.move (hs : S.SlugInv db appId slug s) (h : S.SlugMove i s.db t.db (s.phase i) (t.phase i))
    (hothers : ∀ j, j ≠ i → t.phase j = s.phase j) (hphase : S.SlugPhase db appId slug i (t.phase i))
    (hcount : t.db.countByAppIdAndSlug appId slug ≤ 1) : S.SlugInv db appId slug t := by
  have hframe : ∀ j, j ≠ i → t.db.findTenant (S.target j) = s.db.findTenant (S.target j) := by
    intro j hj
    exact h.findTenant_other fun heq => hj (hs.claim.target_injective heq)
  refine ⟨hs.claim, h.nodup_ids hs.ids, hcount, ?_, ?_, fun m hm => ?_, ?_⟩
  case refine_1 =>
    refine forall_moved (P := fun j p => p.stored = false → t.db.findTenant (S.target j) = _) hothers
      (fun hi => ?_) fun j hji hj => (hframe j hji).trans (hs.unsaved j hj)
    obtain ⟨hdb, hp⟩ := h.unsaved hi
    rw [hdb]
    exact hs.unsaved i hp
  case refine_2 =>
    refine forall_moved (P := fun j p => p.stored = true → (t.db.findTenant (S.target j)).isSome = true)
      hothers (fun hi => h.findTenant_saved hi (hs.saved i)) fun j hji hj => ?_
    rw [hframe j hji]
    exact hs.saved j hj
  case refine_3 =>
    rcases h.mem_memberships hm with hm | ⟨hq, hm⟩
    · rcases hs.memberships m hm with hm | ⟨j, hj, hm⟩
      · exact Or.inl hm
      · have hji : j ≠ i := fun hji => h.ne_succeeded (hji ▸ hj)
        exact Or.inr ⟨j, (hothers j hji).trans hj, hm⟩
    · exact Or.inr ⟨i, hq, hm⟩
  case refine_4 => exact forall_moved hothers hphase fun j _ => hs.phase j

end Tenancy

end AccountApi
